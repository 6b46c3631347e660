import PicoRadio.Library.Stateful

/-!
# Programs with fuel

The loops of a program in `StateT σ Option` take a bound on their turns, the fuel, and fail when it
is used up. `Terminates x P Q` is total correctness: from a state in `P` the program does not fail,
and what it returns and leaves is in `Q`.

`Simulates I abs x y` compares it with a program in `StateM τ`, whose loops have a measure instead:
from a state in the invariant `I`, the program does not fail, keeps `I`, and does to the state what
`y` does to its image under `abs`. The relation is kept by everything that programs are made of.
-/

variable {σ τ α β : Type}

/-! ### Loops -/

/-- `do … while`, whose body returns whether to go on. -/
def doWhile (body : α → StateT σ Option (α × Bool)) : ℕ → α → StateT σ Option α
  | 0, _ => failure
  | n + 1, a => do
    let r ← body a
    if r.2 then doWhile body n r.1 else pure r.1

/-- `while`, whose test is a program. -/
def whileFuel (test : StateT σ Option Bool) (body : α → StateT σ Option α) :
    ℕ → α → StateT σ Option α
  | 0, _ => failure
  | n + 1, a => do
    let go ← test
    if go then body a >>= whileFuel test body n else pure a

/-! ### Total correctness -/

/-- From this state the program does not fail, and ends in `Q`. -/
def Terminates (x : StateT σ Option α) (s : σ) (Q : α → σ → Prop) : Prop :=
  ∃ a s', x s = some (a, s') ∧ Q a s'

namespace Terminates

variable {s : σ} {Q : α → σ → Prop} {R : β → σ → Prop}

theorem pure {a : α} (h : Q a s) : Terminates (Pure.pure a) s Q :=
  ⟨a, s, rfl, h⟩

theorem bind {x : StateT σ Option α} {f : α → StateT σ Option β} (hx : Terminates x s Q)
    (hf : ∀ a s', Q a s' → Terminates (f a) s' R) : Terminates (x >>= f) s R := by
  obtain ⟨a, s', hs', hQ⟩ := hx
  obtain ⟨b, s'', hs'', hR⟩ := hf a s' hQ
  refine ⟨b, s'', ?_, hR⟩
  show (x s >>= fun r ↦ f r.1 r.2) = _
  rw [hs']
  exact hs''

/-- What is known in the end may be less. -/
theorem imp {Q' : α → σ → Prop} {x : StateT σ Option α} (h : Terminates x s Q)
    (hQ : ∀ a s', Q a s' → Q' a s') : Terminates x s Q' := by
  obtain ⟨a, s', hs', h⟩ := h
  exact ⟨a, s', hs', hQ a s' h⟩

/-- The rule for `do … while`: every turn that goes on keeps `J` and makes the measure smaller. -/
theorem doWhile {body : α → StateT σ Option (α × Bool)} {J : α → σ → Prop} {m : α → σ → ℕ}
    (hbody : ∀ a s, J a s → Terminates (body a) s fun r s' ↦
      if r.2 then J r.1 s' ∧ m r.1 s' < m a s else Q r.1 s')
    {n : ℕ} {a : α} (hJ : J a s) (hn : m a s < n) : Terminates (doWhile body n a) s Q := by
  induction n generalizing a s with
  | zero => exact absurd hn (Nat.not_lt_zero _)
  | succ n ih =>
    refine (hbody a s hJ).bind fun r s' hr ↦ ?_
    cases hgo : r.2 with
    | true =>
      rw [hgo, if_pos rfl] at hr
      rw [if_pos rfl]
      exact ih hr.1 (by omega)
    | false =>
      rw [hgo, if_neg Bool.false_ne_true] at hr
      rw [if_neg Bool.false_ne_true]
      exact .pure hr

end Terminates

/-! ### Simulation -/

/-- From a state in `I` the program does not fail, keeps `I`, and does what `y` does. -/
def Simulates (I : σ → Prop) (abs : σ → τ) (x : StateT σ Option α) (y : StateM τ α) : Prop :=
  ∀ s, I s → Terminates x s fun a s' ↦ I s' ∧ y (abs s) = (a, abs s')

namespace Simulates

variable {I : σ → Prop} {abs : σ → τ}

theorem pure (a : α) : Simulates I abs (Pure.pure a) (Pure.pure a) :=
  fun _ hs ↦ .pure ⟨hs, rfl⟩

theorem bind {x : StateT σ Option α} {y : StateM τ α} {f : α → StateT σ Option β}
    {g : α → StateM τ β} (hx : Simulates I abs x y) (hf : ∀ a, Simulates I abs (f a) (g a)) :
    Simulates I abs (x >>= f) (y >>= g) := by
  intro s hs
  refine (hx s hs).bind fun a s' h ↦ (hf a s' h.1).imp fun b s'' h' ↦ ⟨h'.1, ?_⟩
  show g (y (abs s)).1 (y (abs s)).2 = _
  rw [h.2]
  exact h'.2

theorem map {x : StateT σ Option α} {y : StateM τ α} (f : α → β) (hx : Simulates I abs x y) :
    Simulates I abs (f <$> x) (f <$> y) := by
  rw [map_eq_pure_bind, map_eq_pure_bind]
  exact hx.bind fun a ↦ .pure (f a)

theorem ite {p : Prop} [Decidable p] {x x' : StateT σ Option α} {y y' : StateM τ α}
    (hx : Simulates I abs x y) (hx' : Simulates I abs x' y') :
    Simulates I abs (if p then x else x') (if p then y else y') := by
  split
  · exact hx
  · exact hx'

/-- A search: every turn that goes on comes nearer to the end of what `y` does at once. -/
theorem doWhile {body : α → StateT σ Option (α × Bool)} {y : StateM τ α} {m : τ → ℕ}
    (hbody : ∀ a s, I s → Terminates (body a) s fun r s' ↦ I s' ∧
      if r.2 then y (abs s') = y (abs s) ∧ m (abs s') < m (abs s)
      else y (abs s) = (r.1, abs s'))
    {n : ℕ} (hn : ∀ s, I s → m (abs s) < n) (a : α) :
    Simulates I abs (doWhile body n a) y := by
  intro s hs
  refine Terminates.doWhile (J := fun _ s' ↦ I s' ∧ y (abs s) = y (abs s'))
    (m := fun _ s' ↦ m (abs s')) (fun b s' hJ ↦ ?_) ⟨hs, rfl⟩ (hn s hs)
  refine (hbody b s' hJ.1).imp fun r s'' hr ↦ ?_
  cases hgo : r.2 with
  | true =>
    rw [hgo, if_pos rfl] at hr
    rw [if_pos rfl]
    exact ⟨⟨hr.1, hJ.2.trans hr.2.1.symm⟩, hr.2.2⟩
  | false =>
    rw [hgo, if_neg Bool.false_ne_true] at hr
    rw [if_neg Bool.false_ne_true]
    exact ⟨hr.1, hJ.2.trans hr.2⟩

/-- A loop with enough fuel for the measure of the other one. -/
theorem whileLoop {test : StateT σ Option Bool} {body : α → StateT σ Option α} {size : τ → ℕ}
    {test' : τ → Bool} {body' : α → StateM τ α} (hshrinks : Shrinks size test' body')
    (htest : Simulates I abs test fun t ↦ (test' t, t))
    (hbody : ∀ a, Simulates I abs (body a) (body' a)) {n : ℕ} (hn : ∀ s, I s → size (abs s) < n)
    (a : α) : Simulates I abs (whileFuel test body n a) (whileDo size test' body' a) := by
  suffices h : ∀ s, I s → size (abs s) < n → Terminates (whileFuel test body n a) s
      fun b s' ↦ I s' ∧ whileDo size test' body' a (abs s) = (b, abs s') from
    fun s hs ↦ h s hs (hn s hs)
  clear hn
  induction n generalizing a with
  | zero => exact fun s _ hn ↦ absurd hn (Nat.not_lt_zero _)
  | succ n ih =>
    intro s hs hn
    refine (htest s hs).bind fun go s' h ↦ ?_
    obtain ⟨hs', heq⟩ := h
    obtain ⟨rfl, habs⟩ := Prod.mk.inj heq
    cases hgo : test' (abs s) with
    | false =>
      rw [if_neg Bool.false_ne_true]
      exact .pure ⟨hs', by rw [hshrinks.whileDo_of_false hgo, habs]⟩
    | true =>
      rw [if_pos rfl]
      refine (hbody a s' hs').bind fun b s'' h' ↦ ?_
      -- the turn makes the measure smaller, and the fuel lasts for the rest
      have hless := hshrinks a (abs s') (habs ▸ hgo)
      rw [h'.2, ← habs] at hless
      have hfuel : size (abs s'') < n := Nat.lt_of_lt_of_le hless (Nat.le_of_lt_succ hn)
      refine (ih b s'' h'.1 hfuel).imp fun c s₃ hc ↦ ⟨hc.1, ?_⟩
      rw [hshrinks.whileDo_of_true hgo, habs]
      show whileDo size test' body' (body' a (abs s')).1 (body' a (abs s')).2 = _
      rw [h'.2]
      exact hc.2

end Simulates
