import Mathlib.Data.Nat.Notation
import Mathlib.Order.Defs.Unbundled

/-!
# Programs with a state

Ways to say what a program in `StateM σ` does. `Along R x` bounds it: whatever state it starts
in, it ends in one that `R` relates to it. With a preorder for `R` this composes, so a bound on the
primitive operations is one on every program made of them.

`Yields x s a s'` follows it: from `s` it returns `a` and leaves `s'`. This is how a program that
reads something is compared with the one that has written it. `Leads P x a Q` does the same where
only something about the states is known.

`whileDo` is the loop, with a measure of the state that tells how often it can turn. If the body
makes the measure smaller, it is the loop without a bound (`Shrinks.whileDo_of_true`).
-/

universe u v

variable {σ : Type u} {α β : Type u}

/-- Wherever the program starts, it ends further along `R`. -/
def Along (R : σ → σ → Prop) (x : StateM σ α) : Prop :=
  ∀ s, R s (x s).2

namespace Along

variable {R : σ → σ → Prop}

theorem pure [Std.Refl R] (a : α) : Along R (Pure.pure a : StateM σ α) :=
  fun s ↦ Std.Refl.refl s

theorem bind [IsTrans σ R] {x : StateM σ α} {f : α → StateM σ β} (hx : Along R x)
    (hf : ∀ a, Along R (f a)) : Along R (x >>= f) :=
  fun s ↦ IsTrans.trans _ _ _ (hx s) (hf (x s).1 (x s).2)

theorem map {x : StateM σ α} (hx : Along R x) (f : α → β) :
    Along R (f <$> x) :=
  fun s ↦ hx s

theorem ite {p : Prop} [Decidable p] {x y : StateM σ α} (hx : Along R x) (hy : Along R y) :
    Along R (if p then x else y) := by
  split
  · exact hx
  · exact hy

end Along

/-- From the first state the program returns the value and leaves the second state. -/
def Yields (x : StateM σ α) (s : σ) (a : α) (s' : σ) : Prop :=
  x s = (a, s')

namespace Yields

theorem pure (a : α) (s : σ) : Yields (Pure.pure a : StateM σ α) s a s :=
  rfl

theorem bind {x : StateM σ α} {f : α → StateM σ β} {s t r : σ} {a : α} {b : β}
    (hx : Yields x s a t) (hf : Yields (f a) t b r) : Yields (x >>= f) s b r := by
  show (f (x s).1) (x s).2 = (b, r)
  rw [hx]
  exact hf

theorem map {x : StateM σ α} {s s' : σ} {a : α} (f : α → β) (hx : Yields x s a s') :
    Yields (f <$> x) s (f a) s' := by
  show (f (x s).1, (x s).2) = (f a, s')
  rw [hx]

theorem if_pos {p : Prop} [Decidable p] {x y : StateM σ α} {s s' : σ} {a : α} (hp : p)
    (hx : Yields x s a s') : Yields (if p then x else y) s a s' := by
  rwa [ite_cond_eq_true _ _ (eq_true hp)]

theorem if_neg {p : Prop} [Decidable p] {x y : StateM σ α} {s s' : σ} {a : α} (hp : ¬p)
    (hy : Yields y s a s') : Yields (if p then x else y) s a s' := by
  rwa [ite_cond_eq_false _ _ (eq_false hp)]

theorem unique {x : StateM σ α} {s s' s'' : σ} {a b : α} (h : Yields x s a s')
    (h' : Yields x s b s'') : a = b ∧ s' = s'' :=
  Prod.mk.inj (h.symm.trans h')

end Yields

/-- From every state in `P` the program returns the value and leaves a state in `Q`. -/
def Leads (P : σ → Prop) (x : StateM σ α) (a : α) (Q : σ → Prop) : Prop :=
  ∀ s, P s → ∃ s', Yields x s a s' ∧ Q s'

namespace Leads

variable {P Q R : σ → Prop}

theorem pure (a : α) : Leads P (Pure.pure a) a P :=
  fun s hs ↦ ⟨s, .pure a s, hs⟩

theorem bind {x : StateM σ α} {f : α → StateM σ β} {a : α} {b : β} (hx : Leads P x a Q)
    (hf : Leads Q (f a) b R) : Leads P (x >>= f) b R := by
  intro s hs
  obtain ⟨s', hs', hq⟩ := hx s hs
  obtain ⟨s'', hs'', hr⟩ := hf s' hq
  exact ⟨s'', hs'.bind hs'', hr⟩

theorem map {x : StateM σ α} {a : α} (f : α → β) (hx : Leads P x a Q) :
    Leads P (f <$> x) (f a) Q := by
  intro s hs
  obtain ⟨s', hs', hq⟩ := hx s hs
  exact ⟨s', hs'.map f, hq⟩

theorem if_pos {p : Prop} [Decidable p] {x y : StateM σ α} {a : α} (hp : p)
    (hx : Leads P x a Q) : Leads P (if p then x else y) a Q :=
  fun s hs ↦ (hx s hs).imp fun _ h ↦ ⟨.if_pos hp h.1, h.2⟩

theorem if_neg {p : Prop} [Decidable p] {x y : StateM σ α} {a : α} (hp : ¬p)
    (hy : Leads P y a Q) : Leads P (if p then x else y) a Q :=
  fun s hs ↦ (hy s hs).imp fun _ h ↦ ⟨.if_neg hp h.1, h.2⟩

end Leads

/-- Wherever the program starts, it returns a value in `Q`. -/
def Returns (x : StateM σ α) (Q : α → Prop) : Prop :=
  ∀ s, Q (x s).1

namespace Returns

variable {P : α → Prop} {Q : β → Prop}

theorem pure {a : α} (ha : P a) : Returns (Pure.pure a : StateM σ α) P :=
  fun _ ↦ ha

theorem bind {x : StateM σ α} {f : α → StateM σ β} (hx : Returns x P)
    (hf : ∀ a, P a → Returns (f a) Q) : Returns (x >>= f) Q :=
  fun s ↦ hf (x s).1 (hx s) (x s).2

/-- Nothing need be known of a value that goes into nothing. -/
theorem bind' {x : StateM σ α} {f : α → StateM σ β} (hf : ∀ a, Returns (f a) Q) :
    Returns (x >>= f) Q :=
  fun s ↦ hf (x s).1 (x s).2

theorem map {x : StateM σ α} {f : α → β} (hx : Returns x fun a ↦ Q (f a)) :
    Returns (f <$> x) Q :=
  hx

end Returns

/-! ### Loops -/

/-- `n` turns of `while (test) body` at most; the value is what the loop accumulates. -/
def whileFor (test : σ → Bool) (body : α → StateM σ α) : ℕ → α → StateM σ α
  | 0, a => pure a
  | n + 1, a => fun s ↦ if test s then (body a >>= whileFor test body n) s else (a, s)

/-- `while (test) body`, with as many turns as the measure of the state allows. -/
def whileDo (size : σ → ℕ) (test : σ → Bool) (body : α → StateM σ α) (a : α) : StateM σ α :=
  fun s ↦ whileFor test body (size s) a s

/-- Every turn of the loop makes the state smaller. -/
def Shrinks (size : σ → ℕ) (test : σ → Bool) (body : α → StateM σ α) : Prop :=
  ∀ a s, test s = true → size (body a s).2 < size s

section Loops

variable {size : σ → ℕ} {test : σ → Bool} {body : α → StateM σ α}

/-- One turn, if the test still holds. -/
theorem whileFor_succ (n : ℕ) (a : α) (s : σ) :
    whileFor test body (n + 1) a s =
      if test s then (body a >>= whileFor test body n) s else (a, s) :=
  rfl

/-- More turns than the measure allows change nothing. -/
theorem Shrinks.whileFor_eq (h : Shrinks size test body) {n : ℕ} {a : α} {s : σ}
    (hn : size s ≤ n) : whileFor test body n a s = whileDo size test body a s := by
  unfold whileDo
  induction n using Nat.strongRecOn generalizing a s with
  | ind n ih =>
    obtain heq | hlt := Nat.eq_or_lt_of_le hn
    · rw [heq]
    · obtain ⟨n, rfl⟩ := Nat.exists_eq_succ_of_ne_zero (Nat.ne_of_gt (Nat.zero_lt_of_lt hlt))
      by_cases ht : test s = true
      · have hsmall := h a s ht
        obtain ⟨m, hm⟩ := Nat.exists_eq_succ_of_ne_zero (Nat.ne_of_gt (Nat.zero_lt_of_lt hsmall))
        rw [hm, whileFor_succ, whileFor_succ, if_pos ht, if_pos ht]
        -- one turn is the same in both, and what it leaves is smaller than either bound
        show whileFor test body n _ _ = whileFor test body m _ _
        rw [ih n (Nat.lt_succ_self n) (by omega), ih m (by omega) (by omega)]
      · rw [whileFor_succ, if_neg ht]
        cases size s with
        | zero => rfl
        | succ m => rw [whileFor_succ, if_neg ht]

/-- The loop ends. -/
theorem Shrinks.whileDo_of_false (h : Shrinks size test body) {s : σ} (ht : test s = false)
    (a : α) : whileDo size test body a s = (a, s) := by
  rw [← h.whileFor_eq (Nat.le_succ (size s)), whileFor_succ, ht, if_neg Bool.false_ne_true]

/-- The loop turns once and goes on. -/
theorem Shrinks.whileDo_of_true (h : Shrinks size test body) {s : σ} (ht : test s = true)
    (a : α) : whileDo size test body a s = (body a >>= whileDo size test body) s := by
  rw [← h.whileFor_eq (Nat.le_succ (size s)), whileFor_succ, if_pos ht]
  exact h.whileFor_eq (Nat.le_of_lt (h a s ht))

/-- A loop is bounded by what bounds its turns. -/
theorem Along.whileDo {R : σ → σ → Prop} [Std.Refl R] [IsTrans σ R] (hbody : ∀ a, Along R (body a))
    (a : α) : Along R (whileDo size test body a) := by
  have hfor (n : ℕ) : ∀ a, Along R (whileFor test body n a) := by
    induction n with
    | zero => exact fun a ↦ .pure a
    | succ n ih =>
      intro a s
      rw [whileFor_succ]
      split
      · exact (hbody a).bind ih s
      · exact Std.Refl.refl s
  exact fun s ↦ hfor (size s) a s

/-- What every turn keeps of the value holds of it in the end. -/
theorem Returns.whileDo {P : α → Prop} (hbody : ∀ a, P a → Returns (body a) P) {a : α} (ha : P a) :
    Returns (whileDo size test body a) P := by
  have hfor (n : ℕ) : ∀ a, P a → Returns (whileFor test body n a) P := by
    induction n with
    | zero => exact fun a ↦ .pure
    | succ n ih =>
      intro a ha s
      rw [whileFor_succ]
      split
      · exact (hbody a ha).bind ih s
      · exact ha
  exact fun s ↦ hfor (size s) a ha s

/-- A loop commutes with a map of the value that intertwines its turns. -/
theorem whileDo_map {f : α → β} {body' : β → StateM σ β} (h : ∀ a, body' (f a) = f <$> body a)
    (a : α) : whileDo size test body' (f a) = f <$> whileDo size test body a := by
  have hfor (n : ℕ) : ∀ a, whileFor test body' n (f a) = f <$> whileFor test body n a := by
    induction n with
    | zero => exact fun a ↦ rfl
    | succ n ih =>
      intro a
      funext s
      show (if test s then (body' (f a) >>= whileFor test body' n) s else (f a, s)) =
        ((fun r ↦ (f r.1, r.2)) (whileFor test body (n + 1) a s))
      rw [whileFor_succ, h]
      split
      · exact congrFun (ih (body a s).1) (body a s).2
      · rfl
  exact funext fun s ↦ congrFun (hfor (size s) a) s

namespace Leads

variable {P Q R : σ → Prop}

/-- A loop that ends at once. -/
theorem whileDo_done (h : Shrinks size test body) (a : α) (hP : ∀ s, P s → test s = false) :
    Leads P (whileDo size test body a) a P :=
  fun s hs ↦ ⟨s, h.whileDo_of_false (hP s hs) a, hs⟩

/-- A loop that turns once, and what follows. -/
theorem whileDo_next (h : Shrinks size test body) {a a' b : α} (hP : ∀ s, P s → test s = true)
    (hbody : Leads P (body a) a' Q) (hrest : Leads Q (whileDo size test body a') b R) :
    Leads P (whileDo size test body a) b R := by
  intro s hs
  obtain ⟨s', hs', hr⟩ := (hbody.bind hrest) s hs
  exact ⟨s', (h.whileDo_of_true (hP s hs) a).trans hs', hr⟩

end Leads

end Loops
