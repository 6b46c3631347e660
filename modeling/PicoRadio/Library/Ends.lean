import Mathlib.Data.List.Basic
import Mathlib.Data.List.Nodup

/-!
# Outcomes of fallible programs

A pre/postcondition calculus for programs in `Except ε`. `Ends x Q E` says how `x` may end: in a
value satisfying `Q`, or in an error satisfying `E`. Taking `E := fun _ ↦ True` is partial
correctness, `E := fun _ ↦ False` total correctness; everything between says which errors a
program can still end in, which is what an assertion-freedom argument needs.

The rules are the usual ones: return, error, sequencing (`Ends.bind`), consequence (`Ends.mono`),
and one invariant rule for each shape of loop: `List.foldlM`, and `foldUntil`, which stops as soon
as its body answers `false`.

The last section is about **guarded runs**: a run folds a fallible step over a list of actions, and
`Guarded G` says that every action of the run meets `G` in the state it is taken in. An invariant
kept by every guarded step holds after every guarded run (`Guarded.run_ends`).
-/

universe u v w

variable {ε : Type u} {α β : Type v}

/-- The program ends in a value satisfying `Q` or in an error satisfying `E`. -/
def Ends (x : Except ε α) (Q : α → Prop) (E : ε → Prop) : Prop :=
  match x with
  | .ok a => Q a
  | .error e => E e

instance {x : Except ε α} {Q : α → Prop} {E : ε → Prop} [DecidablePred Q] [DecidablePred E] :
    Decidable (Ends x Q E) :=
  match x with
  | .ok a => inferInstanceAs (Decidable (Q a))
  | .error e => inferInstanceAs (Decidable (E e))

/-- A value is handed on. -/
theorem ok_bind (a : α) (f : α → Except ε β) : (Except.ok a >>= f) = f a :=
  rfl

namespace Ends

@[simp]
theorem ok_iff {a : α} {Q : α → Prop} {E : ε → Prop} : Ends (.ok a) Q E ↔ Q a :=
  Iff.rfl

@[simp]
theorem pure_iff {a : α} {Q : α → Prop} {E : ε → Prop} :
    Ends (pure a : Except ε α) Q E ↔ Q a :=
  Iff.rfl

@[simp]
theorem error_iff {e : ε} {Q : α → Prop} {E : ε → Prop} : Ends (.error e) Q E ↔ E e :=
  Iff.rfl

/-- The two halves of an outcome, read off the program's result. -/
theorem iff_forall {x : Except ε α} {Q : α → Prop} {E : ε → Prop} :
    Ends x Q E ↔ (∀ a, x = .ok a → Q a) ∧ ∀ e, x = .error e → E e := by
  cases x <;> simp

theorem of_ok {x : Except ε α} {Q : α → Prop} {E : ε → Prop} (h : Ends x Q E) {a : α}
    (hx : x = .ok a) : Q a :=
  (iff_forall.1 h).1 a hx

theorem of_error {x : Except ε α} {Q : α → Prop} {E : ε → Prop} (h : Ends x Q E) {e : ε}
    (hx : x = .error e) : E e :=
  (iff_forall.1 h).2 e hx

/-- Total correctness gives a value. -/
theorem exists_ok {x : Except ε α} {Q : α → Prop} (h : Ends x Q fun _ ↦ False) :
    ∃ a, x = .ok a ∧ Q a := by
  cases x with
  | ok a => exact ⟨a, rfl, h⟩
  | error e => exact h.elim

/-- A specification that every outcome meets. -/
theorem of_forall {x : Except ε α} {Q : α → Prop} {E : ε → Prop} (hQ : ∀ a, Q a)
    (hE : ∀ e, E e) : Ends x Q E :=
  iff_forall.2 ⟨fun a _ ↦ hQ a, fun e _ ↦ hE e⟩

/-- A program that can only end in one value ends in it. -/
theorem eq_ok {x : Except ε α} {a : α} (h : Ends x (· = a) fun _ ↦ False) : x = .ok a := by
  cases x with
  | ok b => exact congrArg Except.ok h
  | error e => exact h.elim

/-- Consequence. -/
theorem mono {x : Except ε α} {Q R : α → Prop} {E F : ε → Prop} (h : Ends x Q E)
    (hQ : ∀ a, Q a → R a) (hE : ∀ e, E e → F e) : Ends x R F := by
  cases x with
  | ok a => exact hQ a h
  | error e => exact hE e h

/-- Consequence in the value only. -/
theorem imp {x : Except ε α} {Q R : α → Prop} {E : ε → Prop} (h : Ends x Q E)
    (hQ : ∀ a, Q a → R a) : Ends x R E :=
  h.mono hQ fun _ ↦ id

/-- Two specifications of one program hold together. -/
theorem and {x : Except ε α} {Q R : α → Prop} {E F : ε → Prop} (h : Ends x Q E)
    (h' : Ends x R F) : Ends x (fun a ↦ Q a ∧ R a) fun e ↦ E e ∧ F e := by
  cases x with
  | ok a => exact ⟨h, h'⟩
  | error e => exact ⟨h, h'⟩

/-- No program meets two specifications that exclude each other. -/
theorem incompatible {x : Except ε α} {Q R : α → Prop} {E F : ε → Prop} (h : Ends x Q E)
    (h' : Ends x R F) (hQ : ∀ a, Q a → ¬R a) (hE : ∀ e, E e → ¬F e) : False := by
  cases x with
  | ok a => exact hQ a h h'
  | error e => exact hE e h h'

/-- Sequencing. -/
theorem bind {x : Except ε α} {f : α → Except ε β} {Q : α → Prop} {R : β → Prop} {E : ε → Prop}
    (h : Ends x Q E) (hf : ∀ a, Q a → Ends (f a) R E) : Ends (x >>= f) R E := by
  cases x with
  | ok a => exact hf a h
  | error e => exact h

/-- What follows says all there is to say, whatever the program before it does. -/
theorem bind_any {x : Except ε α} {f : α → Except ε β} {R : β → Prop}
    (hf : ∀ a, Ends (f a) R fun _ ↦ True) : Ends (x >>= f) R fun _ ↦ True :=
  bind (of_forall (Q := fun _ ↦ True) (fun _ ↦ trivial) fun _ ↦ trivial) fun a _ ↦ hf a

/-- A function applied to the value. -/
theorem map {x : Except ε α} {f : α → β} {Q : β → Prop} {E : ε → Prop}
    (h : Ends x (fun a ↦ Q (f a)) E) : Ends (f <$> x) Q E := by
  cases x with
  | ok a => exact h
  | error e => exact h

/-- The invariant rule for a loop over a list. -/
theorem foldlM {σ : Type v} {γ : Type w} {I : σ → Prop} {E : ε → Prop}
    {f : σ → γ → Except ε σ} {l : List γ}
    (hf : ∀ b ∈ l, ∀ s, I s → Ends (f s b) I E) {s : σ} (hs : I s) :
    Ends (l.foldlM f s) I E := by
  induction l generalizing s with
  | nil => exact hs
  | cons b l ih =>
    rw [List.foldlM_cons]
    exact (hf b List.mem_cons_self s hs).bind fun s' hs' ↦
      ih (fun c hc ↦ hf c (List.mem_cons_of_mem b hc)) hs'

/-- The invariant rule when the invariant speaks of the part of the list already visited. -/
theorem foldlM_visited {σ : Type v} {γ : Type w} {I : List γ → σ → Prop} {E : ε → Prop}
    {f : σ → γ → Except ε σ} {l : List γ}
    (hf : ∀ done b rest, l = done ++ b :: rest → ∀ s, I done s →
      Ends (f s b) (I (done ++ [b])) E) {s : σ} (hs : I [] s) :
    Ends (l.foldlM f s) (I l) E := by
  suffices h : ∀ rest done s, l = done ++ rest → I done s → Ends (rest.foldlM f s) (I l) E from
    h l [] s rfl hs
  intro rest
  induction rest with
  | nil =>
    intro done s hl hI
    rw [hl, List.append_nil]
    exact hI
  | cons b rest ih =>
    intro done s hl hI
    rw [List.foldlM_cons]
    exact (hf done b rest hl s hI).bind fun s' hs' ↦
      ih (done ++ [b]) s' (by rw [hl, List.append_assoc]; rfl) hs'

/-- Two continuations that agree wherever the program can end. -/
theorem bind_congr {x : Except ε α} {f g : α → Except ε β} {Q : α → Prop} {E : ε → Prop}
    (h : Ends x Q E) (hfg : ∀ a, Q a → f a = g a) : x >>= f = x >>= g := by
  cases x with
  | ok a => exact hfg a h
  | error e => rfl

/-- Two continuations that agree on the value. -/
theorem bind_congr_ok {x : Except ε α} {f g : α → Except ε β} (hfg : ∀ a, x = .ok a → f a = g a) :
    x >>= f = x >>= g := by
  cases x with
  | ok a => exact hfg a rfl
  | error e => rfl

/-- A loop commutes with a map of states that intertwines its steps. -/
theorem foldlM_map_state {σ τ : Type v} {γ : Type w} (p : σ → τ) {f : σ → γ → Except ε σ}
    {g : τ → γ → Except ε τ} (hfg : ∀ s b, g (p s) b = p <$> f s b) (l : List γ) (s : σ) :
    l.foldlM g (p s) = p <$> l.foldlM f s := by
  induction l generalizing s with
  | nil => rfl
  | cons b l ih =>
    rw [List.foldlM_cons, List.foldlM_cons, hfg, map_bind]
    cases f s b with
    | ok s' => exact ih s'
    | error e => rfl

end Ends

/-! ### Loops that may stop early -/

/-- A loop over a list whose body also answers whether to go on. The answer of the loop is `false`
exactly when some body answered `false`, and nothing after that body runs. -/
def foldUntil {σ : Type v} {γ : Type w} (f : σ → γ → Except ε (σ × Bool)) :
    σ → List γ → Except ε (σ × Bool)
  | s, [] => .ok (s, true)
  | s, b :: l => f s b >>= fun r ↦ if r.2 then foldUntil f r.1 l else .ok (r.1, false)

/-- The loop over the rest of the list runs if the loop over its beginning was not stopped. -/
theorem foldUntil_append {σ : Type v} {γ : Type w} (f : σ → γ → Except ε (σ × Bool)) (s : σ)
    (l l' : List γ) : foldUntil f s (l ++ l') =
      foldUntil f s l >>= fun r ↦ if r.2 then foldUntil f r.1 l' else .ok (r.1, false) := by
  induction l generalizing s with
  | nil => rfl
  | cons b l ih =>
    rw [List.cons_append, foldUntil, foldUntil, bind_assoc]
    refine Ends.bind_congr_ok fun r _ ↦ ?_
    split
    · exact ih r.1
    · rfl

/-- The invariant rule for a loop that may stop early. The invariant speaks of the part of the list
visited, which is all of it if the loop was not stopped. `A` is a condition under which no body
stops the loop. -/
theorem Ends.foldUntil_visited {σ : Type v} {γ : Type w} {I : List γ → σ → Prop} {A : Prop}
    {E : ε → Prop} {f : σ → γ → Except ε (σ × Bool)} {l : List γ}
    (hf : ∀ done b rest, l = done ++ b :: rest → ∀ s, I done s →
      Ends (f s b) (fun r ↦ I (done ++ [b]) r.1 ∧ (A → r.2 = true)) E) {s : σ} (hs : I [] s) :
    Ends (foldUntil f s l)
      (fun r ↦ (∃ done, I done r.1 ∧ (r.2 = true → done = l)) ∧ (A → r.2 = true)) E := by
  suffices h : ∀ rest done s, l = done ++ rest → I done s → Ends (foldUntil f s rest)
      (fun r ↦ (∃ done, I done r.1 ∧ (r.2 = true → done = l)) ∧ (A → r.2 = true)) E from
    h l [] s rfl hs
  intro rest
  induction rest with
  | nil =>
    intro done s hl hI
    rw [List.append_nil] at hl
    exact ⟨⟨done, hI, fun _ ↦ hl.symm⟩, fun _ ↦ rfl⟩
  | cons b rest ih =>
    intro done s hl hI
    refine (hf done b rest hl s hI).bind fun r hr ↦ ?_
    split
    · exact ih (done ++ [b]) r.1 (by rw [hl, List.append_assoc]; rfl) hr.1
    · next hstop =>
      exact ⟨⟨done ++ [b], hr.1, fun h ↦ by cases h⟩, fun hA ↦ absurd (hr.2 hA) hstop⟩

/-! ### Guarded runs -/

section Run

variable {σ : Type v} {Act : Type w} {step : σ → Act → Except ε σ}

/-- Every action of the run meets the guard in the state it is taken in. -/
def Guarded (step : σ → Act → Except ε σ) (G : σ → Act → Prop) : σ → List Act → Prop
  | _, [] => True
  | s, a :: as => G s a ∧ ∀ s', step s a = .ok s' → Guarded step G s' as

/-- An invariant that every guarded step keeps holds after every guarded run. -/
theorem Guarded.run_ends {G : σ → Act → Prop} {I : σ → Prop} {E : ε → Prop}
    (hstep : ∀ s a, I s → G s a → Ends (step s a) I E) {s : σ} {as : List Act}
    (hs : I s) (hg : Guarded step G s as) : Ends (as.foldlM step s) I E := by
  induction as generalizing s with
  | nil => exact hs
  | cons a as ih =>
    rw [List.foldlM_cons]
    have h := hstep s a hs hg.1
    cases hx : step s a with
    | ok s' => exact ih (h.of_ok hx) (hg.2 s' hx)
    | error e => exact h.of_error hx

/-- If the guard says exactly when a step keeps the invariant, then a run is guarded exactly if the
invariant holds after every part of it. -/
theorem Guarded.iff_forall_take {G : σ → Act → Prop} {I : σ → Prop}
    (hstep : ∀ s a, I s → (G s a ↔ Ends (step s a) I fun _ ↦ True)) {s : σ} {as : List Act}
    (hs : I s) :
    Guarded step G s as ↔ ∀ n, Ends ((as.take n).foldlM step s) I fun _ ↦ True := by
  induction as generalizing s with
  | nil => simpa [Guarded] using hs
  | cons a as ih =>
    constructor
    · rintro ⟨hG, hrest⟩ n
      cases n with
      | zero => exact hs
      | succ n =>
        rw [List.take_succ_cons, List.foldlM_cons]
        have h := (hstep s a hs).1 hG
        cases hx : step s a with
        | ok s' => exact (ih (h.of_ok hx)).1 (hrest s' hx) n
        | error e => trivial
    · intro h
      have hG : Ends (step s a) I fun _ ↦ True := by
        have h := h 1
        rw [List.take_succ_cons, List.foldlM_cons] at h
        cases hx : step s a with
        | ok s' => rwa [hx] at h
        | error e => trivial
      refine ⟨(hstep s a hs).2 hG, fun s' hx ↦ (ih (hG.of_ok hx)).2 fun n ↦ ?_⟩
      have h := h (n + 1)
      rw [List.take_succ_cons, List.foldlM_cons, hx] at h
      exact h

/-- An invariant that every step keeps holds after every run. -/
theorem Ends.run {I : σ → Prop} {E : ε → Prop} (hstep : ∀ s a, I s → Ends (step s a) I E)
    {s : σ} (hs : I s) (as : List Act) : Ends (as.foldlM step s) I E :=
  Ends.foldlM (fun a _ s hs ↦ hstep s a hs) hs

/-- A guard that the actions of the run meet in every state. -/
theorem Guarded.of_forall_mem {G : σ → Act → Prop} {as : List Act}
    (h : ∀ a ∈ as, ∀ s, G s a) (s : σ) : Guarded step G s as := by
  induction as generalizing s with
  | nil => trivial
  | cons a as ih =>
    exact ⟨h a List.mem_cons_self s, fun s' _ ↦ ih (fun b hb ↦ h b (List.mem_cons_of_mem a hb)) s'⟩

/-- A guard that holds wherever an invariant does, which the actions of the run keep. -/
theorem Guarded.of_invariant {G : σ → Act → Prop} {I : σ → Prop} {as : List Act}
    (hG : ∀ a ∈ as, ∀ s, I s → G s a)
    (hstep : ∀ a ∈ as, ∀ s, I s → Ends (step s a) I fun _ ↦ True) {s : σ} (hs : I s) :
    Guarded step G s as := by
  induction as generalizing s with
  | nil => trivial
  | cons a as ih =>
    refine ⟨hG a List.mem_cons_self s hs, fun s' hs' ↦ ?_⟩
    exact ih (fun b hb ↦ hG b (List.mem_cons_of_mem a hb))
      (fun b hb ↦ hstep b (List.mem_cons_of_mem a hb))
      ((hstep a List.mem_cons_self s hs).of_ok hs')

/-- Two runs whose steps agree where the guard is met. -/
theorem Guarded.foldlM_congr {G : σ → Act → Prop} {step' : σ → Act → Except ε σ}
    (hstep : ∀ s a, G s a → step' s a = step s a) {s : σ} {as : List Act}
    (hg : Guarded step G s as) : as.foldlM step' s = as.foldlM step s := by
  induction as generalizing s with
  | nil => rfl
  | cons a as ih =>
    rw [List.foldlM_cons, List.foldlM_cons, hstep s a hg.1]
    exact Ends.bind_congr_ok fun s' hs' ↦ ih (hg.2 s' hs')

/-- A run that meets a guard meets every weaker one. -/
theorem Guarded.mono {G H : σ → Act → Prop} (hGH : ∀ s a, G s a → H s a) {s : σ}
    {as : List Act} (hg : Guarded step G s as) : Guarded step H s as := by
  induction as generalizing s with
  | nil => trivial
  | cons a as ih => exact ⟨hGH s a hg.1, fun s' hs' ↦ ih (hg.2 s' hs')⟩

end Run
