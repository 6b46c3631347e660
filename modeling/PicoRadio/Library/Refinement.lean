import PicoRadio.Library.Ends

/-!
# Implementations that agree with a specification

An implementation takes fallible steps and a specification total ones; both answer every action.
`Agrees` says of a run that the two give the same answers throughout, and that what can be seen of
their states is the same before and after every step. The rule `agrees_iff` finds out when that is
so: given a relation that the steps keep under a guard, and that is left for good without it, the
two agree on exactly the runs that meet the guard. The guard speaks of the specification only, so it
can be read off the run itself.
-/

universe u v w

variable {ε : Type u} {σ ρ : Type v} {τ Act : Type w} (step : σ → Act → Except ε (σ × ρ))
  (spec : τ → Act → τ × ρ)

/-- Along the run the answers are those of the specification, and `O` relates the states. -/
def Agrees (O : σ → τ → Prop) : σ → τ → List Act → Prop
  | s, t, [] => O s t
  | s, t, a :: as => O s t ∧
      ∃ r, step s a = .ok r ∧ r.2 = (spec t a).2 ∧ Agrees O r.1 (spec t a).1 as

/-- Every action meets the guard in the state of the specification in which it is taken. -/
def Meets (G : τ → Act → Prop) : τ → List Act → Prop
  | _, [] => True
  | t, a :: as => G t a ∧ Meets G (spec t a).1 as

variable {step spec} {O R : σ → τ → Prop} {G : τ → Act → Prop} {s : σ} {t : τ}

theorem Agrees.observed {as : List Act} (h : Agrees step spec O s t as) : O s t := by
  cases as with
  | nil => exact h
  | cons a as => exact h.1

/-- The rule for guarded agreement. -/
theorem agrees_iff (hobserved : ∀ s t, R s t → O s t)
    (hstep : ∀ s t a, R s t → G t a → Ends (step s a)
      (fun r ↦ r.2 = (spec t a).2 ∧ R r.1 (spec t a).1) fun _ ↦ False)
    (hleft : ∀ s t a, R s t → ¬G t a → Ends (step s a)
      (fun r ↦ ¬O r.1 (spec t a).1) fun _ ↦ True)
    (h : R s t) (as : List Act) : Agrees step spec O s t as ↔ Meets spec G t as := by
  induction as generalizing s t with
  | nil => exact iff_of_true (hobserved s t h) trivial
  | cons a as ih =>
    constructor
    · rintro ⟨-, r, hr, -, hrest⟩
      have hG : G t a := by
        by_contra hG
        exact (hleft s t a h hG).of_ok hr hrest.observed
      exact ⟨hG, (ih ((hstep s t a h hG).of_ok hr).2).mp hrest⟩
    · rintro ⟨hG, hrest⟩
      have hends := hstep s t a h hG
      cases hx : step s a with
      | error e => exact (hends.of_error hx).elim
      | ok r =>
        obtain ⟨hanswer, hR⟩ := hends.of_ok hx
        exact ⟨hobserved s t h, r, hx, hanswer, (ih hR).mpr hrest⟩
