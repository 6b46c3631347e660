import Mathlib.Data.List.DropRight

/-!
# Histories

A history is a list of events, the latest one last. `Always P h` says of every event of the history
that it and what came before it are in the relation `P`; it grows with the history
(`Always.concat_iff`).

An event that satisfies `p` divides a history: `uptoLast p h` is what happened up to the last such
event and `sinceLast p h` what happened since.
-/

universe u

variable {α : Type u}

/-- Every event of the history is in the relation `P` with the events before it. -/
def Always (P : List α → α → Prop) (h : List α) : Prop :=
  ∀ done e, done ++ [e] <+: h → P done e

namespace Always

theorem nil (P : List α → α → Prop) : Always P [] := by
  intro done e hpre
  have hnil := List.prefix_nil.1 hpre
  exact absurd hnil (by simp)

@[simp]
theorem concat_iff {P : List α → α → Prop} {h : List α} {e : α} :
    Always P (h ++ [e]) ↔ Always P h ∧ P h e := by
  refine ⟨fun hP ↦ ⟨fun done e' hpre ↦ ?_, hP h e (List.prefix_refl _)⟩,
    fun hP done e' hpre ↦ ?_⟩
  · exact hP done e' (hpre.trans (List.prefix_append _ _))
  · rcases List.prefix_concat_iff.1 hpre with heq | hpre
    · obtain ⟨rfl, hlast⟩ := List.append_inj' heq rfl
      obtain rfl := List.singleton_inj.1 hlast
      exact hP.2
    · exact hP.1 done e' hpre

/-- What held all along held along a part of the history. -/
theorem initial {P : List α → α → Prop} {h h' : List α} (hP : Always P h') (hh : h <+: h') :
    Always P h :=
  fun done e hpre ↦ hP done e (hpre.trans hh)

/-- An event of the history and what was before it. -/
theorem of_mem {P : List α → α → Prop} {h : List α} (hP : Always P h) {e : α} (he : e ∈ h) :
    ∃ done rest, h = done ++ e :: rest ∧ P done e := by
  obtain ⟨done, rest, rfl⟩ := List.append_of_mem he
  exact ⟨done, rest, rfl, hP done e ⟨rest, by simp⟩⟩

end Always

variable (p : α → Bool) (h : List α)

/-- The events since the last one that satisfies `p`. -/
def sinceLast : List α :=
  h.rtakeWhile fun e ↦ !p e

/-- The events up to the last one that satisfies `p`. -/
def uptoLast : List α :=
  h.rdropWhile fun e ↦ !p e

theorem uptoLast_append_sinceLast : uptoLast p h ++ sinceLast p h = h :=
  List.rdropWhile_append_rtakeWhile

theorem sinceLast_concat (e : α) :
    sinceLast p (h ++ [e]) = if p e then [] else sinceLast p h ++ [e] := by
  rw [sinceLast, List.rtakeWhile_concat]
  cases p e <;> rfl

theorem uptoLast_concat (e : α) :
    uptoLast p (h ++ [e]) = if p e then h ++ [e] else uptoLast p h := by
  rw [uptoLast, List.rdropWhile_concat]
  cases p e <;> rfl
