import Mathlib.Data.List.Flatten
import Mathlib.Tactic.Ring

/-!
# Taking a sequence in blocks

`absorb n f s l` feeds a sequence to `f`, `n` elements at a time, and gives back the state that this
ends in with the elements that do not make a block. What is left over waits for the elements that
come later: `absorb_append` says that it makes no difference where a sequence is divided.
-/

universe u v

variable {α : Type u} {σ : Type v} {n : ℕ}

/-- Feeds the whole blocks of a sequence to `f`. -/
def absorb (n : ℕ) (f : σ → List α → σ) (s : σ) (l : List α) : σ × List α :=
  if 0 < n ∧ n ≤ l.length then absorb n f (f s (l.take n)) (l.drop n) else (s, l)
termination_by l.length
decreasing_by
  rw [List.length_drop]
  omega

variable {f : σ → List α → σ} {s : σ} {l : List α}

/-- Less than a block waits. -/
theorem absorb_of_lt (h : l.length < n) : absorb n f s l = (s, l) := by
  rw [absorb, if_neg (by omega)]

/-- A block is fed. -/
theorem absorb_block {b : List α} (hn : 0 < n) (hb : b.length = n) (l : List α) :
    absorb n f s (b ++ l) = absorb n f (f s b) l := by
  have hle : n ≤ (b ++ l).length := by
    rw [List.length_append]
    omega
  rw [absorb, if_pos ⟨hn, hle⟩, List.take_left' hb, List.drop_left' hb]

/-- Sequences are taken apart block by block. -/
theorem block_induction {P : List α → Prop} (hn : 0 < n) (hshort : ∀ l, l.length < n → P l)
    (hblock : ∀ b l, b.length = n → P l → P (b ++ l)) (l : List α) : P l := by
  induction hk : l.length using Nat.strong_induction_on generalizing l with
  | _ k ih =>
    rcases Nat.lt_or_ge l.length n with hl | hl
    · exact hshort l hl
    · have hdrop : (l.drop n).length < k := by
        rw [List.length_drop]
        omega
      rw [← List.take_append_drop n l]
      exact hblock _ _ (List.length_take_of_le hl) (ih _ hdrop _ rfl)

/-- The rest of a sequence comes after what its beginning has left over. -/
theorem absorb_append (hn : 0 < n) (s : σ) (l l' : List α) :
    absorb n f s (l ++ l') = absorb n f (absorb n f s l).1 ((absorb n f s l).2 ++ l') := by
  induction l using block_induction hn generalizing s with
  | hshort l hl => rw [absorb_of_lt hl]
  | hblock b l hb ih => rw [List.append_assoc, absorb_block hn hb, absorb_block hn hb, ih]

/-- A view of the state that the blocks respect. -/
theorem absorb_map {τ : Type*} {g : σ → τ} {f' : τ → List α → τ} (hn : 0 < n)
    (hf : ∀ s b, b.length = n → f' (g s) b = g (f s b)) (s : σ) (l : List α) :
    absorb n f' (g s) l = (g (absorb n f s l).1, (absorb n f s l).2) := by
  induction l using block_induction hn generalizing s with
  | hshort l hl => rw [absorb_of_lt hl, absorb_of_lt hl]
  | hblock b l hb ih => rw [absorb_block hn hb, absorb_block hn hb, hf s b hb, ih]

/-- A measure that grows by one with each block tells how much has been fed. -/
theorem length_absorb (hn : 0 < n) {count : σ → ℕ} (hcount : ∀ s b, count (f s b) = count s + 1)
    (s : σ) (l : List α) :
    n * count (absorb n f s l).1 + (absorb n f s l).2.length = n * count s + l.length := by
  induction l using block_induction hn generalizing s with
  | hshort l hl => rw [absorb_of_lt hl]
  | hblock b l hb ih =>
    rw [absorb_block hn hb, ih, hcount, List.length_append, hb]
    ring
