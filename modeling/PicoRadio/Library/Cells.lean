import Mathlib.Data.List.Basic
import Mathlib.Algebra.Ring.Int.Defs
import PicoRadio.Library.Ends

/-!
# Arrays with checked accesses

An array is the list of its cells, and an index a signed integer. A cell outside the array can
neither be read nor written, and a sum that its type cannot hold has no value: a program that tries
ends in a `Fault`. So a program that ends in a value has stayed inside its arrays.
-/

namespace Cells

variable {α : Type*}

/-- How a program that works on arrays can go wrong. -/
inductive Fault
  /-- A cell outside the array is read or written. -/
  | outOfBounds
  /-- A sum of signed integers does not fit into their type. -/
  | overflow
  deriving DecidableEq, Repr

/-- `cells[i]` as a value. -/
def load (cells : List α) (i : ℤ) : Except Fault α :=
  if i < 0 then .error .outOfBounds else (cells[i.toNat]?).elim (.error .outOfBounds) .ok

/-- `cells[i] = a`. -/
def store (cells : List α) (i : ℤ) (a : α) : Except Fault (List α) :=
  if 0 ≤ i ∧ i < cells.length then .ok (cells.set i.toNat a) else .error .outOfBounds

/-- `memcpy(&cells[i], src, …)`. -/
def copy (cells : List α) (i : ℕ) (src : List α) : Except Fault (List α) :=
  if i + src.length ≤ cells.length then .ok (cells.take i ++ src ++ cells.drop (i + src.length))
  else .error .outOfBounds

/-- `i + j` in a signed type of so many bits. -/
def addSigned (bits : ℕ) (i j : ℤ) : Except Fault ℤ :=
  if -2 ^ (bits - 1) ≤ i + j ∧ i + j < 2 ^ (bits - 1) then .ok (i + j) else .error .overflow

theorem load_of_getElem? {cells : List α} {n : ℕ} {a : α} (h : cells[n]? = some a) :
    load cells n = .ok a := by
  rw [load, if_neg (by omega), Int.toNat_natCast, h, Option.elim_some]

theorem store_of_lt {cells : List α} {n : ℕ} (h : n < cells.length) (a : α) :
    store cells n a = .ok (cells.set n a) := by
  rw [store, if_pos (by omega), Int.toNat_natCast]

/-- A copy to where the written part of an array ends. -/
theorem copy_append {pre cells src : List α} {i : ℕ} (hi : i = pre.length)
    (hsrc : src.length ≤ cells.length) :
    copy (pre ++ cells) i src = .ok (pre ++ src ++ cells.drop src.length) := by
  subst hi
  rw [copy, if_pos (by rw [List.length_append]; omega), List.take_left, List.drop_append,
    List.drop_eq_nil_of_le (by omega), List.nil_append, Nat.add_sub_cancel_left]

theorem addSigned_of_fits {bits : ℕ} {i j : ℤ} (hle : -2 ^ (bits - 1) ≤ i + j)
    (hlt : i + j < 2 ^ (bits - 1)) : addSigned bits i j = .ok (i + j) := by
  rw [addSigned, if_pos ⟨hle, hlt⟩]

theorem addSigned_of_le {bits : ℕ} {i j : ℤ} (h : 2 ^ (bits - 1) ≤ i + j) :
    addSigned bits i j = .error .overflow := by
  rw [addSigned, if_neg (by omega)]

end Cells
