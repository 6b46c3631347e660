import PicoRadio.Library.Cells
import PicoRadio.WebSocket.TextStream

/-!
# Moving bytes within a buffer

`shift_buffer` moves the bytes of a buffer by a signed offset, from the left for an offset below
zero and from the right otherwise, so that no byte is read after it has been overwritten. Here every
access is checked, and so is the sum `i + shift` that the bounds are tested on: it is a `ssize_t` of
32 bits, and overflows where the offset is too large to be added to the last index.
-/

namespace WebSockets

open Cells

namespace Checked

/-- A turn of the loops of `shift_buffer`. -/
def shiftByte (len shift : ℤ) (buf : Bytes) (i : ℕ) : Except Cells.Fault Bytes := do
  let target ← addSigned 32 i shift
  if target < len ∧ target ≥ 0 then
    let byte ← load buf i
    store buf target byte
  else .ok buf

/-- Shifts the data in a buffer by a signed offset. -/
def shift_buffer (buf : Bytes) (len shift : ℤ) : Except Cells.Fault Bytes :=
  if shift < 0 then (List.range len.toNat).foldlM (shiftByte len shift) buf
  else (List.range len.toNat).reverse.foldlM (shiftByte len shift) buf

end Checked

/-- Each position holds the byte that stood there less the offset, if that is a position of the
buffer, and its own byte otherwise. -/
def Moved (shift : ℤ) (buf buf' : Bytes) : Prop :=
  buf'.length = buf.length ∧ ∀ j < buf.length, buf'[j]? =
    if 0 ≤ j - shift ∧ j - shift < buf.length then buf[(j - shift).toNat]? else buf[j]?

/-- The bytes have been moved that stand at these positions. -/
def MovedAt (shift : ℤ) (done : List ℕ) (buf buf' : Bytes) : Prop :=
  buf'.length = buf.length ∧ ∀ j < buf.length, buf'[j]? =
    if 0 ≤ j - shift ∧ (j - shift).toNat ∈ done then buf[(j - shift).toNat]? else buf[j]?

/-- `shift_buffer` moves all bytes of a buffer and stays inside it. -/
def ShiftMoves (buf : Bytes) (shift : Int32) : Prop :=
  Ends (Checked.shift_buffer buf buf.length shift.toInt) (Moved shift.toInt buf) fun _ ↦ False

/-! ### A turn -/

/-- A turn that is the first to write to its source moves one more byte. -/
theorem Checked.shiftByte_moved {shift : ℤ} {done : List ℕ} {buf buf' : Bytes} {i : ℕ}
    (hi : i < buf.length) (hle : -2 ^ 31 ≤ i + shift) (hlt : i + shift < 2 ^ 31)
    (hfresh : ∀ a ∈ done, (a : ℤ) + shift ≠ i) (h : MovedAt shift done buf buf') :
    Ends (shiftByte buf.length shift buf' i) (MovedAt shift (done ++ [i]) buf) fun _ ↦ False := by
  obtain ⟨hlength, hbytes⟩ := h
  rw [shiftByte, addSigned_of_fits hle hlt, ok_bind]
  split
  · next htarget =>
    -- the byte at `i` is still the old one
    have hbyte : buf'[i]? = some buf[i] := by
      rw [hbytes i hi, if_neg, List.getElem?_eq_getElem hi]
      intro hdone
      exact hfresh _ hdone.2 (by omega)
    obtain ⟨k, hk⟩ := Int.eq_ofNat_of_zero_le htarget.2
    rw [load_of_getElem? hbyte, ok_bind, hk, store_of_lt (by omega)]
    refine ⟨by rw [List.length_set, hlength], fun j hj ↦ ?_⟩
    by_cases hjk : j = k
    · subst hjk
      have hsource : ((j : ℤ) - shift).toNat = i := by omega
      rw [List.getElem?_set_self (by omega), hsource,
        if_pos ⟨by omega, List.mem_append_right _ (List.mem_singleton_self i)⟩,
        List.getElem?_eq_getElem hi]
    · rw [List.getElem?_set_ne (Ne.symm hjk), hbytes j hj]
      refine if_congr (and_congr_right fun hpos ↦ ?_) rfl rfl
      rw [List.mem_append, List.mem_singleton, or_iff_left]
      omega
  · next htarget =>
    refine ⟨hlength, fun j hj ↦ ?_⟩
    rw [hbytes j hj]
    refine if_congr (and_congr_right fun hpos ↦ ?_) rfl rfl
    rw [List.mem_append, List.mem_singleton, or_iff_left]
    omega

/-- Turns in an order in which no byte is read after it has been written. -/
theorem Checked.shiftBytes_moved {shift : ℤ} {buf : Bytes} {order : List ℕ}
    (horder : ∀ i ∈ order, i < buf.length ∧ -2 ^ 31 ≤ i + shift ∧ i + shift < 2 ^ 31)
    (hfresh : order.Pairwise fun a b : ℕ ↦ (a : ℤ) + shift ≠ b) :
    Ends (order.foldlM (shiftByte buf.length shift) buf) (MovedAt shift order buf)
      fun _ ↦ False := by
  refine Ends.foldlM_visited (I := fun done buf' ↦ MovedAt shift done buf buf')
    (fun done i rest hsplit buf' h ↦ ?_) ⟨rfl, fun j hj ↦ ?_⟩
  · subst hsplit
    obtain ⟨hi, hle, hlt⟩ := horder i (List.mem_append_right _ List.mem_cons_self)
    exact shiftByte_moved hi hle hlt
      (fun a ha ↦ (List.pairwise_append.mp hfresh).2.2 a ha i List.mem_cons_self) h
  · rw [if_neg fun h ↦ List.not_mem_nil h.2]

/-! ### All turns -/

theorem MovedAt.moved {shift : ℤ} {order : List ℕ} {buf buf' : Bytes}
    (horder : ∀ i, i ∈ order ↔ i < buf.length) (h : MovedAt shift order buf buf') :
    Moved shift buf buf' := by
  refine ⟨h.1, fun j hj ↦ (h.2 j hj).trans (if_congr (and_congr_right fun hpos ↦ ?_) rfl rfl)⟩
  rw [horder]
  omega

theorem Checked.shift_buffer_moved {buf : Bytes} {shift : ℤ}
    (hle : -2 ^ 31 ≤ shift) (hlt : buf.length + shift ≤ 2 ^ 31) :
    Ends (shift_buffer buf buf.length shift) (Moved shift buf) fun _ ↦ False := by
  have hfits (i : ℕ) (hi : i < buf.length) :
      i < buf.length ∧ -2 ^ 31 ≤ i + shift ∧ i + shift < 2 ^ 31 := by
    omega
  rw [shift_buffer, Int.toNat_natCast]
  split
  · next hneg =>
    -- from the left, bytes go to the left
    refine (shiftBytes_moved (fun i hi ↦ hfits i (List.mem_range.mp hi))
      (List.pairwise_lt_range.imp fun hab ↦ ?_)).imp fun _ h ↦ h.moved fun _ ↦ List.mem_range
    omega
  · next hpos =>
    refine (shiftBytes_moved
      (fun i hi ↦ hfits i (List.mem_range.mp (List.mem_reverse.mp hi)))
      (List.pairwise_reverse.mpr (List.pairwise_lt_range.imp fun hab ↦ ?_))).imp
      fun _ h ↦ h.moved fun _ ↦ List.mem_reverse.trans List.mem_range
    omega

/-- The first turn from the right adds the offset to the last index. -/
theorem Checked.shift_buffer_overflow {buf : Bytes} (hbuf : buf.length < 2 ^ 31) {shift : ℤ}
    (hshift : shift < 2 ^ 31) (h : 2 ^ 31 < buf.length + shift) :
    shift_buffer buf buf.length shift = .error .overflow := by
  obtain ⟨n, hn⟩ := Nat.exists_eq_add_one_of_ne_zero (show buf.length ≠ 0 by omega)
  rw [shift_buffer, if_neg (by omega), Int.toNat_natCast, hn, List.range_succ,
    List.reverse_append, List.reverse_singleton, List.singleton_append, List.foldlM_cons,
    shiftByte, addSigned_of_le (by omega)]
  rfl

/-! ### Within the stream -/

theorem Checked.shiftBytes_eq {shift : ℤ} {len : ℕ} {order : List ℕ}
    (horder : ∀ i ∈ order, i < len ∧ -2 ^ 31 ≤ i + shift ∧ i + shift < 2 ^ 31) {buf : Bytes}
    (hlen : len ≤ buf.length) :
    order.foldlM (shiftByte len shift) buf =
      .ok (order.foldl (fun (buf : Bytes) (i : ℕ) ↦
        if i + shift < len ∧ i + shift ≥ 0 then buf.set (i + shift).toNat (buf.getD i 0)
        else buf) buf) := by
  induction order generalizing buf with
  | nil => rfl
  | cons i order ih =>
    obtain ⟨⟨hi, hle, hlt⟩, horder⟩ := List.forall_mem_cons.mp horder
    rw [List.foldlM_cons, List.foldl_cons, shiftByte, addSigned_of_fits hle hlt, ok_bind]
    split
    · next htarget =>
      obtain ⟨k, hk⟩ := Int.eq_ofNat_of_zero_le htarget.2
      rw [load_of_getElem? (List.getElem?_eq_getElem (by omega)), ok_bind, hk,
        store_of_lt (by omega), ok_bind, ih horder (by rw [List.length_set]; exact hlen),
        Int.toNat_natCast,
        List.getD_eq_getElem?_getD, List.getElem?_eq_getElem (by omega), Option.getD_some]
    · rw [ok_bind, ih horder hlen]

/-- Where nothing overflows, the checks do not matter. -/
theorem Checked.shift_buffer_eq {buf : Bytes} {len : ℕ} (hlen : len ≤ buf.length) {shift : ℤ}
    (hle : -2 ^ 31 ≤ shift) (hlt : len + shift ≤ 2 ^ 31) :
    shift_buffer buf len shift = .ok (WebSockets.shift_buffer buf len shift) := by
  have hfits (i : ℕ) (hi : i < len) : i < len ∧ -2 ^ 31 ≤ i + shift ∧ i + shift < 2 ^ 31 := by
    omega
  rw [shift_buffer, WebSockets.shift_buffer, Int.toNat_natCast]
  split
  · exact shiftBytes_eq (fun i hi ↦ hfits i (List.mem_range.mp hi)) hlen
  · exact shiftBytes_eq (fun i hi ↦ hfits i (List.mem_range.mp (List.mem_reverse.mp hi))) hlen

/-- The stream shifts to the left only, so what it does with its unread data is such a move. -/
theorem TextStream.rewind_moved {s : TextStream} (hsize : s.bufferSize = s.buffer.length)
    (hlength : s.buffer.length < 2 ^ 31) (hrstart : s.rstart ≤ s.buffer.length) :
    Moved (-s.rstart) s.buffer s.rewind.buffer := by
  have hmoved : Ends (Checked.shift_buffer s.buffer s.buffer.length (-s.rstart))
      (Moved (-s.rstart) s.buffer) fun _ ↦ False :=
    Checked.shift_buffer_moved (by omega) (by omega)
  rw [Checked.shift_buffer_eq le_rfl (by omega) (by omega), ← hsize] at hmoved
  exact hmoved

/-! ### Every offset -/

/-- **`shift_buffer` is an overlapping move**, and stays inside the buffer, exactly if the offset
can be added to the last index. -/
theorem shiftMoves_iff {buf : Bytes} (hbuf : buf.length < 2 ^ 31) (shift : Int32) :
    ShiftMoves buf shift ↔ buf.length + shift.toInt ≤ 2 ^ 31 := by
  constructor
  · intro h
    by_contra hover
    rw [ShiftMoves, Checked.shift_buffer_overflow hbuf (Int32.toInt_lt shift) (by omega)] at h
    exact h
  · exact Checked.shift_buffer_moved (Int32.le_toInt shift)

theorem shiftMoves_sample : Moved 2 [1, 2, 3, 4, 5] [1, 2, 1, 2, 3] := by
  have h := (shiftMoves_iff (show [1, 2, 3, 4, (5 : UInt8)].length < 2 ^ 31 by decide) 2).mpr
    (by decide)
  exact h

/-- Two bytes, and the greatest offset. -/
theorem shift_overflows : ¬∀ (buf : Bytes), buf.length < 2 ^ 31 → ∀ shift : Int32,
    ShiftMoves buf shift := by
  intro h
  have hmoves := h [1, 2] (by decide) Int32.maxValue
  exact hmoves

end WebSockets
