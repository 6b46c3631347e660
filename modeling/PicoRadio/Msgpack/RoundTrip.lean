import Mathlib.Tactic.Ring
import PicoRadio.Msgpack.Packer
import PicoRadio.Msgpack.Unpacker

/-!
# What is packed is unpacked

Each overload of `unpack_type` gives back what the overload of `pack_type` for the same type has
packed, and leaves the pointer behind it: whatever follows, whatever error was recorded before.

Packer and unpacker choose by different boundaries, so the proofs go by the encoding the packer has
chosen: an integer is packed as one of its narrower forms (`packInt64_cases`, `packUInt64_cases`),
and the unpacker finds the width from the tag.

Strings are the exception. The packer uses a short header for lengths up to 31 and the unpacker
reads four bits of it: a string of 16 to 31 bytes loses 16 of them (`unpackString_mistaken`).

## Widths

An integer is packed as the narrowest form that holds it. The packer finds the form by comparing
magnitudes, one function calling the next narrower one, so there is a chain of cases:
`packInt64_narrow` and then `packInt32_cases`, `packInt16_cases`, `packInt8_cases`. The unpacker
takes the tag, reads that many bytes and widens what it has read. The round trip is that widening
undoes narrowing, and that no form is mistaken for another (`isFixint_toUInt8`).

The smallest 32-bit integer is left out on the way (`packInt32_cases`): its magnitude wraps around,
and looks small. The function for 64 bits does not pass it on, so it is packed with all its bytes.
-/

namespace Msgpack

open Unpacker

variable {rest : Bytes} {ec : Option UnpackerError}

/-! ### The bytes of an integer -/

/-- The bytes of a number, most significant first, are the number. -/
theorem yields_readBigEndian (k n : ℕ) :
    Yields (readBigEndian k) ⟨some (bigEndian k n ++ rest), ec⟩ (n % 2 ^ (8 * k))
      ⟨some rest, ec⟩ := by
  induction k with
  | zero => rw [Nat.mul_zero, pow_zero, Nat.mod_one]; exact .pure 0 _
  | succ k ih =>
    rw [bigEndian_succ]
    have hvalue : n % 2 ^ (8 * (k + 1)) =
        (n >>> (8 * k)).toUInt8.toNat * 2 ^ (8 * k) + n % 2 ^ (8 * k) := by
      rw [show 8 * (k + 1) = 8 * k + 8 by ring, pow_add, Nat.mod_mul, Nat.shiftRight_eq_div_pow]
      show _ = (n / 2 ^ (8 * k) % 2 ^ 8) * 2 ^ (8 * k) + _
      ring
    rw [hvalue]
    exact .bind rfl <| .bind rfl <| ih.bind (.pure _ _)

theorem yields_readBigEndian_of_lt {k n : ℕ} (h : n < 2 ^ (8 * k)) :
    Yields (readBigEndian k) ⟨some (bigEndian k n ++ rest), ec⟩ n ⟨some rest, ec⟩ := by
  have hread := @yields_readBigEndian rest ec k n
  rwa [Nat.mod_eq_of_lt h] at hread

/-! ### The encodings of an integer -/

/-- One byte by itself, or a tag before it. -/
theorem packInt8_cases (v : Int8) :
    (-32 ≤ v.toInt ∧ v.toInt ≤ 31 ∧ packInt8 v = [v.toUInt8]) ∨ packInt8 v = [0xd0, v.toUInt8] := by
  unfold packInt8
  split
  · exact .inr rfl
  · next h =>
    simp only [gt_iff_lt, not_or, Int8.not_lt, Int8.le_iff_toInt_le] at h
    exact .inl ⟨h.2, h.1, rfl⟩

/-- As an integer of eight bits if it is one. -/
theorem packInt16_cases (v : Int16) :
    (∃ w : Int8, w.toInt = v.toInt ∧ packInt16 v = packInt8 w) ∨
      packInt16 v = 0xd1 :: bigEndian 2 v.toUInt16.toNat := by
  unfold packInt16
  split
  · refine .inl ⟨v.toInt8, ?_, rfl⟩
    rw [Int16.toInt_toInt8]
    exact Int.bmod_eq_of_le (by omega) (by omega)
  · exact .inr rfl

/-- As an integer of sixteen bits if it is one. -/
theorem packInt32_cases {v : Int32} (hmin : v ≠ Int32.minValue) :
    (∃ w : Int16, w.toInt = v.toInt ∧ packInt32 v = packInt16 w) ∨
      packInt32 v = 0xd2 :: bigEndian 4 v.toUInt32.toNat := by
  unfold packInt32
  split
  · next h =>
    have habs : v.abs.toInt = v.toInt.natAbs :=
      BitVec.toInt_abs_eq_natAbs_of_ne_intMin fun heq ↦ hmin (Int32.toBitVec_inj.1 heq)
    rw [Int32.lt_iff_toInt_lt, habs] at h
    have h : (v.toInt.natAbs : ℤ) < 32768 := h
    refine .inl ⟨v.toInt16, ?_, rfl⟩
    rw [Int32.toInt_toInt16]
    exact Int.bmod_eq_of_le (by omega) (by omega)
  · exact .inr rfl

/-- As an integer of 32 bits if it is one, but for the smallest. -/
theorem packInt64_narrow (v : Int64) :
    (∃ w : Int32, w ≠ Int32.minValue ∧ w.toInt = v.toInt ∧ packInt64 v = packInt32 w) ∨
      packInt64 v = 0xd3 :: bigEndian 8 v.toUInt64.toNat := by
  unfold packInt64
  split
  · next h =>
    have habs : v.abs.toInt = v.toInt.natAbs :=
      BitVec.toInt_abs_eq_natAbs_of_ne_intMin fun heq ↦ h.2 (Int64.toBitVec_inj.1 heq)
    have hlt := Int64.lt_iff_toInt_lt.1 h.1
    rw [habs] at hlt
    have hlt : (v.toInt.natAbs : ℤ) < 2147483648 := hlt
    have hw : v.toInt32.toInt = v.toInt := by
      rw [Int64.toInt_toInt32]
      exact Int.bmod_eq_of_le (by omega) (by omega)
    refine .inl ⟨v.toInt32, fun hmin ↦ ?_, hw, rfl⟩
    rw [hmin] at hw
    have hw : -2147483648 = v.toInt := hw
    omega
  · exact .inr rfl

/-- A signed integer is packed in the narrowest of the signed forms that its magnitude fits. -/
theorem packInt64_cases (v : Int64) :
    (∃ w : Int8, w.toInt64 = v ∧ -32 ≤ w.toInt ∧ w.toInt ≤ 31 ∧ packInt64 v = [w.toUInt8]) ∨
    (∃ w : Int8, w.toInt64 = v ∧ packInt64 v = [0xd0, w.toUInt8]) ∨
    (∃ w : Int16, w.toInt64 = v ∧ packInt64 v = 0xd1 :: bigEndian 2 w.toUInt16.toNat) ∨
    (∃ w : Int32, w.toInt64 = v ∧ packInt64 v = 0xd2 :: bigEndian 4 w.toUInt32.toNat) ∨
    packInt64 v = 0xd3 :: bigEndian 8 v.toUInt64.toNat := by
  -- down through the widths: each packer hands what is narrow enough to the next one
  rcases packInt64_narrow v with ⟨w32, hmin, h32, hpack⟩ | hpack
  · rw [hpack]
    rcases packInt32_cases hmin with ⟨w16, h16, hpack⟩ | hpack
    · rw [hpack]
      rcases packInt16_cases w16 with ⟨w8, h8, hpack⟩ | hpack
      · have hw : w8.toInt64 = v := Int64.toInt.inj (by rw [Int8.toInt_toInt64, h8, h16, h32])
        rw [hpack]
        rcases packInt8_cases w8 with ⟨hlow, hhigh, hpack⟩ | hpack
        · exact .inl ⟨w8, hw, hlow, hhigh, hpack⟩
        · exact .inr (.inl ⟨w8, hw, hpack⟩)
      · have hw : w16.toInt64 = v := Int64.toInt.inj (by rw [Int16.toInt_toInt64, h16, h32])
        exact .inr (.inr (.inl ⟨w16, hw, hpack⟩))
    · have hw : w32.toInt64 = v := Int64.toInt.inj (by rw [Int32.toInt_toInt64, h32])
      exact .inr (.inr (.inr (.inl ⟨w32, hw, hpack⟩)))
  · exact .inr (.inr (.inr (.inr hpack)))

/-- One byte by itself up to 127. -/
theorem packUInt8_cases (v : UInt8) : (v ≤ 0x7f ∧ packUInt8 v = [v]) ∨ packUInt8 v = [0xcc, v] := by
  unfold packUInt8
  split
  · next h => exact .inl ⟨h, rfl⟩
  · exact .inr rfl

/-- An unsigned integer is packed in the narrowest of the unsigned forms. -/
theorem packUInt64_cases (v : UInt64) :
    (∃ w : UInt8, w.toUInt64 = v ∧ w ≤ 0x7f ∧ packUInt64 v = [w]) ∨
    (∃ w : UInt8, w.toUInt64 = v ∧ packUInt64 v = [0xcc, w]) ∨
    (∃ w : UInt16, w.toUInt64 = v ∧ packUInt64 v = 0xcd :: bigEndian 2 w.toNat) ∨
    (∃ w : UInt32, w.toUInt64 = v ∧ packUInt64 v = 0xce :: bigEndian 4 w.toNat) ∨
    packUInt64 v = 0xcf :: bigEndian 8 v.toNat := by
  unfold packUInt64
  split
  · exact .inr (.inr (.inr (.inr rfl)))
  · next h32 =>
    have h32 : v.toNat ≤ 0xffffffff := UInt64.le_iff_toNat_le.1 (UInt64.not_lt.1 h32)
    have hw32 : v.toUInt32.toNat = v.toNat := by
      rw [UInt64.toNat_toUInt32]
      omega
    unfold packUInt32
    split
    · exact .inr (.inr (.inr (.inl ⟨_, UInt64.toNat.inj (by simpa using hw32), rfl⟩)))
    · next h16 =>
      have h16 : v.toUInt32.toNat ≤ 0xffff := UInt32.le_iff_toNat_le.1 (UInt32.not_lt.1 h16)
      have hw16 : v.toUInt32.toUInt16.toNat = v.toNat := by
        rw [UInt32.toNat_toUInt16]
        omega
      unfold packUInt16
      split
      · exact .inr (.inr (.inl ⟨_, UInt64.toNat.inj (by rw [← hw16]; simp), rfl⟩))
      · next h8 =>
        have h8 : v.toUInt32.toUInt16.toNat ≤ 0xff :=
          UInt16.le_iff_toNat_le.1 (UInt16.not_lt.1 h8)
        have hw8 : v.toUInt32.toUInt16.toUInt8.toUInt64 = v := by
          refine UInt64.toNat.inj ?_
          rw [UInt8.toNat_toUInt64, UInt16.toNat_toUInt8]
          omega
        rcases packUInt8_cases v.toUInt32.toUInt16.toUInt8 with ⟨hlow, hpack⟩ | hpack
        · exact .inl ⟨_, hw8, hlow, hpack⟩
        · exact .inr (.inl ⟨_, hw8, hpack⟩)

/-! ### Integers -/

/-- A byte that is an integer by itself. -/
def IsFixint (byte : UInt8) : Prop :=
  byte ≤ 0x7f ∨ 0xe0 ≤ byte

instance : DecidablePred IsFixint :=
  fun byte ↦ inferInstanceAs (Decidable (byte ≤ 0x7f ∨ 0xe0 ≤ byte))

/-- The byte that stands for itself is none of the tags. -/
theorem isFixint_toUInt8 {w : Int8} (hlow : -32 ≤ w.toInt) (hhigh : w.toInt ≤ 31) :
    IsFixint w.toUInt8 := by
  have hint : w.toInt = (w.toUInt8.toNat : ℤ).bmod (2 ^ 8) := BitVec.toInt_eq_toNat_bmod _
  show w.toUInt8 ≤ 127 ∨ 224 ≤ w.toUInt8
  rw [UInt8.le_iff_toNat_le, UInt8.le_iff_toNat_le]
  show w.toUInt8.toNat ≤ 127 ∨ 224 ≤ w.toUInt8.toNat
  have hlt : w.toUInt8.toNat < 256 := w.toUInt8.toNat_lt
  rw [Int.bmod_def] at hint
  split at hint <;> omega

/-- A byte that is an integer is none of the tags. -/
theorem IsFixint.ne {byte : UInt8} (h : IsFixint byte) {tag : UInt8} (htag : ¬IsFixint tag) :
    byte ≠ tag := by
  rintro rfl
  exact htag h

/-- A byte without a tag, widened with its sign. -/
theorem unpackInt64_fixint {byte : UInt8} (h : IsFixint byte) :
    Yields unpackInt64 ⟨some (byte :: rest), ec⟩ byte.toInt8.toInt64 ⟨some rest, ec⟩ := by
  have hne (tag : UInt8) (htag : ¬IsFixint tag) : byte ≠ tag := h.ne htag
  show (if _ then _ else _ : StateM Unpacker _) _ = _
  rw [if_neg (hne 0xd3 (by decide)), if_neg (hne 0xd2 (by decide)), if_neg (hne 0xd1 (by decide)),
    if_neg (hne 0xd0 (by decide)), if_neg (hne 0xce (by decide)), if_neg (hne 0xcd (by decide)),
    if_neg (hne 0xcc (by decide))]
  rfl

theorem unpackUInt64_fixint {byte : UInt8} (h : IsFixint byte) :
    Yields unpackUInt64 ⟨some (byte :: rest), ec⟩ byte.toUInt64 ⟨some rest, ec⟩ := by
  have hne (tag : UInt8) (htag : ¬IsFixint tag) : byte ≠ tag := h.ne htag
  show (if _ then _ else _ : StateM Unpacker _) _ = _
  rw [if_neg (hne 0xcf (by decide)), if_neg (hne 0xce (by decide)), if_neg (hne 0xcd (by decide)),
    if_neg (hne 0xcc (by decide)), if_neg (hne 0xd3 (by decide)), if_neg (hne 0xd2 (by decide)),
    if_neg (hne 0xd1 (by decide)), if_neg (hne 0xd0 (by decide))]
  rfl

/-- A tag and the number that follows it. -/
theorem yields_number {α : Type} (tag : UInt8) {data : Bytes} {k n : ℕ} {u : Unpacker} (f : ℕ → α)
    (h : Yields (readBigEndian k) ⟨some data, ec⟩ n u) :
    Yields (do safeIncrement 1; f <$> readBigEndian k) ⟨some (tag :: data), ec⟩ (f n) u :=
  .bind rfl (h.map f)

section Tagged

variable {data : Bytes} {u : Unpacker}

/-- What follows the tag of sixteen bits. -/
theorem unpackInt16_tagged (w : Int16)
    (h : Yields (readBigEndian 2) ⟨some data, ec⟩ w.toUInt16.toNat u) :
    Yields unpackInt16 ⟨some (0xd1 :: data), ec⟩ w u := by
  have hnumber := yields_number 0xd1 (fun bits ↦ bits.toUInt16.toInt16) h
  rw [Nat.toUInt16_eq, UInt16.ofNat_toNat, Int16.toInt16_toUInt16] at hnumber
  exact .bind rfl (.if_pos rfl hnumber)

theorem unpackInt32_tagged (w : Int32)
    (h : Yields (readBigEndian 4) ⟨some data, ec⟩ w.toUInt32.toNat u) :
    Yields unpackInt32 ⟨some (0xd2 :: data), ec⟩ w u := by
  have hnumber := yields_number 0xd2 (fun bits ↦ bits.toUInt32.toInt32) h
  rw [Nat.toUInt32_eq, UInt32.ofNat_toNat, Int32.toInt32_toUInt32] at hnumber
  exact .bind rfl (.if_pos rfl hnumber)

theorem unpackInt64_tagged (v : Int64)
    (h : Yields (readBigEndian 8) ⟨some data, ec⟩ v.toUInt64.toNat u) :
    Yields unpackInt64 ⟨some (0xd3 :: data), ec⟩ v u := by
  have hnumber := yields_number 0xd3 (fun bits ↦ bits.toUInt64.toInt64) h
  rw [Nat.toUInt64_eq, UInt64.ofNat_toNat, Int64.toInt64_toUInt64] at hnumber
  exact .bind rfl (.if_pos rfl hnumber)

theorem unpackUInt16_tagged (w : UInt16) (h : Yields (readBigEndian 2) ⟨some data, ec⟩ w.toNat u) :
    Yields unpackUInt16 ⟨some (0xcd :: data), ec⟩ w u := by
  have hnumber := yields_number 0xcd Nat.toUInt16 h
  rw [Nat.toUInt16_eq, UInt16.ofNat_toNat] at hnumber
  exact .bind rfl (.if_pos rfl hnumber)

theorem unpackUInt32_tagged (w : UInt32) (h : Yields (readBigEndian 4) ⟨some data, ec⟩ w.toNat u) :
    Yields unpackUInt32 ⟨some (0xce :: data), ec⟩ w u := by
  have hnumber := yields_number 0xce Nat.toUInt32 h
  rw [Nat.toUInt32_eq, UInt32.ofNat_toNat] at hnumber
  exact .bind rfl (.if_pos rfl hnumber)

theorem unpackUInt64_tagged (v : UInt64) (h : Yields (readBigEndian 8) ⟨some data, ec⟩ v.toNat u) :
    Yields unpackUInt64 ⟨some (0xcf :: data), ec⟩ v u := by
  have hnumber := yields_number 0xcf Nat.toUInt64 h
  rw [Nat.toUInt64_eq, UInt64.ofNat_toNat] at hnumber
  exact .bind rfl (.if_pos rfl hnumber)

/-- Signed integers of the narrower forms. -/
theorem unpackInt64_narrow :
    (∀ w, Yields unpackInt16 ⟨some (0xd1 :: data), ec⟩ w u →
      Yields unpackInt64 ⟨some (0xd1 :: data), ec⟩ w.toInt64 u) ∧
    ∀ w, Yields unpackInt32 ⟨some (0xd2 :: data), ec⟩ w u →
      Yields unpackInt64 ⟨some (0xd2 :: data), ec⟩ w.toInt64 u :=
  ⟨fun _ h ↦ .bind rfl <| .if_neg (by decide) <| .if_neg (by decide) <| .if_pos rfl (h.map _),
    fun _ h ↦ .bind rfl <| .if_neg (by decide) <| .if_pos rfl (h.map _)⟩

/-- Unsigned integers of the narrower forms. -/
theorem unpackUInt64_narrow :
    (∀ w, Yields unpackUInt16 ⟨some (0xcd :: data), ec⟩ w u →
      Yields unpackUInt64 ⟨some (0xcd :: data), ec⟩ w.toUInt64 u) ∧
    ∀ w, Yields unpackUInt32 ⟨some (0xce :: data), ec⟩ w u →
      Yields unpackUInt64 ⟨some (0xce :: data), ec⟩ w.toUInt64 u :=
  ⟨fun _ h ↦ .bind rfl <| .if_neg (by decide) <| .if_neg (by decide) <| .if_pos rfl (h.map _),
    fun _ h ↦ .bind rfl <| .if_neg (by decide) <| .if_pos rfl (h.map _)⟩

end Tagged

/-- Every integer, in whichever form it was packed. -/
theorem unpackInt64_packInt64 (v : Int64) :
    Yields unpackInt64 ⟨some (packInt64 v ++ rest), ec⟩ v ⟨some rest, ec⟩ := by
  -- one case for each form, from the byte that stands for itself to eight bytes
  rcases packInt64_cases v with ⟨w, rfl, hlow, hhigh, hpack⟩ | ⟨w, rfl, hpack⟩ | ⟨w, rfl, hpack⟩ |
    ⟨w, rfl, hpack⟩ | hpack
  all_goals rw [hpack]
  · exact unpackInt64_fixint (isFixint_toUInt8 hlow hhigh)
  · rfl
  · exact unpackInt64_narrow.1 w
      (unpackInt16_tagged w (yields_readBigEndian_of_lt w.toUInt16.toNat_lt))
  · exact unpackInt64_narrow.2 w
      (unpackInt32_tagged w (yields_readBigEndian_of_lt w.toUInt32.toNat_lt))
  · exact unpackInt64_tagged v (yields_readBigEndian_of_lt v.toUInt64.toNat_lt)

/-- Every unsigned integer, in whichever form it was packed. -/
theorem unpackUInt64_packUInt64 (v : UInt64) :
    Yields unpackUInt64 ⟨some (packUInt64 v ++ rest), ec⟩ v ⟨some rest, ec⟩ := by
  rcases packUInt64_cases v with ⟨w, rfl, hlow, hpack⟩ | ⟨w, rfl, hpack⟩ | ⟨w, rfl, hpack⟩ |
    ⟨w, rfl, hpack⟩ | hpack
  all_goals rw [hpack]
  · exact unpackUInt64_fixint (.inl hlow)
  · rfl
  · exact unpackUInt64_narrow.1 w (unpackUInt16_tagged w (yields_readBigEndian_of_lt w.toNat_lt))
  · exact unpackUInt64_narrow.2 w (unpackUInt32_tagged w (yields_readBigEndian_of_lt w.toNat_lt))
  · exact unpackUInt64_tagged v (yields_readBigEndian_of_lt v.toNat_lt)

/-- Up to 127. A byte with the tag `0xcc` is read by the wider functions. -/
theorem unpackUInt8_packUInt8 {v : UInt8} (h : v ≤ 0x7f) :
    Yields unpackUInt8 ⟨some (packUInt8 v ++ rest), ec⟩ v ⟨some rest, ec⟩ := by
  have hne (tag : UInt8) (htag : ¬IsFixint tag) : v ≠ tag := IsFixint.ne (.inl h) htag
  rw [packUInt8, if_pos h]
  show (if _ then _ else _ : StateM Unpacker _) _ = _
  rw [if_neg (not_or.2 ⟨hne 0xcc (by decide), hne 0xd0 (by decide)⟩)]
  rfl

/-- A signed integer does not look unsigned. -/
theorem isNextUnsigned_packInt64 (v : Int64) :
    Yields isNextUnsigned ⟨some (packInt64 v ++ rest), ec⟩ false
      ⟨some (packInt64 v ++ rest), ec⟩ := by
  rcases packInt64_cases v with ⟨w, -, hlow, hhigh, hpack⟩ | ⟨w, -, hpack⟩ | ⟨w, -, hpack⟩ |
    ⟨w, -, hpack⟩ | hpack
  all_goals rw [hpack]
  · have hne (tag : UInt8) (htag : ¬IsFixint tag) : w.toUInt8 ≠ tag :=
      (isFixint_toUInt8 hlow hhigh).ne htag
    show (decide _, _) = _
    simp [hne 0xcc (by decide), hne 0xcd (by decide), hne 0xce (by decide), hne 0xcf (by decide)]
  all_goals rfl

/-- An unsigned integer looks unsigned, or is small and reads the same as a signed one. -/
theorem isNextUnsigned_packUInt64 (v : UInt64) :
    Yields isNextUnsigned ⟨some (packUInt64 v ++ rest), ec⟩ true ⟨some (packUInt64 v ++ rest), ec⟩ ∨
      Yields isNextUnsigned ⟨some (packUInt64 v ++ rest), ec⟩ false
        ⟨some (packUInt64 v ++ rest), ec⟩ ∧
      ∃ i : Int64, i.toInt = v.toNat ∧
        Yields unpackInt64 ⟨some (packUInt64 v ++ rest), ec⟩ i ⟨some rest, ec⟩ := by
  rcases packUInt64_cases v with ⟨w, rfl, hlow, hpack⟩ | ⟨w, -, hpack⟩ | ⟨w, -, hpack⟩ |
    ⟨w, -, hpack⟩ | hpack
  all_goals rw [hpack]
  · have hne (tag : UInt8) (htag : ¬IsFixint tag) : w ≠ tag := IsFixint.ne (.inl hlow) htag
    -- up to 127 the byte has no tag, and as a signed integer it is the same number
    refine .inr ⟨?_, w.toInt8.toInt64, ?_, unpackInt64_fixint (.inl hlow)⟩
    · show (decide _, _) = _
      simp [hne 0xcc (by decide), hne 0xcd (by decide), hne 0xce (by decide), hne 0xcf (by decide)]
    · have hlow : w.toNat ≤ 127 := UInt8.le_iff_toNat_le.1 hlow
      rw [Int8.toInt_toInt64, UInt8.toNat_toUInt64]
      exact (BitVec.toInt_eq_toNat_bmod _).trans (Int.bmod_eq_of_le (by omega) (by
        show (w.toNat : ℤ) < _
        omega))
  all_goals exact .inl rfl

theorem unpackBool_packBool (v : Bool) :
    Yields unpackBool ⟨some (packBool v ++ rest), ec⟩ v ⟨some rest, ec⟩ := by
  cases v <;> rfl

/-! ### Strings and buffers -/

/-- As many bytes as were asked for, and the rest is left. -/
theorem yields_readBytes (data : Bytes) {size : ℕ} (h : size ≤ data.length) :
    Yields (readBytes size) ⟨some (data ++ rest), ec⟩ (data.take size)
      ⟨some (data.drop size ++ rest), ec⟩ := by
  show (if _ then _ else _) = _
  rw [if_pos (by rw [List.length_append]; omega), List.take_append_of_le_length h,
    List.drop_append_of_le_length h]

/-- All the bytes. -/
theorem yields_readBytes_length (data : Bytes) :
    Yields (readBytes data.length) ⟨some (data ++ rest), ec⟩ data ⟨some rest, ec⟩ := by
  have h := @yields_readBytes rest ec data _ le_rfl
  rwa [List.take_length, List.drop_length] at h

/-- The tags of a buffer. -/
theorem unpackBinSize_tagged {data : Bytes} {size : ℕ} {u : Unpacker} :
    (Yields (readBigEndian 1) ⟨some data, ec⟩ size u →
      Yields unpackBinSize ⟨some (0xc4 :: data), ec⟩ size u) ∧
    (Yields (readBigEndian 2) ⟨some data, ec⟩ size u →
      Yields unpackBinSize ⟨some (0xc5 :: data), ec⟩ size u) ∧
    (Yields (readBigEndian 4) ⟨some data, ec⟩ size u →
      Yields unpackBinSize ⟨some (0xc6 :: data), ec⟩ size u) :=
  ⟨fun h ↦ .bind rfl <| .if_neg (by decide) <| .if_neg (by decide) <| .bind rfl h,
    fun h ↦ .bind rfl <| .if_neg (by decide) <| .if_pos rfl <| .bind rfl h,
    fun h ↦ .bind rfl <| .if_pos rfl <| .bind rfl h⟩

/-- A buffer of any length the packer does not give up on. -/
theorem unpackBin_packBin {value : Bytes} (h : value.length < 0xffffffff) :
    Yields unpackBin ⟨some (packBin value ++ rest), ec⟩ value ⟨some rest, ec⟩ := by
  have hread := @yields_readBytes_length rest ec value
  unfold packBin
  split_ifs with h8 h16
  · exact .bind (unpackBinSize_tagged.1 (yields_readBigEndian_of_lt (k := 1) (by omega))) hread
  · show Yields unpackBin ⟨some (0xc5 :: (bigEndian 2 value.length ++ value ++ rest)), ec⟩ _ _
    rw [List.append_assoc]
    exact .bind (unpackBinSize_tagged.2.1 (yields_readBigEndian_of_lt (by omega))) hread
  · show Yields unpackBin ⟨some (0xc6 :: (bigEndian 4 value.length ++ value ++ rest)), ec⟩ _ _
    rw [List.append_assoc]
    exact .bind (unpackBinSize_tagged.2.2 (yields_readBigEndian_of_lt (by omega))) hread

/-- The length is one that the unpacker mistakes. -/
def Mistaken (value : Str) : Prop :=
  16 ≤ value.length ∧ value.length < 32

instance : DecidablePred Mistaken :=
  fun value ↦ inferInstanceAs (Decidable (16 ≤ value.length ∧ value.length < 32))

/-- The short header of a string keeps four of the five bits of the length. -/
theorem unpackStringSize_short {data : Bytes} {size : ℕ} (h : size < 32) :
    Yields unpackStringSize ⟨some ((size.toUInt8 ||| 0xa0) :: data), ec⟩ (size % 16)
      ⟨some data, ec⟩ := by
  have htag : ∀ size < 32, (size.toUInt8 ||| 0xa0) ≠ 0xdb ∧ (size.toUInt8 ||| 0xa0) ≠ 0xda ∧
      (size.toUInt8 ||| 0xa0) ≠ 0xd9 ∧ ((size.toUInt8 ||| 0xa0) &&& 0x0f).toNat = size % 16 := by
    decide
  obtain ⟨h32, h16, h8, hsize⟩ := htag size h
  show (if _ then _ else _ : StateM Unpacker _) _ = _
  rw [if_neg h32, if_neg h16, if_neg h8, ← hsize]
  rfl

/-- The tags of a longer string. -/
theorem unpackStringSize_tagged {data : Bytes} {size : ℕ} {u : Unpacker} :
    (Yields (readBigEndian 1) ⟨some data, ec⟩ size u →
      Yields unpackStringSize ⟨some (0xd9 :: data), ec⟩ size u) ∧
    (Yields (readBigEndian 2) ⟨some data, ec⟩ size u →
      Yields unpackStringSize ⟨some (0xda :: data), ec⟩ size u) ∧
    (Yields (readBigEndian 4) ⟨some data, ec⟩ size u →
      Yields unpackStringSize ⟨some (0xdb :: data), ec⟩ size u) :=
  ⟨fun h ↦ .bind rfl <| .if_neg (by decide) <| .if_neg (by decide) <| .if_pos rfl <| .bind rfl h,
    fun h ↦ .bind rfl <| .if_neg (by decide) <| .if_pos rfl <| .bind rfl h,
    fun h ↦ .bind rfl <| .if_pos rfl <| .bind rfl h⟩

/-- A string whose header is not mistaken. -/
theorem unpackString_packString {value : Str} (h : value.length < 0xffffffff)
    (hlength : ¬Mistaken value) :
    Yields unpackString ⟨some (packString value ++ rest), ec⟩ value ⟨some rest, ec⟩ := by
  have hread := @yields_readBytes_length rest ec value
  unfold packString
  split_ifs with h5 h8 h16
  · have hsize := @unpackStringSize_short ec (value ++ rest) _ h5
    rw [Nat.mod_eq_of_lt (by unfold Mistaken at hlength; omega)] at hsize
    exact .bind hsize hread
  · exact .bind (unpackStringSize_tagged.1 (yields_readBigEndian_of_lt (k := 1) (by omega))) hread
  · show Yields unpackString ⟨some (0xda :: (bigEndian 2 value.length ++ value ++ rest)), ec⟩ _ _
    rw [List.append_assoc]
    exact .bind (unpackStringSize_tagged.2.1 (yields_readBigEndian_of_lt (by omega))) hread
  · show Yields unpackString ⟨some (0xdb :: (bigEndian 4 value.length ++ value ++ rest)), ec⟩ _ _
    rw [List.append_assoc]
    exact .bind (unpackStringSize_tagged.2.2 (yields_readBigEndian_of_lt (by omega))) hread

/-- Of a string whose length the unpacker mistakes, the last sixteen bytes are left behind. -/
theorem unpackString_mistaken {value : Str} (h : Mistaken value) :
    Yields unpackString ⟨some (packString value ++ rest), ec⟩ (value.take (value.length - 16))
      ⟨some (value.drop (value.length - 16) ++ rest), ec⟩ := by
  have hsize := @unpackStringSize_short ec (value ++ rest) _ h.2
  rw [Nat.mod_eq_sub_mod h.1, Nat.mod_eq_of_lt (by have := h.2; omega)] at hsize
  rw [packString, if_pos h.2]
  exact .bind hsize (yields_readBytes value (Nat.sub_le _ _))

/-! ### Arrays -/

/-- The tags of a longer array. -/
theorem unpackArraySize_tagged {data : Bytes} {size : ℕ} {u : Unpacker} :
    (Yields (readBigEndian 2) ⟨some data, ec⟩ size u →
      Yields unpackArraySize ⟨some (0xdc :: data), ec⟩ size u) ∧
    (Yields (readBigEndian 4) ⟨some data, ec⟩ size u →
      Yields unpackArraySize ⟨some (0xdd :: data), ec⟩ size u) :=
  ⟨fun h ↦ .bind rfl <| .if_neg (by decide) <| .if_pos rfl <| .bind rfl h,
    fun h ↦ .bind rfl <| .if_pos rfl <| .bind rfl h⟩

theorem unpackArraySize_packArrayHeader {size : ℕ} (h : size < 0xffffffff) :
    Yields unpackArraySize ⟨some (packArrayHeader size ++ rest), ec⟩ size ⟨some rest, ec⟩ := by
  have htag : ∀ size < 16, (size.toUInt8 ||| 0x90) ≠ 0xdd ∧ (size.toUInt8 ||| 0x90) ≠ 0xdc ∧
      ((size.toUInt8 ||| 0x90) &&& 0x0f).toNat = size := by
    decide
  unfold packArrayHeader
  split_ifs with h4 h16
  · obtain ⟨hne32, hne16, hsize⟩ := htag size h4
    have hread : Yields unpackArraySize ⟨some ((size.toUInt8 ||| 0x90) :: rest), ec⟩
        ((size.toUInt8 ||| 0x90) &&& 0x0f).toNat ⟨some rest, ec⟩ :=
      .bind rfl <| .if_neg hne32 <| .if_neg hne16 <| .bind rfl (.pure _ _)
    rwa [hsize] at hread
  · exact unpackArraySize_tagged.1 (yields_readBigEndian_of_lt (by omega))
  · exact unpackArraySize_tagged.2 (yields_readBigEndian_of_lt (by omega))

/-- The header of an update. -/
theorem unpackArrayHeader_four :
    Yields unpackArrayHeader ⟨some (packArrayHeader 4 ++ rest), ec⟩ (some 4) ⟨some rest, ec⟩ :=
  .bind rfl <| .if_neg (by decide) <| .if_neg (by decide) <| .if_pos (by decide) <| .bind rfl rfl

section Elements

variable {α : Type} {packElem : α → Bytes} {unpackElem : StateM Unpacker α} {good : α → Prop}

/-- Element by element, each one behind the one before. -/
theorem yields_unpackElements {l : List α}
    (h : ∀ a ∈ l, ∀ rest, Yields unpackElem ⟨some (packElem a ++ rest), ec⟩ a ⟨some rest, ec⟩) :
    Yields (unpackElements unpackElem l.length) ⟨some (l.flatMap packElem ++ rest), ec⟩ l
      ⟨some rest, ec⟩ := by
  induction l with
  | nil => exact .pure [] _
  | cons a l ih =>
    rw [List.flatMap_cons, List.append_assoc]
    exact (h a List.mem_cons_self _).bind <|
      (ih fun b hb ↦ h b (List.mem_cons_of_mem a hb)).bind (.pure _ _)

/-- An array of what round-trips. -/
theorem unpackArray_packArray {l : List α} (hlength : l.length < 0xffffffff)
    (h : ∀ a ∈ l, ∀ rest, Yields unpackElem ⟨some (packElem a ++ rest), ec⟩ a ⟨some rest, ec⟩) :
    Yields (unpackArray unpackElem) ⟨some (packArray packElem l ++ rest), ec⟩
      l ⟨some rest, ec⟩ := by
  rw [packArray, List.append_assoc]
  exact (unpackArraySize_packArrayHeader hlength).bind (yields_unpackElements h)

/-- Where some elements come back changed, the array comes back only if it has none of them. -/
theorem good_of_unpackElements {l : List α}
    (hgood : ∀ a ∈ l, good a → ∀ rest,
      Yields unpackElem ⟨some (packElem a ++ rest), ec⟩ a ⟨some rest, ec⟩)
    (hbad : ∀ a ∈ l, ∀ rest u, Yields unpackElem ⟨some (packElem a ++ rest), ec⟩ a u → good a)
    {u : Unpacker}
    (h : Yields (unpackElements unpackElem l.length) ⟨some (l.flatMap packElem ++ rest), ec⟩ l u) :
    ∀ a ∈ l, good a := by
  induction l generalizing u with
  | nil => exact fun a ha ↦ absurd ha List.not_mem_nil
  | cons a l ih =>
    rw [List.flatMap_cons, List.append_assoc] at h
    obtain ⟨hhead, htail⟩ := List.cons.inj (Prod.mk.inj h).1
    have ha : good a := hbad a List.mem_cons_self _ _ (Prod.ext hhead rfl)
    have hread := hgood a List.mem_cons_self ha (l.flatMap packElem ++ rest)
    have htail : (unpackElements unpackElem l.length
        (unpackElem ⟨some (packElem a ++ (l.flatMap packElem ++ rest)), ec⟩).2).1 = l := htail
    rw [hread] at htail
    exact List.forall_mem_cons.2 ⟨ha, ih (fun b hb ↦ hgood b (List.mem_cons_of_mem a hb))
      (fun b hb ↦ hbad b (List.mem_cons_of_mem a hb)) (Prod.ext htail rfl)⟩

/-- The other direction: an array that comes back has elements that do. -/
theorem good_of_unpackArray {l : List α} (hlength : l.length < 0xffffffff)
    (hgood : ∀ a ∈ l, good a → ∀ rest,
      Yields unpackElem ⟨some (packElem a ++ rest), ec⟩ a ⟨some rest, ec⟩)
    (hbad : ∀ a ∈ l, ∀ rest u, Yields unpackElem ⟨some (packElem a ++ rest), ec⟩ a u → good a)
    {u : Unpacker}
    (h : Yields (unpackArray unpackElem) ⟨some (packArray packElem l ++ rest), ec⟩ l u) :
    ∀ a ∈ l, good a := by
  rw [packArray, List.append_assoc] at h
  have hsize := @unpackArraySize_packArrayHeader (l.flatMap packElem ++ rest) ec _ hlength
  refine @good_of_unpackElements rest ec α packElem unpackElem good l hgood hbad u ?_
  have helements : unpackElements unpackElem (unpackArraySize _).1
    (unpackArraySize _).2 = (l, u) := h
  rwa [hsize] at helements

end Elements

/-- A string that comes back was not mistaken. -/
theorem not_mistaken_of_unpackString {value : Str} {u : Unpacker}
    (h : Yields unpackString ⟨some (packString value ++ rest), ec⟩ value u) : ¬Mistaken value := by
  intro hmistaken
  have hlength := congrArg List.length (h.unique (unpackString_mistaken hmistaken)).1
  rw [List.length_take] at hlength
  have := hmistaken.1
  omega

end Msgpack
