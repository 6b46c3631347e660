import Mathlib.Data.List.Basic
import Mathlib.Data.Nat.Digits.Lemmas
import Mathlib.Data.List.Infix

/-!
# Bytes and strings

A `std::string` is a sequence of bytes, not of characters: topic and client names come from the
network and nothing checks their encoding. `Str` is that sequence, `ascii` writes a literal as one.

The sizes the source compares with its limits are lengths of such sequences. A `size_t` is a
natural number here: everything measured with it lies in memory at once.
-/

/-- A byte buffer, `std::vector<uint8_t>`. -/
abbrev Bytes := List UInt8

/-- A `std::string`: its bytes. -/
abbrev Str := List UInt8

/-- A string literal of the source. All literals of the source are ASCII. -/
def ascii (s : String) : Str :=
  s.toList.map fun c ↦ c.toNat.toUInt8

/-- `std::to_string` of a natural number. -/
def decimal (n : ℕ) : Str :=
  (Nat.toDigits 10 n).map fun c ↦ c.toNat.toUInt8

/-- `std::to_string` of a signed integer. -/
def decimalInt : ℤ → Str
  | .ofNat n => decimal n
  | .negSucc n => ascii "-" ++ decimal (n + 1)

/-- The `k` low bytes of `n`, most significant first: the loops
`for (auto i = k; i > 0; --i) … uint8_t(n >> (8U * (i - 1)) & 0xff)`. -/
def bigEndian (k n : ℕ) : Bytes :=
  (List.range k).reverse.map fun i ↦ (n >>> (8 * i)).toUInt8

@[simp]
theorem length_bigEndian (k n : ℕ) : (bigEndian k n).length = k := by
  simp [bigEndian]

theorem bigEndian_succ (k n : ℕ) :
    bigEndian (k + 1) n = (n >>> (8 * k)).toUInt8 :: bigEndian k n := by
  unfold bigEndian
  rw [List.range_succ, List.reverse_append, List.map_append]
  rfl

/-- The number that the bytes say, most significant first. -/
def ofBigEndian (bs : Bytes) : ℕ :=
  bs.foldl (fun n b ↦ 256 * n + b.toNat) 0

theorem ofBigEndian_bigEndian (k n : ℕ) : ofBigEndian (bigEndian k n) = n % 256 ^ k := by
  suffices h : ∀ m, (bigEndian k n).foldl (fun n b ↦ 256 * n + b.toNat) m =
      256 ^ k * m + n % 256 ^ k by
    rw [ofBigEndian, h, Nat.mul_zero, Nat.zero_add]
  induction k with
  | zero => simp [bigEndian, Nat.mod_one]
  | succ k ih =>
    intro m
    have hbyte : ((n >>> (8 * k)).toUInt8).toNat = n / 256 ^ k % 256 := by
      rw [Nat.shiftRight_eq_div_pow, Nat.pow_mul]
      rfl
    rw [bigEndian_succ, List.foldl_cons, ih, hbyte, Nat.pow_succ, Nat.mod_mul]
    ring

theorem bigEndian_add (j k n : ℕ) :
    bigEndian (j + k) n = bigEndian j (n >>> (8 * k)) ++ bigEndian k n := by
  induction j with
  | zero => rw [Nat.zero_add]; rfl
  | succ j ih =>
    rw [Nat.add_right_comm, bigEndian_succ, bigEndian_succ, ih, List.cons_append,
      ← Nat.shiftRight_add, Nat.mul_add, Nat.add_comm (8 * k)]

theorem ofBigEndian_eq_ofDigits (bs : Bytes) :
    ofBigEndian bs = Nat.ofDigits 256 (bs.reverse.map UInt8.toNat) := by
  rw [ofBigEndian, Nat.ofDigits_eq_foldr, List.foldr_map, List.foldl_eq_foldr_reverse]
  simp only [Nat.cast_id, Nat.add_comm]

theorem ofBigEndian_lt (bs : Bytes) : ofBigEndian bs < 256 ^ bs.length := by
  have hlt := Nat.ofDigits_lt_base_pow_length (b := 256) (l := bs.reverse.map UInt8.toNat)
    (by omega) (by simpa using fun b _ ↦ b.toNat_lt)
  rwa [← ofBigEndian_eq_ofDigits, List.length_map, List.length_reverse] at hlt

/-- Bytes of one length that say the same number are the same. -/
theorem ofBigEndian_inj {bs bs' : Bytes} (hlength : bs.length = bs'.length)
    (h : ofBigEndian bs = ofBigEndian bs') : bs = bs' := by
  rw [ofBigEndian_eq_ofDigits, ofBigEndian_eq_ofDigits] at h
  have hmap := Nat.ofDigits_inj_of_len_eq (by omega : 1 < 256)
    (by simpa using hlength) (by simpa using fun b _ ↦ b.toNat_lt)
    (by simpa using fun b _ ↦ b.toNat_lt) h
  have hreverse := List.map_injective_iff.mpr (fun b b' ↦ UInt8.toNat_inj.mp) hmap
  exact List.reverse_inj.mp hreverse

theorem bigEndian_ofBigEndian (bs : Bytes) : bigEndian bs.length (ofBigEndian bs) = bs := by
  refine ofBigEndian_inj (length_bigEndian _ _) ?_
  rw [ofBigEndian_bigEndian, Nat.mod_eq_of_lt (ofBigEndian_lt bs)]

/-- The `k` low bytes of `n` as they lie in memory, least significant first. -/
def littleEndian (k n : ℕ) : Bytes :=
  (bigEndian k n).reverse

@[simp]
theorem length_littleEndian (k n : ℕ) : (littleEndian k n).length = k := by
  simp [littleEndian]

/-- The number that bytes in memory make. -/
def ofLittleEndian (bs : Bytes) : ℕ :=
  ofBigEndian bs.reverse

theorem ofLittleEndian_littleEndian (k n : ℕ) :
    ofLittleEndian (littleEndian k n) = n % 256 ^ k := by
  rw [ofLittleEndian, littleEndian, List.reverse_reverse, ofBigEndian_bigEndian]

namespace Str

/-- `starts_with(char)`. -/
def startsWithChar (s : Str) (c : Char) : Bool :=
  s.head? == some c.toNat.toUInt8

/-- `starts_with(std::string)`. -/
def startsWith (s t : Str) : Bool :=
  t.isPrefixOf s

/-- `s.starts_with('$')`: the name of a meta topic. -/
abbrev isMeta (s : Str) : Bool :=
  s.startsWithChar '$'

end Str
