import PicoRadio.WebSocket.Sha1

/-!
# Base64

`base64_encode` writes the key and the digest of a handshake and the name of a `Guid`. The source
never reads base64; `base64_decode` is the reading that the standard gives it, so that
`base64_decode_encode` says that nothing is lost. `Guid.equals_iff` is what follows for the strings
of two guids.
-/

namespace WebSockets

/-- The number that a character stands for. -/
def sextet (c : UInt8) : Option UInt8 :=
  ((List.range 64).map Nat.toUInt8).find? fun i ↦ sEncodingTable i == c

/-- Four characters are read as three bytes. Only the last four may be filled up. -/
def base64_decode : Str → Option Bytes
  | [] => some []
  | w :: x :: y :: z :: s => do
    let i ← sextet w
    let j ← sextet x
    if s = [] ∧ z = 61 then
      if y = 61 then some [i <<< 2 ||| j >>> 4]
      else
        let k ← sextet y
        some [i <<< 2 ||| j >>> 4, j <<< 4 ||| k >>> 2]
    else
      let k ← sextet y
      let l ← sextet z
      let data ← base64_decode s
      some ([i <<< 2 ||| j >>> 4, j <<< 4 ||| k >>> 2, k <<< 6 ||| l] ++ data)
  | _ => none

/-- The table has a character of its own for each number. -/
theorem sextet_sEncodingTable {i : UInt8} (h : i.toNat < 64) :
    sextet (sEncodingTable i) = some i := by
  have hall : ∀ n : Fin 64, sextet (sEncodingTable n.val.toUInt8) = some n.val.toUInt8 := by
    decide +kernel
  have hi := hall ⟨i.toNat, h⟩
  rwa [show i.toNat.toUInt8 = i from UInt8.ofNat_toNat] at hi

/-- The character that fills up is not in the table. -/
theorem sEncodingTable_ne_pad {i : UInt8} (h : i.toNat < 64) : sEncodingTable i ≠ 61 := by
  have hall : ∀ n : Fin 64, sEncodingTable n.val.toUInt8 ≠ 61 := by
    decide +kernel
  have hi := hall ⟨i.toNat, h⟩
  rwa [show i.toNat.toUInt8 = i from UInt8.ofNat_toNat] at hi

/-! ### Groups of three bytes -/

/-- What six bits are read as. -/
theorem ext_bits {x y : UInt8} (h : ∀ i < 8, x.toBitVec.getLsbD i = y.toBitVec.getLsbD i) :
    x = y := by
  rw [← UInt8.toBitVec_inj]
  exact BitVec.eq_of_getLsbD_eq h

/-- Six bits and two more are the first byte. -/
theorem first_of_sextets (a b : UInt8) :
    (a >>> 2 &&& 0x3F) <<< 2 ||| ((a &&& 0x3) <<< 4 ||| (b &&& 0xF0) >>> 4) >>> 4 = a := by
  refine ext_bits fun i hi ↦ ?_
  interval_cases i <;> simp

/-- Four bits and four more are the second. -/
theorem second_of_sextets (a b c : UInt8) :
    ((a &&& 0x3) <<< 4 ||| (b &&& 0xF0) >>> 4) <<< 4 |||
      ((b &&& 0xF) <<< 2 ||| (c &&& 0xC0) >>> 6) >>> 2 = b := by
  refine ext_bits fun i hi ↦ ?_
  interval_cases i <;> simp

/-- Two bits and six more are the third. -/
theorem third_of_sextets (b c : UInt8) :
    ((b &&& 0xF) <<< 2 ||| (c &&& 0xC0) >>> 6) <<< 6 ||| (c &&& 0x3F) = c := by
  refine ext_bits fun i hi ↦ ?_
  interval_cases i <;> simp

/-- Six bits are below 64. -/
theorem lt_of_mask {x : UInt8} (h : x &&& 0x3F = x) : x.toNat < 64 := by
  rw [← h, UInt8.toNat_and]
  exact Nat.lt_of_le_of_lt Nat.and_le_right (by decide)

/-- The first index is within the table. -/
theorem sextet_first (a : UInt8) : (a >>> 2 &&& 0x3F).toNat < 64 := by
  refine lt_of_mask (ext_bits fun i hi ↦ ?_)
  interval_cases i <;> simp

/-- The second index. -/
theorem sextet_second (a b : UInt8) : ((a &&& 0x3) <<< 4 ||| (b &&& 0xF0) >>> 4).toNat < 64 := by
  refine lt_of_mask (ext_bits fun i hi ↦ ?_)
  interval_cases i <;> simp

/-- The third index. -/
theorem sextet_third (b c : UInt8) : ((b &&& 0xF) <<< 2 ||| (c &&& 0xC0) >>> 6).toNat < 64 := by
  refine lt_of_mask (ext_bits fun i hi ↦ ?_)
  interval_cases i <;> simp

/-- The fourth index. -/
theorem sextet_fourth (c : UInt8) : (c &&& 0x3F).toNat < 64 := by
  refine lt_of_mask (ext_bits fun i hi ↦ ?_)
  interval_cases i <;> simp

/-! ### The round trip -/

/-- Four characters of the table are read as the three bytes of their indices. -/
theorem base64_decode_group {i j k l : UInt8} (hi : i.toNat < 64) (hj : j.toNat < 64)
    (hk : k.toNat < 64) (hl : l.toNat < 64) (s : Str) :
    base64_decode ([sEncodingTable i, sEncodingTable j, sEncodingTable k, sEncodingTable l] ++ s) =
      (base64_decode s).map ([i <<< 2 ||| j >>> 4, j <<< 4 ||| k >>> 2, k <<< 6 ||| l] ++ ·) := by
  show base64_decode (_ :: _ :: _ :: _ :: s) = _
  rw [base64_decode, sextet_sEncodingTable hi, sextet_sEncodingTable hj]
  simp only [Option.bind_eq_bind, Option.bind_some]
  rw [if_neg fun h ↦ sEncodingTable_ne_pad hl h.2, sextet_sEncodingTable hk,
    sextet_sEncodingTable hl]
  rcases base64_decode s with _ | data
  · rfl
  · rfl

/-- One byte is filled up with two characters. -/
theorem base64_decode_one {i j : UInt8} (hi : i.toNat < 64) (hj : j.toNat < 64) :
    base64_decode ([sEncodingTable i, sEncodingTable j] ++ ascii "==") =
      some [i <<< 2 ||| j >>> 4] := by
  show base64_decode [_, _, 61, 61] = _
  rw [base64_decode, sextet_sEncodingTable hi, sextet_sEncodingTable hj]
  rfl

/-- Two bytes are filled up with one character. -/
theorem base64_decode_two {i j k : UInt8} (hi : i.toNat < 64) (hj : j.toNat < 64)
    (hk : k.toNat < 64) :
    base64_decode ([sEncodingTable i, sEncodingTable j, sEncodingTable k] ++ ascii "=") =
      some [i <<< 2 ||| j >>> 4, j <<< 4 ||| k >>> 2] := by
  show base64_decode [_, _, _, 61] = _
  rw [base64_decode, sextet_sEncodingTable hi, sextet_sEncodingTable hj]
  simp only [Option.bind_eq_bind, Option.bind_some]
  rw [if_pos ⟨trivial, trivial⟩, if_neg (sEncodingTable_ne_pad hk), sextet_sEncodingTable hk]
  rfl

/-- Reading gives back what was written. -/
theorem base64_decode_encode (data : Bytes) : base64_decode (base64_encode data) = some data := by
  induction data using base64_encode.induct with
  | case1 => rfl
  | case2 a =>
    have hsecond : (a &&& 0x3) <<< 4 = (a &&& 0x3) <<< 4 ||| ((0 : UInt8) &&& 0xF0) >>> 4 := by
      rw [UInt8.zero_and, UInt8.zero_shiftRight, UInt8.or_zero]
    rw [base64_encode, hsecond, base64_decode_one (sextet_first a) (sextet_second a 0),
      first_of_sextets]
  | case3 a b =>
    have hthird : (b &&& 0xF) <<< 2 = (b &&& 0xF) <<< 2 ||| ((0 : UInt8) &&& 0xC0) >>> 6 := by
      rw [UInt8.zero_and, UInt8.zero_shiftRight, UInt8.or_zero]
    rw [base64_encode, hthird, base64_decode_two (sextet_first a) (sextet_second a b)
      (sextet_third b 0), first_of_sextets, second_of_sextets]
  | case4 a b c data ih =>
    rw [base64_encode, base64_decode_group (sextet_first a) (sextet_second a b) (sextet_third b c)
      (sextet_fourth c), ih, first_of_sextets, second_of_sextets, third_of_sextets]
    rfl

/-- Four characters for every three bytes that are begun. -/
theorem length_base64_encode (data : Bytes) :
    (base64_encode data).length = 4 * ((data.length + 2) / 3) := by
  induction data using base64_encode.induct with
  | case1 => rfl
  | case2 a => simp [base64_encode, ascii]
  | case3 a b => simp [base64_encode, ascii]
  | case4 a b c data ih =>
    rw [base64_encode, List.length_append, ih]
    simp only [List.length_cons, List.length_nil]
    omega

/-- The text says the bytes, in four characters for every three of them that are begun. -/
theorem base64_encode_exact (data : Bytes) :
    (base64_encode data).length = 4 * ((data.length + 2) / 3) ∧
      base64_decode (base64_encode data) = some data :=
  ⟨length_base64_encode data, base64_decode_encode data⟩

/-- Different bytes are written differently. -/
theorem base64_encode_inj {data data' : Bytes} :
    base64_encode data = base64_encode data' ↔ data = data' := by
  refine ⟨fun h ↦ ?_, congrArg _⟩
  have hdecode := congrArg base64_decode h
  rw [base64_decode_encode, base64_decode_encode] at hdecode
  exact Option.some.inj hdecode

/-! ### Guids -/

/-- A `Guid`, with its fields in the order in which they lie in memory. -/
@[ext]
structure Guid where
  _a : Int32 := 0
  _b : Int16 := 0
  _c : Int16 := 0
  _d : UInt8 := 0
  _e : UInt8 := 0
  _f : UInt8 := 0
  _g : UInt8 := 0
  _h : UInt8 := 0
  _i : UInt8 := 0
  _j : UInt8 := 0
  _k : UInt8 := 0
  deriving DecidableEq, Repr

namespace Guid

/-- `Guid(const uint8_t b[16])` -/
def ofBytes (b : Vector UInt8 16) : Guid where
  _a := (b[3]!.toUInt32 <<< 24 ||| b[2]!.toUInt32 <<< 16 ||| b[1]!.toUInt32 <<< 8 |||
    b[0]!.toUInt32).toInt32
  _b := (b[5]!.toUInt32 <<< 8 ||| b[4]!.toUInt32).toUInt16.toInt16
  _c := (b[7]!.toUInt32 <<< 8 ||| b[6]!.toUInt32).toUInt16.toInt16
  _d := b[8]!
  _e := b[9]!
  _f := b[10]!
  _g := b[11]!
  _h := b[12]!
  _i := b[13]!
  _j := b[14]!
  _k := b[15]!

/-- The 16 bytes at the address of a guid. -/
def memory (g : Guid) : Bytes :=
  littleEndian 4 g._a.toUInt32.toNat ++ littleEndian 2 g._b.toUInt16.toNat ++
    littleEndian 2 g._c.toUInt16.toNat ++ [g._d, g._e, g._f, g._g, g._h, g._i, g._j, g._k]

/-- The string of a guid. -/
def toString (g : Guid) : Str :=
  base64_encode g.memory

/-- Compare each of the elements. -/
def equals (g other : Guid) : Bool :=
  if other._a ≠ g._a then false
  else if other._b ≠ g._b then false
  else if other._c ≠ g._c then false
  else if other._d ≠ g._d then false
  else if other._e ≠ g._e then false
  else if other._f ≠ g._f then false
  else if other._g ≠ g._g then false
  else if other._h ≠ g._h then false
  else if other._i ≠ g._i then false
  else if other._j ≠ g._j then false
  else if other._k ≠ g._k then false
  else true

/-- `equals` is equality. -/
theorem equals_iff_eq {g other : Guid} : g.equals other = true ↔ g = other := by
  rw [@eq_comm _ g other, Guid.ext_iff]
  simp only [equals, ne_eq, Bool.if_false_left, Bool.and_true, Bool.and_eq_true,
    Bool.not_eq_true', decide_eq_false_iff_not, Decidable.not_not]

/-- Numbers with the same bytes are the same. -/
theorem littleEndian_inj {k m n : ℕ} (hm : m < 256 ^ k) (hn : n < 256 ^ k) :
    littleEndian k m = littleEndian k n ↔ m = n := by
  refine ⟨fun h ↦ ?_, congrArg _⟩
  have hnumber := congrArg ofLittleEndian h
  rwa [ofLittleEndian_littleEndian, ofLittleEndian_littleEndian, Nat.mod_eq_of_lt hm,
    Nat.mod_eq_of_lt hn] at hnumber

/-- Guids with the same bytes are the same. -/
theorem memory_inj {g other : Guid} : g.memory = other.memory ↔ g = other := by
  refine ⟨fun h ↦ ?_, congrArg _⟩
  simp only [memory, List.append_assoc] at h
  obtain ⟨ha, h⟩ := List.append_inj h (by rw [length_littleEndian, length_littleEndian])
  obtain ⟨hb, h⟩ := List.append_inj h (by rw [length_littleEndian, length_littleEndian])
  obtain ⟨hc, h⟩ := List.append_inj h (by rw [length_littleEndian, length_littleEndian])
  rw [littleEndian_inj (UInt32.toNat_lt _) (UInt32.toNat_lt _), UInt32.toNat_inj] at ha
  rw [littleEndian_inj (UInt16.toNat_lt _) (UInt16.toNat_lt _), UInt16.toNat_inj] at hb hc
  have ha := congrArg UInt32.toInt32 ha
  have hb := congrArg UInt16.toInt16 hb
  have hc := congrArg UInt16.toInt16 hc
  rw [Int32.toInt32_toUInt32, Int32.toInt32_toUInt32] at ha
  rw [Int16.toInt16_toUInt16, Int16.toInt16_toUInt16] at hb hc
  simp only [List.cons.injEq, and_true] at h
  exact Guid.ext ha hb hc h.1 h.2.1 h.2.2.1 h.2.2.2.1 h.2.2.2.2.1 h.2.2.2.2.2.1 h.2.2.2.2.2.2.1
    h.2.2.2.2.2.2.2

/-- The bytes of a word in memory. -/
theorem littleEndian_word (a b c d : UInt8) :
    littleEndian 4 (a.toUInt32 <<< 24 ||| b.toUInt32 <<< 16 ||| c.toUInt32 <<< 8 |||
      d.toUInt32).toNat = [d, c, b, a] := by
  have hor : ∀ w x y z : UInt32, w ||| x ||| y ||| z = z ||| y ||| x ||| w := by
    intro w x y z
    ac_rfl
  have hlt : ofBigEndian [a, b, c, d] < 2 ^ 32 := by
    simpa using ofBigEndian_lt [a, b, c, d]
  have hbytes : bigEndian 4 (ofBigEndian [a, b, c, d]) = [a, b, c, d] :=
    bigEndian_ofBigEndian [a, b, c, d]
  rw [hor, SHA1.or_bytes, Nat.toUInt32, UInt32.toNat_ofNat', Nat.mod_eq_of_lt hlt, littleEndian,
    hbytes]
  rfl

/-- Two bytes in a word are stored in the other order. -/
theorem littleEndian_half (c d : UInt8) :
    littleEndian 2 (c.toUInt32 <<< 8 ||| d.toUInt32).toUInt16.toNat = [d, c] := by
  have hd := d.toNat_lt
  have hlt : ofBigEndian [c, d] < 2 ^ 16 := by
    simpa using ofBigEndian_lt [c, d]
  have hbytes : bigEndian 2 (ofBigEndian [c, d]) = [c, d] := bigEndian_ofBigEndian [c, d]
  have hnumber : (c.toUInt32 <<< 8 ||| d.toUInt32).toUInt16.toNat = ofBigEndian [c, d] := by
    rw [UInt32.toNat_toUInt16, UInt32.toNat_or, UInt32.toNat_shiftLeft, UInt8.toNat_toUInt32,
      UInt8.toNat_toUInt32, Nat.or_comm]
    show (d.toNat ||| c.toNat <<< 8 % 2 ^ 32) % 2 ^ 16 = _
    rw [SHA1.toNat_shiftLeft_byte c (by omega), SHA1.or_shiftLeft _ hd]
    rw [ofBigEndian, List.foldl_cons, List.foldl_cons, List.foldl_nil] at hlt ⊢
    omega
  rw [hnumber, littleEndian, hbytes]
  rfl

/-- A guid that is made of bytes lies in memory as these bytes. -/
theorem memory_ofBytes (b : Vector UInt8 16) : (ofBytes b).memory = b.toList := by
  simp only [memory, ofBytes, UInt32.toUInt32_toInt32, UInt16.toUInt16_toInt16]
  rw [littleEndian_word, littleEndian_half, littleEndian_half]
  refine List.ext_getElem (by simp) fun i hi _ ↦ ?_
  rw [Vector.getElem_toList]
  have hi : i < 16 := hi
  interval_cases i <;> rfl

/-- Guids are equal if their strings are. -/
theorem equals_iff (g other : Guid) : g.equals other = true ↔ g.toString = other.toString := by
  rw [equals_iff_eq, toString, toString, base64_encode_inj, memory_inj]

/-- The string of the key: 24 characters that say the bytes that the guid was made of. -/
theorem toString_ofBytes (b : Vector UInt8 16) :
    (ofBytes b).toString.length = 24 ∧ base64_decode (ofBytes b).toString = some b.toList := by
  rw [toString, memory_ofBytes, length_base64_encode, Vector.length_toList, base64_decode_encode]
  exact ⟨rfl, rfl⟩

end Guid

end WebSockets
