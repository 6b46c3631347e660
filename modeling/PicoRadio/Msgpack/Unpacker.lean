import PicoRadio.Bytes
import PicoRadio.Library.Stateful

/-!
# The msgpack unpacker

`msgpack::Unpacker`: one function for each overload of `unpack_type` the instance uses. It reads
through a pointer that is checked against the end of the data: reading at the end gives `0` and the
error `OutOfRange`. Advancing checks the pointer *before* it moves, so that it can come to stand one
byte beyond the end.

The unpacker does not stop at an error. It goes on with what it has read, and a later error
replaces an earlier one.

What becomes of the bits of a floating-point value is a parameter, `FloatDecoder`.
-/

namespace Msgpack

/-- `UnpackerError`. -/
inductive UnpackerError
  | outOfRange
  | badInput
  deriving DecidableEq, Repr

/-- `Unpacker`. The two pointers are the bytes between them; there are none if `data_pointer` is
one beyond the end. -/
structure Unpacker where
  rest : Option Bytes
  ec : Option UnpackerError := none
  deriving DecidableEq, Repr

namespace Unpacker

/-- `set_data` of a new unpacker. -/
def setData (data : Bytes) : Unpacker where
  rest := some data

/-- How far the pointer can still move. -/
def remaining (u : Unpacker) : ℕ :=
  match u.rest with
  | some data => data.length + 1
  | none => 0

/-- The error is recorded; the pointer does not move. -/
def fail (u : Unpacker) (error : UnpackerError) : Unpacker :=
  { u with ec := some error }

/-- `safe_data`. -/
def safeData : StateM Unpacker UInt8 := fun u ↦
  match u.rest with
  | some (byte :: _) => (byte, u)
  | some [] | none => (0, u.fail .outOfRange)

/-- `safe_increment`. -/
def safeIncrement (bytes : ℕ) : StateM Unpacker Unit := fun u ↦
  match u.rest with
  | some data =>
    ((), { u with rest := if bytes ≤ data.length then some (data.drop bytes) else none })
  | none => ((), u.fail .outOfRange)

/-- `ec = …`. -/
def setError (error : UnpackerError) : StateM Unpacker Unit := fun u ↦
  ((), u.fail error)

/-- The loops that put an integer together from `k` bytes, the most significant first. -/
def readBigEndian : ℕ → StateM Unpacker ℕ
  | 0 => pure 0
  | k + 1 => do
    let byte ← safeData
    safeIncrement 1
    let low ← readBigEndian k
    return byte.toNat * 2 ^ (8 * k) + low

/-- The end of the overloads for strings and buffers: `size` bytes if there are so many, else the
value stays empty. -/
def readBytes (size : ℕ) : StateM Unpacker Bytes := fun u ↦
  match u.rest with
  | some data =>
    if size ≤ data.length then (data.take size, { u with rest := some (data.drop size) })
    else ([], u.fail .outOfRange)
  | none => ([], u.fail .outOfRange)

/-! ### Headers -/

/-- `unpack_array_header`; `-1` is `none`. The last short header is `0x9a`. -/
def unpackArrayHeader : StateM Unpacker (Option ℕ) := do
  let tag ← safeData
  if tag = 0xdd then
    safeIncrement 1
    some <$> readBigEndian 4
  else if tag = 0xdc then
    safeIncrement 1
    some <$> readBigEndian 2
  else if 0x90 ≤ tag ∧ tag ≤ 0x9a then
    safeIncrement 1
    return some (tag &&& 0x0f).toNat
  else
    return none

/-- `is_next_unsigned`. -/
def isNextUnsigned : StateM Unpacker Bool := do
  let next ← safeData
  return next = 0xcc ∨ next = 0xcd ∨ next = 0xce ∨ next = 0xcf

/-! ### Integers -/

/-- The default case: the byte itself is the value. -/
def unpackByte : StateM Unpacker UInt8 := do
  let value ← safeData
  safeIncrement 1
  return value

/-- The overload for `uint8_t`. -/
def unpackUInt8 : StateM Unpacker UInt8 := do
  let flag ← safeData
  if flag = 0xcc ∨ flag = 0xd0 then
    safeIncrement 1
    unpackByte
  else
    unpackByte

/-- A byte that is none of the tags is taken for the integer. -/
def unpackInt8 : StateM Unpacker Int8 := do
  let flag ← safeData
  if flag = 0xd0 then
    safeIncrement 1
    UInt8.toInt8 <$> unpackByte
  else if flag = 0xcc then
    UInt8.toInt8 <$> unpackUInt8
  else
    UInt8.toInt8 <$> unpackByte

/-- The overload for `int16_t`: narrower forms are widened. -/
def unpackInt16 : StateM Unpacker Int16 := do
  let flag ← safeData
  if flag = 0xd1 then
    safeIncrement 1
    (fun bits ↦ bits.toUInt16.toInt16) <$> readBigEndian 2
  else if flag = 0xd0 then
    Int8.toInt16 <$> unpackInt8
  else if flag = 0xcc then
    (fun value ↦ value.toUInt16.toInt16) <$> unpackUInt8
  else
    (fun value ↦ value.toInt8.toInt16) <$> unpackByte

/-- The overload for `uint16_t`. -/
def unpackUInt16 : StateM Unpacker UInt16 := do
  let flag ← safeData
  if flag = 0xcd then
    safeIncrement 1
    Nat.toUInt16 <$> readBigEndian 2
  else if flag = 0xcc then
    UInt8.toUInt16 <$> unpackUInt8
  else if flag = 0xd1 then
    Int16.toUInt16 <$> unpackInt16
  else if flag = 0xd0 then
    (fun value ↦ value.toInt16.toUInt16) <$> unpackInt8
  else
    UInt8.toUInt16 <$> unpackByte

/-- The overload for `int32_t`. -/
def unpackInt32 : StateM Unpacker Int32 := do
  let flag ← safeData
  if flag = 0xd2 then
    safeIncrement 1
    (fun bits ↦ bits.toUInt32.toInt32) <$> readBigEndian 4
  else if flag = 0xd1 then
    Int16.toInt32 <$> unpackInt16
  else if flag = 0xd0 then
    Int8.toInt32 <$> unpackInt8
  else if flag = 0xcd then
    (fun value ↦ value.toUInt32.toInt32) <$> unpackUInt16
  else if flag = 0xcc then
    (fun value ↦ value.toUInt32.toInt32) <$> unpackUInt8
  else
    (fun value ↦ value.toInt8.toInt32) <$> unpackByte

/-- The overload for `uint32_t`. -/
def unpackUInt32 : StateM Unpacker UInt32 := do
  let flag ← safeData
  if flag = 0xce then
    safeIncrement 1
    Nat.toUInt32 <$> readBigEndian 4
  else if flag = 0xcd then
    UInt16.toUInt32 <$> unpackUInt16
  else if flag = 0xcc then
    UInt8.toUInt32 <$> unpackUInt8
  else if flag = 0xd2 then
    Int32.toUInt32 <$> unpackInt32
  else if flag = 0xd1 then
    (fun value ↦ value.toInt32.toUInt32) <$> unpackInt16
  else if flag = 0xd0 then
    (fun value ↦ value.toInt32.toUInt32) <$> unpackInt8
  else
    UInt8.toUInt32 <$> unpackByte

/-- The overload for `int64_t`. -/
def unpackInt64 : StateM Unpacker Int64 := do
  let flag ← safeData
  if flag = 0xd3 then
    safeIncrement 1
    (fun bits ↦ bits.toUInt64.toInt64) <$> readBigEndian 8
  else if flag = 0xd2 then
    Int32.toInt64 <$> unpackInt32
  else if flag = 0xd1 then
    Int16.toInt64 <$> unpackInt16
  else if flag = 0xd0 then
    Int8.toInt64 <$> unpackInt8
  else if flag = 0xce then
    (fun value ↦ value.toUInt64.toInt64) <$> unpackUInt32
  else if flag = 0xcd then
    (fun value ↦ value.toUInt64.toInt64) <$> unpackUInt16
  else if flag = 0xcc then
    (fun value ↦ value.toUInt64.toInt64) <$> unpackUInt8
  else
    (fun value ↦ value.toInt8.toInt64) <$> unpackByte

/-- All the narrower forms are read as well. -/
def unpackUInt64 : StateM Unpacker UInt64 := do
  let flag ← safeData
  if flag = 0xcf then
    safeIncrement 1
    Nat.toUInt64 <$> readBigEndian 8
  else if flag = 0xce then
    UInt32.toUInt64 <$> unpackUInt32
  else if flag = 0xcd then
    UInt16.toUInt64 <$> unpackUInt16
  else if flag = 0xcc then
    UInt8.toUInt64 <$> unpackUInt8
  else if flag = 0xd3 then
    Int64.toUInt64 <$> unpackInt64
  else if flag = 0xd2 then
    (fun value ↦ value.toInt64.toUInt64) <$> unpackInt32
  else if flag = 0xd1 then
    (fun value ↦ value.toInt64.toUInt64) <$> unpackInt16
  else if flag = 0xd0 then
    (fun value ↦ value.toInt64.toUInt64) <$> unpackInt8
  else
    UInt8.toUInt64 <$> unpackByte

/-! ### Other values -/

/-- The overload for `bool`, whose argument is `false` before. The error of a byte that is no
`bool` replaces `OutOfRange`. -/
def unpackBool : StateM Unpacker Bool := do
  let tag ← safeData
  if tag = 0xc3 then
    safeIncrement 1
    return true
  else if tag = 0xc2 then
    safeIncrement 1
    return false
  else
    setError .badInput
    safeIncrement 1
    return false

/-- The arithmetic of the overloads for floating-point values, on the bits of the results. -/
class FloatDecoder where
  /-- `ldexp(mantissa, exponent)` of the bits of a `double`. -/
  float64 : UInt64 → UInt64
  /-- `ldexp(mantissa, exponent)` of the bits of a `float`. -/
  float32 : UInt32 → UInt32
  /-- An integer where a `double` was expected, converted to `float` first. -/
  float64OfInt : Int64 → UInt64
  float64OfUInt : UInt64 → UInt64
  /-- An integer where a `float` was expected. -/
  float32OfInt : Int64 → UInt32
  float32OfUInt : UInt64 → UInt32

/-- The decoder of the numbers from one on, which come out as they went in. -/
@[reducible] def FloatDecoder.fractional : FloatDecoder where
  float64 bits := bits
  float32 bits := bits
  float64OfInt _ := 0
  float64OfUInt _ := 0
  float32OfInt _ := 0
  float32OfUInt _ := 0

/-- An integer is read too, and converted. -/
def unpackFloat32 [FloatDecoder] : StateM Unpacker UInt32 := do
  let tag ← safeData
  if tag = 0xca then
    safeIncrement 1
    (fun bits ↦ FloatDecoder.float32 bits.toUInt32) <$> readBigEndian 4
  else if tag = 0xd0 ∨ tag = 0xd1 ∨ tag = 0xd2 ∨ tag = 0xd3 then
    FloatDecoder.float32OfInt <$> unpackInt64
  else
    FloatDecoder.float32OfUInt <$> unpackUInt64

/-- The overload for `double`. -/
def unpackFloat64 [FloatDecoder] : StateM Unpacker UInt64 := do
  let tag ← safeData
  if tag = 0xcb then
    safeIncrement 1
    (fun bits ↦ FloatDecoder.float64 bits.toUInt64) <$> readBigEndian 8
  else if tag = 0xd0 ∨ tag = 0xd1 ∨ tag = 0xd2 ∨ tag = 0xd3 then
    FloatDecoder.float64OfInt <$> unpackInt64
  else
    FloatDecoder.float64OfUInt <$> unpackUInt64

/-- The size of a string. The size in a short header is taken from four of its five bits. -/
def unpackStringSize : StateM Unpacker ℕ := do
  let tag ← safeData
  if tag = 0xdb then
    safeIncrement 1
    readBigEndian 4
  else if tag = 0xda then
    safeIncrement 1
    readBigEndian 2
  else if tag = 0xd9 then
    safeIncrement 1
    readBigEndian 1
  else
    let tag ← unpackByte
    return (tag &&& 0x0f).toNat

/-- The length is in the tag, or in one, two or four bytes behind it. -/
def unpackString : StateM Unpacker Str := do
  let size ← unpackStringSize
  readBytes size

/-- The size of a buffer. Any other tag is read as the shortest one. -/
def unpackBinSize : StateM Unpacker ℕ := do
  let tag ← safeData
  if tag = 0xc6 then
    safeIncrement 1
    readBigEndian 4
  else if tag = 0xc5 then
    safeIncrement 1
    readBigEndian 2
  else
    safeIncrement 1
    readBigEndian 1

/-- The length is in one, two or four bytes behind the tag. -/
def unpackBin : StateM Unpacker Bytes := do
  let size ← unpackBinSize
  readBytes size

/-- The size of the array in `unpack_array`, which takes any other tag for a short header. -/
def unpackArraySize : StateM Unpacker ℕ := do
  let tag ← safeData
  if tag = 0xdd then
    safeIncrement 1
    readBigEndian 4
  else if tag = 0xdc then
    safeIncrement 1
    readBigEndian 2
  else
    let tag ← unpackByte
    return (tag &&& 0x0f).toNat

/-- The loop of `unpack_array`. -/
def unpackElements {α : Type} (unpackElem : StateM Unpacker α) : ℕ → StateM Unpacker (List α)
  | 0 => pure []
  | n + 1 => do
    let val ← unpackElem
    let vals ← unpackElements unpackElem n
    return val :: vals

/-- `unpack_array`: the elements one after the other. -/
def unpackArray {α : Type} (unpackElem : StateM Unpacker α) : StateM Unpacker (List α) := do
  let size ← unpackArraySize
  unpackElements unpackElem size

/-! ### Progress

The pointer never moves back. -/

/-- The order of the states of an unpacker that have less and less to read. -/
def Beyond (u u' : Unpacker) : Prop :=
  u'.remaining ≤ u.remaining

instance : Std.Refl Beyond :=
  ⟨fun _ ↦ le_rfl⟩

instance : IsTrans Unpacker Beyond :=
  ⟨fun _ _ _ h h' ↦ le_trans h' h⟩

/-- A byte is read, and the pointer stays. -/
theorem along_safeData : Along Beyond safeData := by
  intro u
  unfold safeData
  split <;> exact le_rfl

/-- An error does not move the pointer. -/
theorem along_setError (error : UnpackerError) : Along Beyond (setError error) :=
  fun _ ↦ le_rfl

/-- The pointer moves forward, or not at all. -/
theorem along_safeIncrement (bytes : ℕ) : Along Beyond (safeIncrement bytes) := by
  rintro ⟨rest, ec⟩
  cases rest with
  | none => exact le_rfl
  | some data =>
    show remaining ⟨if _ then _ else _, ec⟩ ≤ data.length + 1
    split
    · show (data.drop bytes).length + 1 ≤ data.length + 1
      rw [List.length_drop]
      omega
    · exact Nat.zero_le _

/-- Bytes are read up to the end. -/
theorem along_readBytes (size : ℕ) : Along Beyond (readBytes size) := by
  rintro ⟨rest, ec⟩
  cases rest with
  | none => exact le_rfl
  | some data =>
    show Beyond _ (Prod.snd (if _ then _ else _))
    split
    · show (data.drop size).length + 1 ≤ data.length + 1
      rw [List.length_drop]
      omega
    · exact le_rfl

/-- No function moves the pointer back. -/
theorem along_readBigEndian (k : ℕ) : Along Beyond (readBigEndian k) := by
  induction k with
  | zero => exact .pure 0
  | succ k ih =>
    exact along_safeData.bind fun _ ↦ (along_safeIncrement 1).bind fun _ ↦ ih.bind fun _ ↦ .pure _

theorem along_unpackByte : Along Beyond unpackByte :=
  along_safeData.bind fun _ ↦ (along_safeIncrement 1).bind fun _ ↦ .pure _

theorem along_unpackUInt8 : Along Beyond unpackUInt8 :=
  along_safeData.bind fun _ ↦
    .ite ((along_safeIncrement 1).bind fun _ ↦ along_unpackByte) along_unpackByte

/-- The number that follows a tag. -/
theorem along_number (k : ℕ) : Along Beyond (do safeIncrement 1; readBigEndian k) :=
  (along_safeIncrement 1).bind fun _ ↦ along_readBigEndian k

theorem along_unpackInt8 : Along Beyond unpackInt8 :=
  along_safeData.bind fun _ ↦
    .ite ((along_safeIncrement 1).bind fun _ ↦ along_unpackByte.map _) <|
    .ite (along_unpackUInt8.map _) (along_unpackByte.map _)

theorem along_unpackInt16 : Along Beyond unpackInt16 :=
  along_safeData.bind fun _ ↦
    .ite ((along_safeIncrement 1).bind fun _ ↦ (along_readBigEndian 2).map _) <|
    .ite (along_unpackInt8.map _) <| .ite (along_unpackUInt8.map _) (along_unpackByte.map _)

theorem along_unpackUInt16 : Along Beyond unpackUInt16 :=
  along_safeData.bind fun _ ↦
    .ite ((along_safeIncrement 1).bind fun _ ↦ (along_readBigEndian 2).map _) <|
    .ite (along_unpackUInt8.map _) <| .ite (along_unpackInt16.map _) <|
    .ite (along_unpackInt8.map _) (along_unpackByte.map _)

theorem along_unpackInt32 : Along Beyond unpackInt32 :=
  along_safeData.bind fun _ ↦
    .ite ((along_safeIncrement 1).bind fun _ ↦ (along_readBigEndian 4).map _) <|
    .ite (along_unpackInt16.map _) <| .ite (along_unpackInt8.map _) <|
    .ite (along_unpackUInt16.map _) <| .ite (along_unpackUInt8.map _) (along_unpackByte.map _)

theorem along_unpackUInt32 : Along Beyond unpackUInt32 :=
  along_safeData.bind fun _ ↦
    .ite ((along_safeIncrement 1).bind fun _ ↦ (along_readBigEndian 4).map _) <|
    .ite (along_unpackUInt16.map _) <| .ite (along_unpackUInt8.map _) <|
    .ite (along_unpackInt32.map _) <| .ite (along_unpackInt16.map _) <|
    .ite (along_unpackInt8.map _) (along_unpackByte.map _)

theorem along_unpackInt64 : Along Beyond unpackInt64 :=
  along_safeData.bind fun _ ↦
    .ite ((along_safeIncrement 1).bind fun _ ↦ (along_readBigEndian 8).map _) <|
    .ite (along_unpackInt32.map _) <| .ite (along_unpackInt16.map _) <|
    .ite (along_unpackInt8.map _) <| .ite (along_unpackUInt32.map _) <|
    .ite (along_unpackUInt16.map _) <| .ite (along_unpackUInt8.map _) (along_unpackByte.map _)

theorem along_unpackUInt64 : Along Beyond unpackUInt64 :=
  along_safeData.bind fun _ ↦
    .ite ((along_safeIncrement 1).bind fun _ ↦ (along_readBigEndian 8).map _) <|
    .ite (along_unpackUInt32.map _) <| .ite (along_unpackUInt16.map _) <|
    .ite (along_unpackUInt8.map _) <| .ite (along_unpackInt64.map _) <|
    .ite (along_unpackInt32.map _) <| .ite (along_unpackInt16.map _) <|
    .ite (along_unpackInt8.map _) (along_unpackByte.map _)

theorem along_unpackBool : Along Beyond unpackBool :=
  along_safeData.bind fun _ ↦
    .ite ((along_safeIncrement 1).bind fun _ ↦ .pure _) <|
    .ite ((along_safeIncrement 1).bind fun _ ↦ .pure _)
      ((along_setError _).bind fun _ ↦ (along_safeIncrement 1).bind fun _ ↦ .pure _)

theorem along_unpackFloat32 [FloatDecoder] : Along Beyond unpackFloat32 :=
  along_safeData.bind fun _ ↦
    .ite ((along_safeIncrement 1).bind fun _ ↦ (along_readBigEndian 4).map _) <|
    .ite (along_unpackInt64.map _) (along_unpackUInt64.map _)

theorem along_unpackFloat64 [FloatDecoder] : Along Beyond unpackFloat64 :=
  along_safeData.bind fun _ ↦
    .ite ((along_safeIncrement 1).bind fun _ ↦ (along_readBigEndian 8).map _) <|
    .ite (along_unpackInt64.map _) (along_unpackUInt64.map _)

theorem along_unpackString : Along Beyond unpackString := by
  refine .bind ?_ along_readBytes
  exact along_safeData.bind fun _ ↦
    .ite (along_number 4) <| .ite (along_number 2) <| .ite (along_number 1)
      (along_unpackByte.bind fun _ ↦ .pure _)

theorem along_unpackBin : Along Beyond unpackBin := by
  refine .bind ?_ along_readBytes
  exact along_safeData.bind fun _ ↦
    .ite (along_number 4) <| .ite (along_number 2) (along_number 1)

/-- A loop as long as the header says, and no longer than there are bytes to read. -/
theorem along_unpackElements {α : Type} {unpackElem : StateM Unpacker α}
    (h : Along Beyond unpackElem) (n : ℕ) : Along Beyond (unpackElements unpackElem n) := by
  induction n with
  | zero => exact .pure []
  | succ n ih => exact h.bind fun _ ↦ ih.bind fun _ ↦ .pure _

/-- Nor does an array, if its elements do not. -/
theorem along_unpackArray {α : Type} {unpackElem : StateM Unpacker α}
    (h : Along Beyond unpackElem) : Along Beyond (unpackArray unpackElem) := by
  refine .bind ?_ (along_unpackElements h)
  exact along_safeData.bind fun _ ↦
    .ite (along_number 4) <| .ite (along_number 2) (along_unpackByte.bind fun _ ↦ .pure _)

/-- The pointer stands at the header of an array, or there is nothing left to read. -/
def AtArray (u : Unpacker) : Prop :=
  match u.rest with
  | some (tag :: _) => tag = 0xdd ∨ tag = 0xdc ∨ 0x90 ≤ tag ∧ tag ≤ 0x9a
  | some [] | none => True

instance : DecidablePred AtArray
  | ⟨some (tag :: _), _⟩ =>
    inferInstanceAs (Decidable (tag = 0xdd ∨ tag = 0xdc ∨ 0x90 ≤ tag ∧ tag ≤ 0x9a))
  | ⟨some [], _⟩ | ⟨none, _⟩ => isTrue trivial

/-- A move that is made leaves less. -/
theorem remaining_safeIncrement {u : Unpacker} (h : u.rest ≠ none) :
    (safeIncrement 1 u).2.remaining < u.remaining := by
  obtain ⟨_ | data, ec⟩ := u
  · exact absurd rfl h
  · show remaining ⟨if _ then _ else _, ec⟩ < data.length + 1
    split
    · show (data.drop 1).length + 1 < data.length + 1
      rw [List.length_drop]
      omega
    · exact Nat.succ_pos _

/-- A header moves the pointer, unless there is nothing to read. -/
theorem unpackArrayHeader_progress {u : Unpacker} (h : u.AtArray) :
    (unpackArrayHeader u).2.remaining < u.remaining ∨
      (unpackArrayHeader u).1 = none ∧ (unpackArrayHeader u).2.ec = some .outOfRange := by
  obtain ⟨_ | _ | ⟨tag, data⟩, ec⟩ := u
  · exact .inr ⟨rfl, rfl⟩
  · exact .inr ⟨rfl, rfl⟩
  · have hnext := remaining_safeIncrement (u := ⟨some (tag :: data), ec⟩) (by simp)
    left
    show ((if _ then _ else _ : StateM Unpacker (Option ℕ))
      ⟨some (tag :: data), ec⟩).2.remaining < _
    split_ifs with h1 h2 h3
    · exact (along_readBigEndian 4 _).trans_lt hnext
    · exact (along_readBigEndian 2 _).trans_lt hnext
    · exact hnext
    · exact absurd h (by simp only [AtArray]; tauto)

/-- Where there is no array, the header is not read and no error recorded. -/
theorem unpackArrayHeader_of_not_atArray {u : Unpacker} (h : ¬u.AtArray) :
    unpackArrayHeader u = (none, u) := by
  obtain ⟨_ | _ | ⟨tag, data⟩, ec⟩ := u
  · exact absurd trivial h
  · exact absurd trivial h
  · simp only [AtArray, not_or] at h
    show (if _ then _ else _ : StateM Unpacker _) _ = _
    rw [if_neg h.1, if_neg h.2.1, if_neg h.2.2]
    rfl

end Unpacker

end Msgpack
