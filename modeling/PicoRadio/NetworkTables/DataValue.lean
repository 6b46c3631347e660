import PicoRadio.Msgpack.Packer

/-!
# Values of topics

`NTDataType` and `NTDataValue`. A value is a tag and *all* the members of the source's struct: the
members of the union share one 64-bit cell, the others exist side by side whatever the tag says.
Assigning to a member the tag does not select is possible and the source does it (the meta topics
set `bin` directly), so the struct is not turned into a sum type.

Floating-point payloads are their bit patterns; copying a value copies bits. Their msgpack encoding
is computed by `modf`, `ilogb` and `scalbn` of the C library and is a parameter, `FloatCodec`.
-/

/-- The type codes. A received type byte is cast to the enumeration unchecked, so every byte is
one. -/
inductive NTDataType
  | bool | float64 | int | float32 | str | bin | uint | json | raw | msgpack | protobuf
  | boolArray | float64Array | intArray | float32Array | strArray
  | unassigned
  | unlisted (code : UInt8)
  deriving DecidableEq, Repr

namespace NTDataType

/-- The cast from a byte. -/
def ofCode (code : UInt8) : NTDataType :=
  if code = 0 then bool else if code = 1 then float64 else if code = 2 then int
  else if code = 3 then float32 else if code = 4 then str else if code = 5 then bin
  else if code = 6 then uint else if code = 7 then json else if code = 8 then raw
  else if code = 9 then msgpack else if code = 10 then protobuf
  else if code = 16 then boolArray else if code = 17 then float64Array
  else if code = 18 then intArray else if code = 19 then float32Array
  else if code = 20 then strArray else if code = 99 then unassigned
  else unlisted code

/-- The cast to a byte. -/
def code : NTDataType → UInt8
  | bool => 0 | float64 => 1 | int => 2 | float32 => 3 | str => 4 | bin => 5
  | uint => 6 | json => 7 | raw => 8 | msgpack => 9 | protobuf => 10
  | boolArray => 16 | float64Array => 17 | intArray => 18 | float32Array => 19 | strArray => 20
  | unassigned => 99
  | unlisted code => code

/-- `getAPIType`. -/
def apiType : NTDataType → NTDataType
  | uint => int
  | json => str
  | raw | msgpack | protobuf => bin
  | type => type

/-- `serializeDataType`. -/
def serialize : NTDataType → Str
  | bool => ascii "boolean"
  | float64 => ascii "double"
  | int | uint => ascii "int"
  | float32 => ascii "float"
  | str => ascii "string"
  | json => ascii "json"
  | bin | raw => ascii "raw"
  | msgpack => ascii "msgpack"
  | protobuf => ascii "protobuf"
  | boolArray => ascii "boolean[]"
  | float64Array => ascii "double[]"
  | intArray => ascii "int[]"
  | float32Array => ascii "float[]"
  | strArray => ascii "string[]"
  | unassigned | unlisted _ => []

end NTDataType

/-- The msgpack encoding of floating-point values, from their bits. -/
class FloatCodec where
  /-- `pack_type(const double &)`. -/
  packFloat64 : UInt64 → Bytes
  /-- `pack_type(const float &)`. -/
  packFloat32 : UInt32 → Bytes

/-- The encoding of values with a fractional part: the tag and the bits themselves. -/
@[reducible] def FloatCodec.fractional : FloatCodec where
  packFloat64 bits := 0xcb :: bigEndian 8 bits.toNat
  packFloat32 bits := 0xca :: bigEndian 4 bits.toNat

/-- `NTDataValue`. `bits` is the cell of the union. -/
structure NTDataValue where
  type : NTDataType
  bits : UInt64 := 0
  str : Str := []
  bArray : List Bool := []
  f64Array : List UInt64 := []
  iArray : List Int64 := []
  f32Array : List UInt32 := []
  strArray : List Str := []
  bin : Bytes := []
  deriving DecidableEq

namespace NTDataValue

/-! ### The union -/

/-- Reading the union as `b`. -/
def b (v : NTDataValue) : Bool :=
  v.bits.toUInt8 ≠ 0

/-- Writing `b` writes one byte of the union. -/
def setB (v : NTDataValue) (b : Bool) : NTDataValue :=
  { v with bits := (v.bits &&& ~~~0xff) ||| b.toUInt64 }

/-- Reading the union as the bits of `f32`. -/
def f32 (v : NTDataValue) : UInt32 :=
  v.bits.toUInt32

/-- Writing `f32` writes four bytes of the union. -/
def setF32 (v : NTDataValue) (f32 : UInt32) : NTDataValue :=
  { v with bits := (v.bits &&& ~~~0xffffffff) ||| f32.toUInt64 }

/-- Reading the union as `i`. -/
def i (v : NTDataValue) : Int64 :=
  v.bits.toInt64

/-! ### Types, assignment and packing -/

/-- `getAPIType`. -/
def getAPIType (v : NTDataValue) : NTDataType :=
  v.type.apiType

/-- `isValid`. -/
def isValid (v : NTDataValue) : Bool :=
  v.type ≠ .unassigned

/-- Copying the member that the tag of the other value selects. -/
def copyMember (v other : NTDataValue) : NTDataValue :=
  match other.type with
  | .bool => v.setB other.b
  | .float64 | .int | .uint => { v with bits := other.bits }
  | .float32 => v.setF32 other.f32
  | .str | .json => { v with str := other.str }
  | .bin | .raw | .msgpack | .protobuf => { v with bin := other.bin }
  | .boolArray => { v with bArray := other.bArray }
  | .float64Array => { v with f64Array := other.f64Array }
  | .intArray => { v with iArray := other.iArray }
  | .float32Array => { v with f32Array := other.f32Array }
  | .strArray => { v with strArray := other.strArray }
  | .unassigned | .unlisted _ => v

/-- `assign`, after its assertion that the other value is valid: an invalid value takes the other
type first, and a member is copied only between values of one API type. -/
def assign (v other : NTDataValue) : NTDataValue :=
  let v := if v.isValid then v else { v with type := other.type }
  if v.getAPIType = other.getAPIType then v.copyMember other else v

@[simp]
theorem type_copyMember (v other : NTDataValue) : (v.copyMember other).type = v.type := by
  unfold copyMember
  split <;> rfl

/-- A valid value keeps its type when it is assigned to. -/
theorem type_assign {v : NTDataValue} (h : v.isValid) (other : NTDataValue) :
    (v.assign other).type = v.type := by
  unfold assign
  rw [if_pos h]
  dsimp only
  split
  · exact type_copyMember v other
  · rfl

/-- A value that was assigned a valid one is valid. -/
theorem isValid_assign {v other : NTDataValue} (h : other.isValid) : (v.assign other).isValid := by
  have hv : (if v.isValid then v else { v with type := other.type }).isValid := by
    split
    · assumption
    · exact h
  unfold assign
  dsimp only
  generalize (if v.isValid then v else { v with type := other.type }) = v' at hv ⊢
  split
  · rwa [isValid, type_copyMember]
  · exact hv

/-- `pack`. -/
def pack [FloatCodec] (v : NTDataValue) : Bytes :=
  match v.type with
  | .bool => Msgpack.packBool v.b
  | .float64 => FloatCodec.packFloat64 v.bits
  | .int => Msgpack.packInt64 v.i
  | .float32 => FloatCodec.packFloat32 v.f32
  | .str | .json => Msgpack.packString v.str
  | .bin | .raw | .msgpack | .protobuf => Msgpack.packBin v.bin
  | .uint => Msgpack.packUInt64 v.bits
  | .boolArray => Msgpack.packArray Msgpack.packBool v.bArray
  | .float64Array => Msgpack.packArray FloatCodec.packFloat64 v.f64Array
  | .intArray => Msgpack.packArray Msgpack.packInt64 v.iArray
  | .float32Array => Msgpack.packArray FloatCodec.packFloat32 v.f32Array
  | .strArray => Msgpack.packArray Msgpack.packString v.strArray
  | .unassigned | .unlisted _ => []

end NTDataValue
