import PicoRadio.Bytes

/-!
# The msgpack packer

`msgpack::Packer`: one function for each overload of `pack_type` the instance uses, each returning
the bytes it appends. The encoding of an integer is chosen by its magnitude, the header of a
string, a buffer or an array by its length; the largest length class is left out by the source
("give up"), and then nothing at all is appended, not even the payload.

With `nvp_packing` a record is a map from field names to values: a map header with the number of
fields, then each name and value (`packNvp`).
-/

namespace Msgpack

/-! ### Integers -/

/-- A byte up to 127 stands for itself. -/
def packUInt8 (value : UInt8) : Bytes :=
  if value ≤ 0x7f then [value] else [0xcc, value]

/-- What fits into one byte is packed as one. -/
def packUInt16 (value : UInt16) : Bytes :=
  if value > 0xff then 0xcd :: bigEndian 2 value.toNat else packUInt8 value.toUInt8

/-- What fits into two bytes is packed so. -/
def packUInt32 (value : UInt32) : Bytes :=
  if value > 0xffff then 0xce :: bigEndian 4 value.toNat else packUInt16 value.toUInt16

def packUInt64 (value : UInt64) : Bytes :=
  if value > 0xffffffff then 0xcf :: bigEndian 8 value.toNat else packUInt32 value.toUInt32

/-- From -32 to 31 a byte stands for itself. -/
def packInt8 (value : Int8) : Bytes :=
  (if value > 31 ∨ value < -32 then [0xd0] else []) ++ [value.toUInt8]

/-- What fits into one byte is packed as one, by its magnitude. -/
def packInt16 (value : Int16) : Bytes :=
  -- `abs` promotes to `int`, so it does not overflow
  if value.toInt.natAbs < 128 then packInt8 value.toInt8
  else 0xd1 :: bigEndian 2 value.toUInt16.toNat

/-- The magnitude is taken in 32 bits, where the smallest integer has none. -/
def packInt32 (value : Int32) : Bytes :=
  -- `abs(INT32_MIN)` overflows; it wraps here
  if value.abs < 32768 then packInt16 value.toInt16
  else 0xd2 :: bigEndian 4 value.toUInt32.toNat

def packInt64 (value : Int64) : Bytes :=
  if value.abs < 2147483648 ∧ value ≠ Int64.minValue then packInt32 value.toInt32
  else 0xd3 :: bigEndian 8 value.toUInt64.toNat

/-- One byte for either. -/
def packBool (value : Bool) : Bytes :=
  [if value then 0xc3 else 0xc2]

/-! ### Headers, strings and containers -/

/-- `pack_array_header`. -/
def packArrayHeader (size : ℕ) : Bytes :=
  if size < 16 then [size.toUInt8 ||| 0x90]
  else if size < 0xffff then 0xdc :: bigEndian 2 size
  else if size < 0xffffffff then 0xdd :: bigEndian 4 size
  else []

/-- The header of a map of fewer than sixteen entries; the source packs no larger one. -/
def packMapHeader (size : ℕ) : Bytes :=
  [size.toUInt8 ||| 0x80]

/-- `pack_type(const std::string &)`. -/
def packString (value : Str) : Bytes :=
  if value.length < 32 then (value.length.toUInt8 ||| 0xa0) :: value
  else if value.length < 0xff then 0xd9 :: value.length.toUInt8 :: value
  else if value.length < 0xffff then 0xda :: bigEndian 2 value.length ++ value
  else if value.length < 0xffffffff then 0xdb :: bigEndian 4 value.length ++ value
  else []

/-- `pack_type(const std::vector<uint8_t> &)`. -/
def packBin (value : Bytes) : Bytes :=
  if value.length < 0xff then 0xc4 :: value.length.toUInt8 :: value
  else if value.length < 0xffff then 0xc5 :: bigEndian 2 value.length ++ value
  else if value.length < 0xffffffff then 0xc6 :: bigEndian 4 value.length ++ value
  else []

/-- `pack_array`: the header, then each element. -/
def packArray {α : Type} (packElem : α → Bytes) (value : List α) : Bytes :=
  packArrayHeader value.length ++ value.flatMap packElem

/-- `operator()` with `nvp_packing`: the fields of a record, each already packed, under their
names. -/
def packNvp (fields : List (Str × Bytes)) : Bytes :=
  packMapHeader fields.length ++ fields.flatMap fun f ↦ packString f.1 ++ f.2

end Msgpack
