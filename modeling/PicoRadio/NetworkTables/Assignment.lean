import PicoRadio.NetworkTables.UpdateRoundTrip

/-!
# Assigning values

`assign` copies the member that the tag of the other value selects, later reads go by the value's
own tag. Where the two tags differ they select the same member, but for `Int` and `UInt`: these
share the cell of the union and read it differently, so an integer that only one of them can hold is
another one afterwards.

## The members of the union

The source keeps the scalars in one union and the other members beside it. `bits` is the cell of
the union and every scalar member is a way to read it, so a write through one member and a read
through another go through the same bits. The lemmas below say which member an assignment copies
and what is read afterwards; `content` is what a reader gets who goes by the tag.
-/

namespace NTDataValue

variable {v w : NTDataValue}

/-- The value takes the contents of the other, or is left alone if it has another API type. -/
def Takes (v w : NTDataValue) : Prop :=
  if v.isValid ∧ v.getAPIType ≠ w.getAPIType then v.assign w = v
  else (v.assign w).type = (if v.isValid then v.type else w.type) ∧
    (v.assign w).content = w.content

/-- The contents of the value are an integer that the other type cannot hold. -/
def OutOfRange (type : NTDataType) (w : NTDataValue) : Prop :=
  (type = .int ∧ w.type = .uint ∧ 2 ^ 63 ≤ w.bits.toNat) ∨
    (type = .uint ∧ w.type = .int ∧ w.i.toInt < 0)

/-! ### The union -/

/-- A boolean takes the low byte and is read back. -/
theorem setB_b (v : NTDataValue) (b : Bool) : (v.setB b).b = b := by
  have hlow : ((v.bits &&& ~~~0xff) ||| b.toUInt64).toUInt8 = b.toUInt8 := by
    have hmask : (~~~(0xff : UInt64)).toUInt8 = 0 := by decide
    rw [UInt64.toUInt8_or, UInt64.toUInt8_and, hmask, UInt8.and_zero, UInt8.zero_or]
    cases b <;> rfl
  rw [setB, NTDataValue.b]
  dsimp only
  rw [hlow]
  cases b <;> rfl

/-- A float takes the low half and is read back. -/
theorem setF32_f32 (v : NTDataValue) (f32 : UInt32) : (v.setF32 f32).f32 = f32 := by
  have hmask : (~~~(0xffffffff : UInt64)).toUInt32 = 0 := by decide
  rw [setF32, NTDataValue.f32]
  dsimp only
  rw [UInt64.toUInt32_or, UInt64.toUInt32_and, hmask, UInt32.and_zero, UInt32.zero_or,
    UInt32.toUInt32_toUInt64]

/-- The cell as a signed number. -/
theorem toInt_i (v : NTDataValue) :
    v.i.toInt = if v.bits.toNat < 2 ^ 63 then (v.bits.toNat : ℤ) else v.bits.toNat - 2 ^ 64 := by
  have htoInt : v.i.toInt = v.bits.toBitVec.toInt := rfl
  have htoNat : v.bits.toNat = v.bits.toBitVec.toNat := rfl
  rw [htoInt, htoNat, BitVec.toInt_eq_toNat_cond]
  have hcond : 2 * v.bits.toBitVec.toNat < 2 ^ 64 ↔ v.bits.toBitVec.toNat < 2 ^ 63 := by omega
  simp only [hcond]
  norm_num

/-- The two readings of the cell agree unless the sign bit is set. -/
theorem toInt_i_eq_iff (v : NTDataValue) : v.i.toInt = v.bits.toNat ↔ v.bits.toNat < 2 ^ 63 := by
  have h := v.toInt_i
  split at h <;> omega

/-- The signed reading is negative exactly where the sign bit is set. -/
theorem toInt_i_neg_iff (v : NTDataValue) : v.i.toInt < 0 ↔ ¬v.bits.toNat < 2 ^ 63 := by
  have h := v.toInt_i
  have hlt := v.bits.toNat_lt
  split at h <;> omega

/-! ### Copying -/

/-- A copied member is read as it was under the tag of the other value. -/
theorem content_copyMember_of_type (h : v.type = w.type) :
    (v.copyMember w).content = w.content := by
  have htype : (v.copyMember w).type = w.type := (type_copyMember v w).trans h
  rw [content, content, htype]
  rw [copyMember]
  cases w.type with
  | bool => exact congrArg Content.boolean (setB_b v w.b)
  | float32 =>
    exact congrArg (fun f32 : UInt32 ↦ Content.floating [f32.toUInt64]) (setF32_f32 v w.f32)
  | float64 | int | uint | str | json | bin | raw | msgpack | protobuf | boolArray | float64Array
  | intArray | float32Array | strArray | unassigned | unlisted => rfl

/-- Two types of one API type are the same, or the integer types, or the text types, or the buffer
types. -/
theorem apiType_cases {type type' : NTDataType} (h : type.apiType = type'.apiType) :
    type = type' ∨ (type = .int ∧ type' = .uint) ∨ (type = .uint ∧ type' = .int) ∨
      (type.apiType = .str ∧ type'.apiType = .str) ∨
        (type.apiType = .bin ∧ type'.apiType = .bin) := by
  cases type with
  | bool | float64 | int | float32 | str | bin | uint | json | raw | msgpack | protobuf
  | boolArray | float64Array | intArray | float32Array | strArray | unassigned | unlisted =>
    cases type' <;> simp_all [NTDataType.apiType]

/-- A string, or a type that is kept as one. -/
theorem content_of_str (h : v.type.apiType = .str) : v.content = .string v.str := by
  rw [content]
  cases htype : v.type <;> simp_all [NTDataType.apiType]

/-- Raw bytes, or a type that is kept as such. -/
theorem content_of_bin (h : v.type.apiType = .bin) : v.content = .buffer v.bin := by
  rw [content]
  cases htype : v.type <;> simp_all [NTDataType.apiType]

/-- The string is copied. -/
theorem str_copyMember (h : w.type.apiType = .str) : (v.copyMember w).str = w.str := by
  rw [copyMember]
  cases htype : w.type <;> simp_all [NTDataType.apiType]

/-- The bytes are copied. -/
theorem bin_copyMember (h : w.type.apiType = .bin) : (v.copyMember w).bin = w.bin := by
  rw [copyMember]
  cases htype : w.type <;> simp_all [NTDataType.apiType]

/-- The whole cell is copied, whichever of the two integers it holds. -/
theorem bits_copyMember (h : w.type.apiType = .int) : (v.copyMember w).bits = w.bits := by
  rw [copyMember]
  cases htype : w.type <;> simp_all [NTDataType.apiType]

/-- The signed reading. -/
theorem content_of_int (h : v.type = .int) : v.content = .integer v.i.toInt := by
  rw [content, h]

/-- The unsigned reading. -/
theorem content_of_uint (h : v.type = .uint) : v.content = .integer v.bits.toNat := by
  rw [content, h]

/-- The types of one API type select the same member, and read it alike unless they are `Int` and
`UInt`. -/
theorem content_copyMember (h : v.type.apiType = w.type.apiType) :
    (v.copyMember w).content = w.content ↔ ¬OutOfRange v.type w := by
  have htype := type_copyMember v w
  rcases apiType_cases h with heq | ⟨hv, hw⟩ | ⟨hv, hw⟩ | ⟨hv, hw⟩ | ⟨hv, hw⟩
  · refine iff_of_true (content_copyMember_of_type heq) ?_
    rintro (⟨hv, hw, -⟩ | ⟨hv, hw, -⟩)
    · exact absurd (hv.symm.trans (heq.trans hw)) (by decide)
    · exact absurd (hv.symm.trans (heq.trans hw)) (by decide)
  · have hbits : (v.copyMember w).bits = w.bits := bits_copyMember (by rw [hw]; rfl)
    have hread := toInt_i_eq_iff (v.copyMember w)
    rw [hbits] at hread
    rw [content_of_int (htype.trans hv), content_of_uint hw,
      Content.integer.injEq, hread, OutOfRange,
      hv, hw]
    simp
  · have hbits : (v.copyMember w).bits = w.bits := bits_copyMember (by rw [hw]; rfl)
    have hread := toInt_i_eq_iff w
    rw [content_of_uint (htype.trans hv), content_of_int hw, Content.integer.injEq, hbits, eq_comm,
      hread, OutOfRange, hv, hw, toInt_i_neg_iff]
    simp
  · refine iff_of_true ?_ ?_
    · rw [content_of_str (by rw [htype, hv]), content_of_str hw, str_copyMember hw]
    · rintro (⟨hint, -⟩ | ⟨huint, -⟩)
      · exact absurd hv (by rw [hint]; decide)
      · exact absurd hv (by rw [huint]; decide)
  · refine iff_of_true ?_ ?_
    · rw [content_of_bin (by rw [htype, hv]), content_of_bin hw, bin_copyMember hw]
    · rintro (⟨hint, -⟩ | ⟨huint, -⟩)
      · exact absurd hv (by rw [hint]; decide)
      · exact absurd hv (by rw [huint]; decide)

/-- **A value takes the contents of another exactly if its type can hold them.** -/
theorem takes_iff : v.Takes w ↔ ¬(v.isValid ∧ OutOfRange v.type w) := by
  by_cases hv : v.isValid
  · have hassign : v.assign w = if v.getAPIType = w.getAPIType then v.copyMember w else v := by
      rw [assign, if_pos hv]
    by_cases hapi : v.getAPIType = w.getAPIType
    · have hcopy := content_copyMember hapi
      rw [Takes, if_neg fun h ↦ h.2 hapi, hassign, if_pos hapi, if_pos hv, hcopy]
      simp [hv]
    · rw [Takes, if_pos ⟨hv, hapi⟩, hassign, if_neg hapi]
      refine iff_of_true rfl ?_
      rintro ⟨-, ⟨hint, huint, -⟩ | ⟨huint, hint, -⟩⟩
      · exact hapi (by rw [getAPIType, getAPIType, hint, huint]; rfl)
      · exact hapi (by rw [getAPIType, getAPIType, hint, huint]; rfl)
  · -- an unassigned value has the type of the other when the member is copied
    have hassign : v.assign w = copyMember { v with type := w.type } w := by
      rw [assign, if_neg hv]
      exact if_pos rfl
    have hcontent : (copyMember { v with type := w.type } w).content = w.content :=
      content_copyMember_of_type rfl
    rw [Takes, if_neg fun h ↦ hv h.1, hassign, if_neg hv, type_copyMember]
    exact iff_of_true ⟨rfl, hcontent⟩ fun h ↦ hv h.1

/-- The largest signed integer plus one, sent as an unsigned one. -/
def tooLarge : NTDataValue where
  type := .uint
  bits := 0x8000000000000000

/-- A signed value reads it as a negative integer. -/
theorem tooLarge_misread :
    ¬∀ v w : NTDataValue, w.isValid → v.Takes w := by
  intro h
  have htakes := h { type := .int } tooLarge (by decide)
  rw [Takes, if_neg (by decide)] at htakes
  exact absurd htakes.2 (by decide)

end NTDataValue
