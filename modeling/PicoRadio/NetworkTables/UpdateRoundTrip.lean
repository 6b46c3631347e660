import PicoRadio.Msgpack.RoundTrip
import PicoRadio.NetworkTables.BinaryFrames

/-!
# Updates there and back

The bytes that `sendTopicUpdate` packs for a list of updates, read by the loop of the binary case.
The updates come back as they were if and only if none of their values holds a string of 16 to 31
bytes (`readsBack_iff`). The first such string ends the agreement: the unpacker takes too few bytes
for it.

An unsigned integer may come back as a signed one, and the types that share an API type come back as
that type, so values are compared by their contents.

## One update at a time

The updates of a frame are packed one behind the other with nothing between them, so each must be
read to its last byte for the next one to be found. `Msgpack` proves this of every type that is
packed here, whatever comes behind; only a string whose length is mistaken is not read to its end.
-/

open Msgpack Msgpack.Unpacker

/-! ### Contents -/

namespace NTDataValue

/-- What a value holds, whatever its type is called. -/
inductive Content
  | boolean (b : Bool)
  | integer (i : ℤ)
  | string (str : Str)
  | buffer (bin : Bytes)
  | booleans (bArray : List Bool)
  | integers (iArray : List Int64)
  | strings (strArray : List Str)
  | floating (bits : List UInt64)
  | nothing
  deriving DecidableEq

def content (v : NTDataValue) : Content :=
  match v.type with
  | .bool => .boolean v.b
  | .int => .integer v.i.toInt
  | .uint => .integer v.bits.toNat
  | .str | .json => .string v.str
  | .bin | .raw | .msgpack | .protobuf => .buffer v.bin
  | .boolArray => .booleans v.bArray
  | .intArray => .integers v.iArray
  | .strArray => .strings v.strArray
  | .float64 => .floating [v.bits]
  | .float32 => .floating [v.f32.toUInt64]
  | .float64Array => .floating v.f64Array
  | .float32Array => .floating (v.f32Array.map UInt32.toUInt64)
  | .unassigned | .unlisted _ => .nothing

/-- The strings in a value. -/
def strings (v : NTDataValue) : List Str :=
  match v.type with
  | .str | .json => [v.str]
  | .strArray => v.strArray
  | _ => []

/-- The value is of one of the types without floating-point numbers, and every length in it is one
the packer has a header for. -/
def Packable (v : NTDataValue) : Prop :=
  match v.type with
  | .bool | .int | .uint => True
  | .str | .json => v.str.length < 0xffffffff
  | .bin | .raw | .msgpack | .protobuf => v.bin.length < 0xffffffff
  | .boolArray => v.bArray.length < 0xffffffff
  | .intArray => v.iArray.length < 0xffffffff
  | .strArray => v.strArray.length < 0xffffffff ∧ ∀ s ∈ v.strArray, s.length < 0xffffffff
  | .float64 | .float32 | .float64Array | .float32Array | .unassigned | .unlisted _ => False

/-- The value has the type and the contents of the other. -/
def Same (v data : NTDataValue) : Prop :=
  data.getAPIType = v.getAPIType ∧ data.content = v.content

theorem b_setB (type : NTDataType) (b : Bool) : (setB { type } b).b = b := by
  have h : ∀ b : Bool, decide ((((0 : UInt64) &&& ~~~0xff) ||| b.toUInt64).toUInt8 ≠ 0) = b := by
    decide
  exact h b

/-! ### Values -/

section

variable [FloatDecoder] {v data : NTDataValue} {rest : Bytes} {ec : Option UnpackerError}

/-- The types whose reading does not look at the tag first. -/
theorem yields_ofUnpacker {type : NTDataType} {u u' : Unpacker} (h : Yields (unpack type) u data u')
    (htype : type ≠ .int) : Yields (ofUnpacker type) u data u' :=
  .if_neg htype h

theorem yields_ofUnpacker_int {unsigned : Bool} {u u' : Unpacker}
    (hnext : Yields isNextUnsigned u unsigned u)
    (h : Yields (unpack (if unsigned then .uint else .int)) u data u') :
    Yields (ofUnpacker .int) u data u' :=
  .if_pos rfl (.bind hnext h)

/-- A packed value without mistaken strings is read as it was. -/
theorem ofUnpacker_pack [FloatCodec] (h : v.Packable) (hstrings : ∀ s ∈ v.strings, ¬Mistaken s) :
    ∃ data, v.Same data ∧
      Yields (ofUnpacker v.getAPIType) ⟨some (v.pack ++ rest), ec⟩ data ⟨some rest, ec⟩ := by
  obtain ⟨type, bits, str, bArray, f64Array, iArray, f32Array, strArray, bin⟩ := v
  cases type with
  | bool =>
    exact ⟨setB { type := .bool } _, ⟨rfl, congrArg Content.boolean (b_setB _ _)⟩,
      yields_ofUnpacker ((unpackBool_packBool _).map _) (by exact nofun)⟩
  | int =>
    exact ⟨{ type := .int, bits }, ⟨rfl, rfl⟩, yields_ofUnpacker_int (isNextUnsigned_packInt64 _)
      (.map _ (unpackInt64_packInt64 _))⟩
  | uint =>
    rcases @isNextUnsigned_packUInt64 rest ec bits with hnext | ⟨hnext, i, hi, hread⟩
    · exact ⟨{ type := .uint, bits }, ⟨rfl, rfl⟩,
        yields_ofUnpacker_int hnext (.map _ (unpackUInt64_packUInt64 bits))⟩
    · exact ⟨{ type := .int, bits := i.toUInt64 }, ⟨rfl, congrArg Content.integer hi⟩,
        yields_ofUnpacker_int hnext (.map _ hread)⟩
  | str | json =>
    exact ⟨{ type := .str, str }, ⟨rfl, rfl⟩, yields_ofUnpacker
      (.map _ (unpackString_packString h (hstrings _ List.mem_cons_self))) (by exact nofun)⟩
  | bin | raw | msgpack | protobuf =>
    exact ⟨{ type := .bin, bin }, ⟨rfl, rfl⟩,
      yields_ofUnpacker (.map _ (unpackBin_packBin h)) (by exact nofun)⟩
  | boolArray =>
    exact ⟨{ type := .boolArray, bArray }, ⟨rfl, rfl⟩, yields_ofUnpacker
      (.map _ (unpackArray_packArray h fun _ _ _ ↦ unpackBool_packBool _)) (by exact nofun)⟩
  | intArray =>
    exact ⟨{ type := .intArray, iArray }, ⟨rfl, rfl⟩, yields_ofUnpacker
      (.map _ (unpackArray_packArray h fun _ _ _ ↦ unpackInt64_packInt64 _)) (by exact nofun)⟩
  | strArray =>
    exact ⟨{ type := .strArray, strArray }, ⟨rfl, rfl⟩,
      yields_ofUnpacker (.map _ (unpackArray_packArray h.1 fun s hs _ ↦
        unpackString_packString (h.2 s hs) (hstrings s hs))) (by exact nofun)⟩
  | float64 | float32 | float64Array | float32Array | unassigned | unlisted => exact h.elim

/-- What is read has the contents of the value only if no string was mistaken. -/
theorem not_mistaken_of_ofUnpacker [FloatCodec] {u : Unpacker} (h : v.Packable)
    (hread : Yields (ofUnpacker v.getAPIType) ⟨some (v.pack ++ rest), ec⟩ data u)
    (hsame : data.content = v.content) : ∀ s ∈ v.strings, ¬Mistaken s := by
  obtain ⟨type, bits, str, bArray, f64Array, iArray, f32Array, strArray, bin⟩ := v
  cases type with
  | str | json =>
    have hdata : { type := .str, str := (unpackString ⟨some (packString str ++ rest), ec⟩).1 } =
        data :=
      congrArg Prod.fst hread
    rw [← hdata] at hsame
    have hleft : (unpackString ⟨some (packString str ++ rest), ec⟩).2 = u := congrArg Prod.snd hread
    have hback : Yields unpackString ⟨some (packString str ++ rest), ec⟩ str u :=
      Prod.ext (Content.string.inj hsame) hleft
    exact List.forall_mem_singleton.2 (not_mistaken_of_unpackString hback)
  | strArray =>
    have hdata : { type := .strArray, strArray :=
        (unpackArray unpackString ⟨some (packArray packString strArray ++ rest), ec⟩).1 } = data :=
      congrArg Prod.fst hread
    rw [← hdata] at hsame
    have hleft : (unpackArray unpackString ⟨some (packArray packString strArray ++ rest), ec⟩).2 =
        u :=
      congrArg Prod.snd hread
    have hback : Yields (unpackArray unpackString)
      ⟨some (packArray packString strArray ++ rest), ec⟩
        strArray u :=
      Prod.ext (Content.strings.inj hsame) hleft
    exact good_of_unpackArray h.1 (fun s hs hgood _ ↦ unpackString_packString (h.2 s hs) hgood)
      (fun s _ _ _ ↦ not_mistaken_of_unpackString) hback
  | bool | int | uint | bin | raw | msgpack | protobuf | boolArray | intArray | float64 | float32
  | float64Array | float32Array | unassigned | unlisted =>
    exact fun s hs ↦ absurd hs List.not_mem_nil

end

end NTDataValue

namespace NetworkTables

/-! ### Updates -/

/-- An update as the server knows it, before it is packed. -/
structure Update where
  id : Int64
  time : UInt64
  value : NTDataValue

namespace Update

variable [FloatCodec] [FloatDecoder] {up : Update} {rest : Bytes} {ec : Option UnpackerError}

/-- The bytes `sendTopicUpdate` makes of it. -/
def bytes (up : Update) : Bytes :=
  ValueUpdate.bytes ⟨up.id.toInt, up.time, up.value.getAPIType, up.value.pack⟩

omit [FloatDecoder] in
/-- The updates of a client are packed like this. -/
theorem bytes_topicUpdate (d : ClientData) (topic : Topic) (time : UInt64) :
    (d.topicUpdate topic time).bytes =
      bytes ⟨Int64.ofInt (d.topicId topic.name), time, topic.value⟩ := by
  rw [bytes, ValueUpdate.bytes, ValueUpdate.bytes, Int64.ofInt_toInt]
  rfl

/-- The message has the id, the time, the API type and the value of the update. -/
def ReadAs (up : Update) (m : BinaryMessage) : Prop :=
  m.id = up.id ∧ m.timestamp = up.time ∧ m.type = up.value.getAPIType.code ∧ up.value.Same m.data

/-- The bytes of the updates are read to their end, and the messages are the updates in order. -/
def ReadsBack (updates : List Update) : Prop :=
  ∃ passes messages u, unpackMessages passes
    (.setData (updates.flatMap bytes)) = some (messages, u) ∧
    u.rest = some [] ∧ List.Forall₂ ReadAs updates messages

omit [FloatCodec] [FloatDecoder] in
/-- The type codes that are packed are those of the API types, each a byte by itself. -/
theorem code_of_packable {v : NTDataValue} (h : v.Packable) :
    v.getAPIType.code ≤ 0x7f ∧ NTDataType.ofCode v.getAPIType.code = v.getAPIType := by
  unfold NTDataValue.Packable at h
  unfold NTDataValue.getAPIType
  cases htype : v.type with
  | bool | int | uint | str | json | bin | raw | msgpack | protobuf | boolArray | intArray
  | strArray => exact ⟨by decide, by decide⟩
  | float64 | float32 | float64Array | float32Array | unassigned | unlisted =>
    rw [htype] at h
    exact h.elim

/-- The first three elements of an update are read as they were, and the fourth from what
is left. -/
theorem yields_unpackMessage (h : up.value.Packable) {data : NTDataValue} {u : Unpacker}
    (hread : Yields (NTDataValue.ofUnpacker up.value.getAPIType) ⟨some (up.value.pack ++ rest), ec⟩
      data u) :
    Yields unpackMessage ⟨some (up.bytes ++ rest), ec⟩
      (some ⟨up.id, up.time, up.value.getAPIType.code, data⟩) u := by
  obtain ⟨hcode, hof⟩ := code_of_packable h
  rw [bytes, ValueUpdate.bytes, Int64.ofInt_toInt]
  simp only [List.append_assoc]
  refine .bind unpackArrayHeader_four (.if_pos rfl (.map some ?_))
  refine .bind (unpackInt64_packInt64 _) (.bind (unpackUInt64_packUInt64 _)
    (.bind (unpackUInt8_packUInt8 hcode) ?_))
  rw [hof]
  exact .bind hread (.pure _ _)

/-- A sound update is read and what follows it is left. -/
theorem exists_yields_unpackMessage (h : up.value.Packable)
    (hstrings : ∀ s ∈ up.value.strings, ¬Mistaken s) :
    ∃ m, up.ReadAs m ∧ Yields unpackMessage ⟨some (up.bytes ++ rest), ec⟩
      (some m) ⟨some rest, ec⟩ := by
  obtain ⟨data, hsame, hread⟩ := NTDataValue.ofUnpacker_pack h hstrings
  exact ⟨_, ⟨rfl, rfl, rfl, hsame⟩, yields_unpackMessage h hread⟩

/-- What is read is the update only if no string in it was mistaken. -/
theorem not_mistaken_of_unpackMessage (h : up.value.Packable) {m : BinaryMessage} {u : Unpacker}
    (hread : Yields unpackMessage ⟨some (up.bytes ++ rest), ec⟩ (some m) u) (hsame : up.ReadAs m) :
    ∀ s ∈ up.value.strings, ¬Mistaken s := by
  have hdata : Yields (NTDataValue.ofUnpacker up.value.getAPIType)
    ⟨some (up.value.pack ++ rest), ec⟩
    _ _ := rfl
  obtain ⟨hm, -⟩ := hread.unique (yields_unpackMessage h hdata)
  rw [Option.some.inj hm] at hsame
  exact NTDataValue.not_mistaken_of_ofUnpacker h hdata hsame.2.2.2.2

variable {updates : List Update}

/-- The end of the data is met where the updates end. -/
theorem unpackMessages_updates (h : ∀ up ∈ updates, up.value.Packable)
    (hstrings : ∀ up ∈ updates, ∀ s ∈ up.value.strings, ¬Mistaken s) :
    ∃ messages, unpackMessages (updates.length + 1) ⟨some (updates.flatMap bytes), none⟩ =
      some (messages, ⟨some [], some .outOfRange⟩) ∧ List.Forall₂ ReadAs updates messages := by
  induction updates with
  | nil => exact ⟨[], rfl, .nil⟩
  | cons up updates ih =>
    obtain ⟨m, hm, hread⟩ := @exists_yields_unpackMessage _ _ up (updates.flatMap bytes) none
      (h up List.mem_cons_self) (hstrings up List.mem_cons_self)
    obtain ⟨messages, hrest, hmessages⟩ := ih (fun up' hup ↦ h up' (List.mem_cons_of_mem up hup))
      fun up' hup ↦ hstrings up' (List.mem_cons_of_mem up hup)
    refine ⟨m :: messages, ?_, .cons hm hmessages⟩
    rw [List.length_cons, List.flatMap_cons, unpackMessages_succ hread, if_neg nofun, hrest]
    rfl

/-- The messages of updates, up to the first that is read wrong. -/
theorem not_mistaken_of_unpackMessages (h : ∀ up ∈ updates, up.value.Packable) {passes : ℕ}
    {messages : List BinaryMessage} {u : Unpacker}
    (hread : unpackMessages passes ⟨some (updates.flatMap bytes), none⟩ = some (messages, u))
    (hsame : List.Forall₂ ReadAs updates messages) :
    ∀ up ∈ updates, ∀ s ∈ up.value.strings, ¬Mistaken s := by
  induction hsame generalizing passes with
  | nil => exact fun up hup ↦ absurd hup List.not_mem_nil
  | @cons up m updates messages hm hmessages ih =>
    have hup := h up List.mem_cons_self
    have hdata : Yields (NTDataValue.ofUnpacker up.value.getAPIType)
      ⟨some (up.value.pack ++ updates.flatMap bytes), none⟩ _ _ := rfl
    have hfirst := yields_unpackMessage hup hdata
    obtain rfl := unpackMessages_head hfirst hread
    have hstrings := not_mistaken_of_unpackMessage hup hfirst hm
    obtain ⟨m, -, hsound⟩ :=
      @exists_yields_unpackMessage _ _ up (updates.flatMap bytes) none hup hstrings
    obtain ⟨passes, hrest⟩ := unpackMessages_tail hsound nofun hread
    exact List.forall_mem_cons.2
      ⟨hstrings, ih (fun up' hup' ↦ h up' (List.mem_cons_of_mem up hup')) hrest⟩

end Update

/-- Updates come back from their bytes if and only if none of their values holds a string of 16 to
31 bytes. -/
theorem readsBack_iff [FloatCodec] [FloatDecoder] {updates : List Update}
    (h : ∀ up ∈ updates, up.value.Packable) :
    Update.ReadsBack updates ↔ ∀ up ∈ updates, ∀ s ∈ up.value.strings, ¬Mistaken s := by
  constructor
  · rintro ⟨passes, messages, u, hread, -, hsame⟩
    exact Update.not_mistaken_of_unpackMessages h hread hsame
  · intro hstrings
    obtain ⟨messages, hread, hsame⟩ := Update.unpackMessages_updates h hstrings
    exact ⟨_, messages, _, hread, rfl, hsame⟩

/-- An update of a string. -/
def Update.sample (str : String) : Update where
  id := 1
  time := 5
  value := { type := .str, str := ascii str }

theorem Update.sample_packable {str : String} (h : (ascii str).length < 0xffffffff) :
    ∀ up ∈ [Update.sample str], up.value.Packable :=
  List.forall_mem_singleton.2 h

/-- Updates of several types come back. One holds a text of 32 bytes. -/
theorem readsBack_sample :
    @Update.ReadsBack .fractional .fractional [.sample "auto",
      { id := -2, time := 6, value := { type := .int, bits := 5 } },
      { id := 3, time := 7, value := { type := .boolArray, bArray := [true, false] } },
      { id := 3, time := 8,
        value := { type := .strArray, strArray := [ascii "a", .replicate 32 0x61] } },
      { id := 4, time := 300, value := { type := .raw, bin := [0x00, 0xff] } }] := by
  refine (@readsBack_iff .fractional .fractional _ ?_).2 (by decide)
  simp only [List.forall_mem_cons]
  exact ⟨(by decide : (ascii "auto").length < 0xffffffff), trivial,
    (by decide : [true, false].length < 0xffffffff), ⟨by decide, by decide⟩,
    (by decide : [(0x00 : UInt8), 0xff].length < 0xffffffff), List.forall_mem_nil _⟩

/-- A string of sixteen bytes does not. -/
theorem sixteen_bytes_misread :
    ¬∀ (codec : FloatCodec) (decoder : FloatDecoder) (updates : List Update),
      (∀ up ∈ updates, up.value.Packable) → @Update.ReadsBack codec decoder updates := by
  intro h
  have hpackable := @Update.sample_packable "0123456789abcdef" (by decide)
  obtain ⟨passes, messages, u, hread, -, hsame⟩ := h .fractional .fractional _ hpackable
  exact absurd
    (@Update.not_mistaken_of_unpackMessages .fractional .fractional _ hpackable _ _ _ hread
    hsame) (by decide)

end NetworkTables
