import PicoRadio.Msgpack.Unpacker
import PicoRadio.NetworkTables.Handlers
import Mathlib.Logic.Relation

/-!
# Binary frames as bytes

The `do … while` loop of the binary case of `_handleFrame`, over the bytes of the payload. A pass
reads the header of an array; an array of four is read as an update and handled, any other header
is skipped. The loop ends when the unpacker has met the end of the data, or when a handler returns
from the function.

A pass that starts at a byte which is no array header neither moves the pointer nor records an
error: the loop never ends. This is the only way it can run on (`binaryFrame_ends_iff`). A payload
that can be read to its end is handled like the list of its updates (`binaryLoop_eq_handleBinary`).

## Passes

The bound on the number of passes is the number of bytes that are left, since a pass that begins at
an array reads at least its header (`Again.remaining`). Such a bound is a parameter of the loop
here, and a result with one bound is the result with every larger one.
-/

open Msgpack Msgpack.Unpacker

namespace NTDataValue

variable [FloatDecoder]

/-- `NTDataValue::unpack`, of a value with nothing in it yet. -/
def unpack (type : NTDataType) : StateM Unpacker NTDataValue :=
  match type with
  | .bool => (fun b ↦ setB { type } b) <$> unpackBool
  | .float64 => (fun bits ↦ { type, bits }) <$> unpackFloat64
  | .int => (fun i ↦ { type, bits := i.toUInt64 }) <$> unpackInt64
  | .float32 => (fun f32 ↦ setF32 { type } f32) <$> unpackFloat32
  | .str | .json => (fun str ↦ { type, str }) <$> unpackString
  | .bin | .raw | .msgpack | .protobuf => (fun bin ↦ { type, bin }) <$> unpackBin
  | .uint => (fun bits ↦ { type, bits }) <$> unpackUInt64
  | .boolArray => (fun bArray ↦ { type, bArray }) <$> unpackArray unpackBool
  | .float64Array => (fun f64Array ↦ { type, f64Array }) <$> unpackArray unpackFloat64
  | .intArray => (fun iArray ↦ { type, iArray }) <$> unpackArray unpackInt64
  | .float32Array => (fun f32Array ↦ { type, f32Array }) <$> unpackArray unpackFloat32
  | .strArray => (fun strArray ↦ { type, strArray }) <$> unpackArray unpackString
  | .unassigned | .unlisted _ => pure { type }

/-- `NTDataValue(type, unpacker)`: an integer with an unsigned tag makes the value unsigned. -/
def ofUnpacker (type : NTDataType) : StateM Unpacker NTDataValue := do
  if type = .int then
    let unsigned ← isNextUnsigned
    unpack (if unsigned then .uint else type)
  else
    unpack type

theorem along_unpack (type : NTDataType) :
    Along Beyond (unpack type) := by
  cases type with
  | bool => exact along_unpackBool.map _
  | float64 => exact along_unpackFloat64.map _
  | int => exact along_unpackInt64.map _
  | float32 => exact along_unpackFloat32.map _
  | str | json => exact along_unpackString.map _
  | bin | raw | msgpack | protobuf => exact along_unpackBin.map _
  | uint => exact along_unpackUInt64.map _
  | boolArray => exact (along_unpackArray along_unpackBool).map _
  | float64Array => exact (along_unpackArray along_unpackFloat64).map _
  | intArray => exact (along_unpackArray along_unpackInt64).map _
  | float32Array => exact (along_unpackArray along_unpackFloat32).map _
  | strArray => exact (along_unpackArray along_unpackString).map _
  | unassigned | unlisted => exact .pure _

end NTDataValue

namespace NetworkTables

/-! ### Reading an update -/

section Reading

variable [FloatDecoder]

/-- The elements of an array of four. -/
def unpackElements4 : StateM Unpacker BinaryMessage := do
  let id ← unpackInt64
  let timestamp ← unpackUInt64
  let type ← unpackUInt8
  let data ← NTDataValue.ofUnpacker (.ofCode type)
  return { id, timestamp, type, data }

/-- What a pass of the loop reads: an update, or the header of another array. -/
def unpackMessage : StateM Unpacker (Option BinaryMessage) := do
  let array_size ← unpackArrayHeader
  if array_size = some 4 then
    some <$> unpackElements4
  else
    return none

theorem along_unpackElements4 : Along Beyond unpackElements4 :=
  along_unpackInt64.bind fun _ ↦ along_unpackUInt64.bind fun _ ↦ along_unpackUInt8.bind fun _ ↦
    .bind (.ite ((along_safeData.bind fun _ ↦ .pure _).bind fun _ ↦ NTDataValue.along_unpack _)
      (NTDataValue.along_unpack _)) fun _ ↦ .pure _

theorem unpackMessage_eq (u : Unpacker) :
    unpackMessage u =
      if (unpackArrayHeader u).1 = some 4 then (some <$> unpackElements4) (unpackArrayHeader u).2
      else (none, (unpackArrayHeader u).2) := by
  show (if (unpackArrayHeader u).1 = some 4 then _ else _ : StateM Unpacker _) _ = _
  split <;> rfl

/-- A pass that starts at an array moves the pointer, or finds the end of the data. -/
theorem unpackMessage_progress {u : Unpacker} (h : u.AtArray) :
    (unpackMessage u).2.remaining < u.remaining ∨
      (unpackMessage u).2.ec = some .outOfRange := by
  rw [unpackMessage_eq]
  rcases unpackArrayHeader_progress h with hless | ⟨hnone, hec⟩
  · left
    split
    · exact (along_unpackElements4.map some _).trans_lt hless
    · exact hless
  · right
    rw [if_neg (by rw [hnone]; exact Option.some_ne_none 4 |>.symm)]
    exact hec

/-- A pass that starts elsewhere reads nothing. -/
theorem unpackMessage_of_not_atArray {u : Unpacker} (h : ¬u.AtArray) :
    unpackMessage u = (none, u) := by
  rw [unpackMessage_eq, unpackArrayHeader_of_not_atArray h]
  rfl

/-- The updates of a payload that is read until the end of the data is met, in at most so many
passes, and the unpacker at the end. -/
def unpackMessages : ℕ → Unpacker → Option (List BinaryMessage × Unpacker)
  | 0, _ => none
  | passes + 1, u =>
    let (message, u) := unpackMessage u
    if u.ec = some .outOfRange then some (message.toList, u)
    else (fun r ↦ (message.toList ++ r.1, r.2)) <$> unpackMessages passes u

theorem unpackMessages_succ {u u' : Unpacker} {message : Option BinaryMessage}
    (h : Yields unpackMessage u message u') (passes : ℕ) :
    unpackMessages (passes + 1) u =
      if u'.ec = some .outOfRange then some (message.toList, u')
      else (fun r ↦ (message.toList ++ r.1, r.2)) <$> unpackMessages passes u' := by
  rw [unpackMessages, show unpackMessage u = _ from h]

/-- The first update of a payload. -/
theorem unpackMessages_head {u u' v : Unpacker} {m m' : BinaryMessage}
    (h : Yields unpackMessage u (some m) u') {passes : ℕ} {messages : List BinaryMessage}
    (hread : unpackMessages passes u = some (m' :: messages, v)) : m' = m := by
  cases passes with
  | zero => cases hread
  | succ passes =>
    rw [unpackMessages_succ h] at hread
    split at hread
    · exact (List.cons.inj (Prod.mk.inj (Option.some.inj hread)).1).1.symm
    · obtain ⟨r, -, heq⟩ := Option.map_eq_some_iff.1 hread
      exact (List.cons.inj (Prod.mk.inj heq).1).1.symm

/-- The updates after the first. -/
theorem unpackMessages_tail {u u' v : Unpacker} {m m' : BinaryMessage}
    (h : Yields unpackMessage u (some m) u') (hec : u'.ec ≠ some .outOfRange) {passes : ℕ}
    {messages : List BinaryMessage}
    (hread : unpackMessages passes u = some (m' :: messages, v)) :
    ∃ passes, unpackMessages passes u' = some (messages, v) := by
  cases passes with
  | zero => cases hread
  | succ passes =>
    rw [unpackMessages_succ h, if_neg hec] at hread
    obtain ⟨r, hr, heq⟩ := Option.map_eq_some_iff.1 hread
    obtain ⟨hmessages, rfl⟩ := Prod.mk.inj heq
    obtain ⟨-, rfl⟩ := List.cons.inj hmessages
    exact ⟨passes, hr⟩

end Reading

/-! ### The loop -/

section Loop

variable [FloatCodec] [FloatDecoder] {env : Env} {guid : Guid} {st s : Instance} {u v : Unpacker}

omit [FloatDecoder] in
/-- What is done with an update, and whether the loop goes on after it. -/
def handleArray (env : Env) (guid : Guid) (m : BinaryMessage) (st : Instance) :
    Except Fault (Instance × Bool) :=
  if m.id = -1 then
    .ok ({ st with rttReplies := st.rttReplies ++ [(guid, rttReply env st m)] }, true)
  else if st.mutexFree then
    if guid ∈ st.clients then (·, true) <$> st.withMutex (handleValue env guid m)
    else .ok ({ st with mutexFree := false }, true)
  else .ok (st, false)

omit [FloatDecoder] in
/-- The list of the updates of a frame is handled one by one, until one returns. -/
theorem handleBinary_cons (m : BinaryMessage) (messages : List BinaryMessage) :
    handleBinary env guid (m :: messages) st =
      handleArray env guid m st >>= fun r ↦
        if r.2 then handleBinary env guid messages r.1 else .ok r.1 := by
  rw [handleBinary, handleArray]
  split_ifs
  · rfl
  · cases st.withMutex (handleValue env guid m) <;> rfl
  · rfl
  · rfl

/-- What a pass of the loop leads to. -/
inductive Pass
  /-- Another pass. -/
  | again (u : Unpacker) (st : Instance)
  | ended (result : Except Fault Instance)

/-- The test at the end of a pass. -/
def Pass.test (u : Unpacker) (st : Instance) : Pass :=
  if u.ec = some .outOfRange then .ended (.ok st) else .again u st

/-- The body of the loop. -/
def binaryPass (env : Env) (guid : Guid) (u : Unpacker) (st : Instance) : Pass :=
  match unpackMessage u with
  | (none, u) => .test u st
  | (some m, u) =>
    match handleArray env guid m st with
    | .error fault => .ended (.error fault)
    | .ok (st, true) => .test u st
    | .ok (st, false) => .ended (.ok st)

/-- The loop, for at most so many passes. -/
def binaryLoop (env : Env) (guid : Guid) : ℕ → Unpacker → Instance →
    Option (Except Fault Instance)
  | 0, _, _ => none
  | passes + 1, u, st =>
    match binaryPass env guid u st with
    | .again u st => binaryLoop env guid passes u st
    | .ended result => some result

/-- The binary case of `_handleFrame`, for at most so many passes. -/
def handleBinaryFrame (env : Env) (guid : Guid) (payload : Bytes) (passes : ℕ) (st : Instance) :
    Option (Except Fault Instance) :=
  binaryLoop env guid passes (.setData payload) st

/-- One pass leads to the next. -/
def Again (env : Env) (guid : Guid) (c c' : Unpacker × Instance) : Prop :=
  binaryPass env guid c.1 c.2 = .again c'.1 c'.2

omit [FloatCodec] [FloatDecoder] in
theorem Pass.test_eq_again (h : Pass.test u st = .again v s) :
    u.ec ≠ some .outOfRange ∧ u = v ∧ st = s := by
  unfold Pass.test at h
  split at h
  · cases h
  · next hec =>
    obtain ⟨rfl, rfl⟩ := Pass.again.inj h
    exact ⟨hec, rfl, rfl⟩

/-- Another pass begins where the reading of this one ended, and before the end of the data was
met. -/
theorem Again.unpacker {c c' : Unpacker × Instance} (h : Again env guid c c') :
    c'.1 = (unpackMessage c.1).2 ∧ c'.1.ec ≠ some .outOfRange := by
  unfold Again binaryPass at h
  split at h
  · next hread =>
    obtain ⟨hec, rfl, -⟩ := Pass.test_eq_again h
    exact ⟨by rw [hread], hec⟩
  · next hread =>
    split at h
    · cases h
    · obtain ⟨hec, rfl, -⟩ := Pass.test_eq_again h
      exact ⟨by rw [hread], hec⟩
    · cases h

/-- A pass that starts at an array brings the pointer closer to the end. -/
theorem Again.remaining {c c' : Unpacker × Instance} (h : Again env guid c c')
    (harray : c.1.AtArray) : c'.1.remaining < c.1.remaining := by
  obtain ⟨hu, hec⟩ := h.unpacker
  rw [hu] at hec ⊢
  exact (unpackMessage_progress harray).resolve_right hec

/-- A pass that starts elsewhere leads to itself. -/
theorem again_self (harray : ¬u.AtArray) (hec : u.ec ≠ some .outOfRange) :
    binaryPass env guid u st = .again u st := by
  rw [binaryPass, unpackMessage_of_not_atArray harray]
  exact if_neg hec

/-- At a byte that is no array header, the loop runs on for ever. -/
theorem binaryLoop_stuck (harray : ¬u.AtArray) (hec : u.ec ≠ some .outOfRange) (passes : ℕ) :
    binaryLoop env guid passes u st = none := by
  induction passes with
  | zero => rfl
  | succ passes ih =>
    rw [binaryLoop, again_self harray hec]
    exact ih

/-- The end of the loop, seen from a later pass. -/
theorem binaryLoop_ended_of_reached {c c' : Unpacker × Instance}
    (h : Relation.ReflTransGen (Again env guid) c c') {passes : ℕ} {r : Except Fault Instance}
    (hr : binaryLoop env guid passes c.1 c.2 = some r) :
    ∃ passes, binaryLoop env guid passes c'.1 c'.2 = some r := by
  induction h with
  | refl => exact ⟨passes, hr⟩
  | tail _ hagain ih =>
    obtain ⟨passes, hr⟩ := ih
    cases passes with
    | zero => cases hr
    | succ passes =>
      rw [binaryLoop, show binaryPass env guid _ _ = _ from hagain] at hr
      exact ⟨passes, hr⟩

/-- Where every pass starts at an array, the distance to the end bounds the number of passes. -/
theorem binaryLoop_ends (n : ℕ) {c : Unpacker × Instance} (hn : c.1.remaining ≤ n)
    (h : ∀ c', Relation.ReflTransGen (Again env guid) c c' → c'.1.AtArray) :
    ∃ r, binaryLoop env guid (n + 1) c.1 c.2 = some r := by
  induction n generalizing c with
  | zero =>
    rw [binaryLoop]
    cases hpass : binaryPass env guid c.1 c.2 with
    | ended result => exact ⟨result, rfl⟩
    | again u st =>
      have hagain : Again env guid c (u, st) := hpass
      have hless := hagain.remaining (h c .refl)
      omega
  | succ n ih =>
    rw [binaryLoop]
    cases hpass : binaryPass env guid c.1 c.2 with
    | ended result => exact ⟨result, rfl⟩
    | again u st =>
      have hagain : Again env guid c (u, st) := hpass
      have hless := hagain.remaining (h c .refl)
      exact ih (c := (u, st)) (by omega) fun c' hc' ↦ h c' (.head hagain hc')

/-- In every state the loop over a payload ends if and only if no pass starts at a byte that is not
the header of an array. -/
theorem binaryFrame_ends_iff (env : Env) (guid : Guid) (payload : Bytes) (st : Instance) :
    (∃ passes result, handleBinaryFrame env guid payload passes st = some result) ↔
      ∀ u s, Relation.ReflTransGen (Again env guid) (.setData payload, st) (u, s) →
        u.AtArray := by
  constructor
  · rintro ⟨passes, result, hresult⟩ u s hreached
    by_contra harray
    obtain ⟨passes, hr⟩ := binaryLoop_ended_of_reached hreached hresult
    have hec : u.ec ≠ some .outOfRange := by
      cases hreached with
      | refl => exact nofun
      | tail _ hagain => exact hagain.unpacker.2
    rw [binaryLoop_stuck harray hec] at hr
    cases hr
  · intro h
    exact ⟨_, binaryLoop_ends _ le_rfl fun c' hc' ↦ h c'.1 c'.2 hc'⟩

/-- A payload that can be read to its end is handled like the list of its updates. -/
theorem binaryLoop_eq_handleBinary {passes : ℕ} {messages : List BinaryMessage}
    (h : unpackMessages passes u = some (messages, v)) (st : Instance) :
    binaryLoop env guid passes u st = some (handleBinary env guid messages st) := by
  induction passes generalizing u v messages st with
  | zero => cases h
  | succ passes ih =>
    rw [binaryLoop, binaryPass]
    cases hread : unpackMessage u with
    | mk message u' =>
    rw [unpackMessages_succ hread] at h
    -- what follows this pass, from the state it leaves
    have hrest (s : Instance) : ∃ rest, messages = message.toList ++ rest ∧
        (match Pass.test u' s with
          | .again u st => binaryLoop env guid passes u st
          | .ended result => some result) = some (handleBinary env guid rest s) := by
      unfold Pass.test
      split at h
      · next hec =>
        obtain ⟨rfl, -⟩ := Prod.mk.inj (Option.some.inj h)
        rw [if_pos hec]
        exact ⟨[], (List.append_nil _).symm, rfl⟩
      · next hec =>
        obtain ⟨r, hr, heq⟩ := Option.map_eq_some_iff.1 h
        rw [if_neg hec]
        exact ⟨r.1, (Prod.mk.inj heq).1.symm, ih hr s⟩
    cases message with
    | none =>
      obtain ⟨rest, rfl, hloop⟩ := hrest st
      exact hloop
    | some m =>
      obtain ⟨rest, hmessages, -⟩ := hrest st
      rw [hmessages, show (some m).toList ++ rest = m :: rest from rfl, handleBinary_cons]
      dsimp only
      cases hm : handleArray env guid m st with
      | error fault => rfl
      | ok r =>
        obtain ⟨s, _ | _⟩ := r
        · rfl
        · obtain ⟨rest', hmessages', hloop⟩ := hrest s
          obtain rfl : rest' = rest := by simpa [hmessages] using hmessages'.symm
          exact hloop

end Loop

/-- A client sends a frame of one byte that is no array. -/
theorem zero_frame_runs_on :
    Ends (@run .fractional {} [({}, .connect (.sample 1 "a"))])
      (fun st ↦ ¬∃ passes result,
        @handleBinaryFrame .fractional .fractional {} 1 [0x00] passes st = some result)
      fun _ ↦ False := by
  have hrun : Ends (@run .fractional {} [({}, .connect (.sample 1 "a"))]) (fun _ ↦ True)
      fun _ ↦ False := by
    decide +kernel
  refine hrun.imp fun st _ ⟨passes, result, hresult⟩ ↦ ?_
  cases hresult.symm.trans (@binaryLoop_stuck .fractional .fractional {} 1 st _ (by decide)
    (by decide) passes)

end NetworkTables
