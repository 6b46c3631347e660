import Mathlib.Data.List.TakeWhile
import PicoRadio.Library.JsonText
import PicoRadio.Library.Stateful

/-!
# The JSON unpacker

`json::Unpacker`. It builds no value: each function searches forward for the next bracket, quotation
mark or digit from where the one before has stopped. Like the msgpack unpacker it checks the pointer
against the end of the data before it moves, so that it can come to stand one byte beyond.

The only error is `OutOfRange`. Some functions clear it again when they find what they search.

`unpack_int` leaves its result as it was, that is indeterminate, if the number is too large; what it
holds then is a parameter.
-/

namespace Json

/-- `DataType`. -/
inductive DataType
  | array
  | arrayEnd
  | object
  | objectEnd
  | str
  | true
  | false
  | int
  | null
  deriving DecidableEq, Repr

/-- `is_bool`. -/
def DataType.isBool (type : DataType) : Bool :=
  type = .true ∨ type = .false

/-- `is_bool_or_null`. -/
def DataType.isBoolOrNull (type : DataType) : Bool :=
  type.isBool ∨ type = .null

/-- `Unpacker`. The two pointers are the bytes between them; there are none if `data_pointer` is
one beyond the end. -/
structure Unpacker where
  rest : Option Bytes
  /-- `ec == OutOfRange`. -/
  outOfRange : Bool := false
  deriving DecidableEq, Repr

namespace Unpacker

/-- `set_data` of a new unpacker. -/
def setData (data : Bytes) : Unpacker where
  rest := some data

/-- How far the pointer can still move. -/
def remaining (u : Unpacker) : ℕ :=
  match u.rest with
  | some data => data.length + 1
  | none => 0

/-! ### Searching -/

/-- `safe_find_after`: the body runs once also if there was an error before. -/
def safeFindAfter (ch : UInt8) : StateM Unpacker Unit := fun u ↦
  match u.rest with
  | some data =>
    match (if u.outOfRange then data else data.dropWhile (· ≠ ch)) with
    | _ :: rest => ((), { u with rest := some rest })
    | [] => ((), { rest := none, outOfRange := true })
  | none => ((), { u with outOfRange := true })

/-- `safe_find` of one character. -/
def safeFind (ch : UInt8) : StateM Unpacker Unit := fun u ↦
  match u.rest with
  | some data =>
    if u.outOfRange then
      ((), { u with rest := if data.head? = some ch then data else data.tail? })
    else
      match data.dropWhile (· ≠ ch) with
      | [] => ((), { rest := none, outOfRange := true })
      | rest => ((), { u with rest := some rest })
  | none => ((), { u with outOfRange := true })

/-- `safe_find` of several characters. It starts without an error and stops at the end of the
data. -/
def safeFindAny (chars : List UInt8) : StateM Unpacker Unit := fun u ↦
  match u.rest with
  | some data =>
    let rest := data.dropWhile (· ∉ chars)
    ((), { rest := some rest, outOfRange := rest.isEmpty })
  | none => ((), { u with outOfRange := true })

/-- `ec == OutOfRange`. -/
def failed : StateM Unpacker Bool := fun u ↦
  (u.outOfRange, u)

/-- `string_view(begin, data_pointer - begin)`, for a pointer that has moved from `begin` on. -/
def viewFrom (start : Option Bytes) : StateM Unpacker Str := fun u ↦
  match start, u.rest with
  | some data, some rest => (data.take (data.length - rest.length), u)
  | _, _ => ([], u)

/-- `safe_increment`. -/
def safeIncrement : StateM Unpacker Unit := fun u ↦
  match u.rest with
  | some data => ((), { u with rest := data.tail? })
  | none => ((), { u with outOfRange := true })

/-! ### Brackets and strings -/

/-- `unpack_array`. -/
def unpackArray : StateM Unpacker Unit :=
  safeFindAfter 0x5b

/-- `unpack_array_end`. -/
def unpackArrayEnd : StateM Unpacker Unit :=
  safeFindAfter 0x5d

/-- `unpack_object`. -/
def unpackObject : StateM Unpacker Unit :=
  safeFindAfter 0x7b

/-- `unpack_object_end`. -/
def unpackObjectEnd : StateM Unpacker Unit :=
  safeFindAfter 0x7d

/-- `unpack_key`: the bytes between the next two quotation marks, as they are. -/
def unpackKey : StateM Unpacker Str := do
  safeFindAfter 0x22
  if ← failed then return []
  let keyBegin ← (·.rest) <$> get
  safeFind 0x22
  if ← failed then return []
  let key ← viewFrom keyBegin
  safeIncrement
  return key

/-- `unpack_string`. -/
def unpackString : StateM Unpacker Str :=
  unpackKey

/-! ### Numbers -/

/-- What `std::from_chars` of an `int32_t` can do. -/
inductive FromChars
  | value (i : Int32)
  | invalidArgument
  | resultOutOfRange
  deriving DecidableEq

/-- `std::from_chars`: a minus sign, then as many digits as there are; what follows is ignored. -/
def fromChars (text : Str) : FromChars :=
  let negative : Bool := text.head? = some 0x2d
  let digits := (if negative then text.tail else text).takeWhile fun c ↦ IsDigit c
  let value : ℤ := if negative then -digitsValue digits else digitsValue digits
  if digits = [] then .invalidArgument
  else if -2 ^ 31 ≤ value ∧ value < 2 ^ 31 then .value (Int32.ofInt value)
  else .resultOutOfRange

/-- The characters `unpack_int` takes for the first of a number. -/
def numberStart : List UInt8 :=
  ascii "0123456789-."

/-- `unpack_int`. A comma or a brace must follow the number. -/
def unpackInt (indeterminate : Int32) : StateM Unpacker Int32 := do
  safeFindAny numberStart
  if ← failed then return 0
  let start ← (·.rest) <$> get
  safeFindAny [0x2c, 0x7d]
  if ← failed then return 0
  let asStr ← viewFrom start
  match fromChars asStr with
  | .value i => return i
  | .resultOutOfRange => return indeterminate
  | .invalidArgument =>
    modify fun u ↦ { u with outOfRange := true }
    return 0

/-! ### Words -/

/-- The word stands at the pointer. -/
def AtWord (word : Str) (data : Bytes) : Prop :=
  word <+: data

instance (word : Str) (data : Bytes) : Decidable (AtWord word data) :=
  inferInstanceAs (Decidable (word <+: data))

/-- The search of `unpack_bool`. -/
def findBool : Bytes → Option (Bool × Bytes)
  | [] => none
  | c :: rest =>
    if AtWord (ascii "true") (c :: rest) then some (true, rest.drop 3)
    else if AtWord (ascii "false") (c :: rest) then some (false, rest.drop 4)
    else findBool rest

/-- `unpack_bool`. -/
def unpackBool : StateM Unpacker Bool := fun u ↦
  match u.rest, u.outOfRange with
  | some data, false =>
    match findBool data with
    | some (b, rest) => (b, { u with rest := some rest })
    | none => (false, { rest := some [], outOfRange := true })
  | _, _ => (false, { u with outOfRange := true })

/-- The search of `peek_type`. -/
def findType : Bytes → Option DataType
  | [] => none
  | c :: rest =>
    if c = 0x5b then some .array
    else if c = 0x5d then some .arrayEnd
    else if c = 0x7b then some .object
    else if c = 0x7d then some .objectEnd
    else if c = 0x22 then some .str
    else if c ∈ numberStart then some .int
    else if AtWord (ascii "true") (c :: rest) then some .true
    else if AtWord (ascii "false") (c :: rest) then some .false
    else if AtWord (ascii "null") (c :: rest) then some .null
    else findType rest

/-- `peek_type(type)`, which has an error of its own. -/
def peekType (u : Unpacker) : Option DataType :=
  u.rest.bind findType

/-- `peek_type()`. -/
def peek : StateM Unpacker DataType := fun u ↦
  (u.peekType.getD .null, u)

/-- `unpack_default_bool`; its result says whether the value has been set. -/
def unpackDefaultBool : StateM Unpacker (Option Bool) := do
  if (← peek) = .null then return none
  else some <$> unpackBool

/-! ### Progress

The pointer never moves back, and a search for what comes after a character moves it on. -/

/-- The order of the states of an unpacker that have less and less to read. -/
def Beyond (u u' : Unpacker) : Prop :=
  u'.remaining ≤ u.remaining

instance : Std.Refl Beyond :=
  ⟨fun _ ↦ le_rfl⟩

instance : IsTrans Unpacker Beyond :=
  ⟨fun _ _ _ h h' ↦ le_trans h' h⟩

theorem safeFindAfter_lt (ch : UInt8) {u : Unpacker} (h : 0 < u.remaining) :
    (safeFindAfter ch u).2.remaining < u.remaining := by
  obtain ⟨rest, outOfRange⟩ := u
  cases rest with
  | none => exact absurd h (lt_irrefl 0)
  | some data =>
    have hdata : (if outOfRange then data else data.dropWhile (· ≠ ch)).length ≤ data.length := by
      split
      · exact le_rfl
      · exact List.length_dropWhile_le _ _
    unfold safeFindAfter
    dsimp only
    split
    · next heq =>
      rw [heq] at hdata
      exact Nat.succ_le_succ hdata
    · exact Nat.succ_pos _

theorem along_safeFindAfter (ch : UInt8) : Along Beyond (safeFindAfter ch) := by
  intro u
  rcases Nat.eq_zero_or_pos u.remaining with hzero | hpos
  · obtain ⟨_ | data, outOfRange⟩ := u
    · exact le_rfl
    · exact absurd hzero (Nat.succ_ne_zero _)
  · exact (safeFindAfter_lt ch hpos).le

theorem along_safeFind (ch : UInt8) : Along Beyond (safeFind ch) := by
  rintro ⟨_ | data, outOfRange⟩
  · exact le_rfl
  · unfold safeFind
    dsimp only
    split
    · show remaining ⟨if _ then _ else _, _⟩ ≤ data.length + 1
      split
      · exact le_rfl
      · cases data with
        | nil => exact Nat.zero_le _
        | cons c data => exact Nat.succ_le_succ (Nat.le_succ _)
    · have hdata := List.length_dropWhile_le (fun c ↦ decide (c ≠ ch)) data
      split
      · exact Nat.zero_le _
      · exact Nat.succ_le_succ hdata

theorem along_safeFindAny (chars : List UInt8) : Along Beyond (safeFindAny chars) := by
  rintro ⟨_ | data, outOfRange⟩
  · exact le_rfl
  · exact Nat.succ_le_succ (List.length_dropWhile_le _ data)

theorem along_failed : Along Beyond failed :=
  fun _ ↦ le_rfl

theorem along_viewFrom (start : Option Bytes) : Along Beyond (viewFrom start) := by
  intro u
  unfold viewFrom
  split <;> exact le_rfl

theorem along_safeIncrement : Along Beyond safeIncrement := by
  rintro ⟨_ | _ | ⟨c, data⟩, outOfRange⟩
  · exact le_rfl
  · exact Nat.zero_le _
  · exact Nat.le_succ _

theorem along_rest : Along Beyond ((·.rest) <$> get : StateM Unpacker (Option Bytes)) :=
  fun _ ↦ le_rfl

theorem along_unpackKey : Along Beyond unpackKey :=
  (along_safeFindAfter _).bind fun _ ↦ along_failed.bind fun _ ↦ .ite (.pure _) <|
    along_rest.bind fun _ ↦ (along_safeFind _).bind fun _ ↦ along_failed.bind fun _ ↦
    .ite (.pure _) <| (along_viewFrom _).bind fun _ ↦ along_safeIncrement.bind fun _ ↦ .pure _

theorem along_unpackInt (indeterminate : Int32) : Along Beyond (unpackInt indeterminate) := by
  refine (along_safeFindAny _).bind fun _ ↦ along_failed.bind fun _ ↦ .ite (.pure _) <|
    along_rest.bind fun _ ↦ (along_safeFindAny _).bind fun _ ↦ along_failed.bind fun _ ↦
    .ite (.pure _) <| (along_viewFrom _).bind fun text ↦ ?_
  cases fromChars text with
  | value i => exact .pure _
  | resultOutOfRange => exact .pure _
  | invalidArgument => exact fun _ ↦ le_rfl

theorem length_findBool {data rest : Bytes} {b : Bool} (h : findBool data = some (b, rest)) :
    rest.length ≤ data.length := by
  induction data with
  | nil => exact nomatch h
  | cons c data ih =>
    rw [findBool] at h
    split_ifs at h
    · obtain ⟨-, rfl⟩ := Prod.mk.inj (Option.some.inj h)
      exact (List.length_drop ..).trans_le ((Nat.sub_le ..).trans (Nat.le_succ _))
    · obtain ⟨-, rfl⟩ := Prod.mk.inj (Option.some.inj h)
      exact (List.length_drop ..).trans_le ((Nat.sub_le ..).trans (Nat.le_succ _))
    · exact (ih h).trans (Nat.le_succ _)

theorem along_unpackBool : Along Beyond unpackBool := by
  rintro ⟨_ | data, _ | _⟩
  · exact le_rfl
  · exact le_rfl
  · unfold unpackBool
    dsimp only
    split
    · exact Nat.succ_le_succ (length_findBool ‹_›)
    · exact Nat.succ_le_succ (Nat.zero_le _)
  · exact le_rfl

theorem along_peek : Along Beyond peek :=
  fun _ ↦ le_rfl

theorem along_unpackDefaultBool : Along Beyond unpackDefaultBool :=
  along_peek.bind fun _ ↦ .ite (.pure _) (along_unpackBool.map _)

/-- A search that follows a search. -/
theorem bind_findAfter_lt {α : Type} {ch : UInt8} {f : Unit → StateM Unpacker α}
    (hf : ∀ a, Along Beyond (f a)) {u : Unpacker} (h : 0 < u.remaining) :
    ((safeFindAfter ch >>= f) u).2.remaining < u.remaining :=
  (hf _ _).trans_lt (safeFindAfter_lt ch h)

/-- There is something to read where a token is seen. -/
theorem remaining_pos {u : Unpacker} {p : DataType → Bool} (h : u.peekType.any p = true) :
    0 < u.remaining := by
  obtain ⟨_ | data, outOfRange⟩ := u
  · exact absurd h Bool.false_ne_true
  · exact Nat.succ_pos _

/-! ### Strings -/

/-- A key or a string is read up to a quotation mark. -/
theorem returns_unpackKey : Returns unpackKey fun s ↦ (0x22 : UInt8) ∉ s := by
  intro u
  have hnil : (0x22 : UInt8) ∉ ([] : Str) := List.not_mem_nil
  unfold unpackKey
  show (0x22 : UInt8) ∉
    ((if (safeFindAfter 0x22 u).2.outOfRange then _ else _ : StateM Unpacker Str)
    (safeFindAfter 0x22 u).2).1
  generalize (safeFindAfter 0x22 u).2 = u
  split
  · exact hnil
  · next hok =>
    obtain ⟨_ | data, outOfRange⟩ := u
    · exact hnil
    · obtain rfl : outOfRange = false := Bool.eq_false_iff.mpr hok
      show (0x22 : UInt8) ∉ ((if (safeFind 0x22 ⟨some data, false⟩).2.outOfRange then _ else _ :
        StateM Unpacker Str) (safeFind 0x22 ⟨some data, false⟩).2).1
      cases hrest : data.dropWhile (· ≠ 0x22) with
      | nil =>
        have hfail : (safeFind 0x22 ⟨some data, false⟩).2 = ⟨none, true⟩ := by
          simp only [safeFind, hrest]
          rfl
        rw [hfail]
        exact hnil
      | cons c rest =>
        have hfind : (safeFind 0x22 ⟨some data, false⟩).2 = ⟨some (c :: rest), false⟩ := by
          simp only [safeFind, hrest]
          rfl
        rw [hfind]
        show (0x22 : UInt8) ∉ data.take (data.length - (c :: rest).length)
        have hsplit := List.takeWhile_append_dropWhile (p := (· ≠ (0x22 : UInt8))) (l := data)
        have hlen := congrArg List.length hsplit
        rw [List.length_append, hrest] at hlen
        rw [← hlen, Nat.add_sub_cancel, ← hsplit, List.take_left']
        · intro hmem
          simpa using List.mem_takeWhile_imp hmem
        · rw [hsplit]

end Unpacker

end Json
