import PicoRadio.Json.Unpacker
import PicoRadio.Library.Simulation

/-!
# The JSON unpacker and its pointers

`json::Unpacker` as it is written: a pointer into the payload, loops that read a byte and move on,
and comparisons with the end of the data before every access. `Cursor` has the pointer as an index,
and a trace of what is done with it. The loops take fuel.

The functions of `Unpacker`, which have the rest of the data instead of a pointer, are what these
functions compute (`Simulates`): with fuel for two turns more than there are bytes no loop stops too
early, all bytes read and all views returned lie in the payload, and the pointer never moves back
nor further than one beyond the end (`Cursor.Bounded`).

## The two models

The parser of the source has one number to stand on, `data_pointer`, and compares it with `data_end`
before it reads. The functions of `Unpacker` do without the number: they have what is left of the
data, or nothing once the end was passed. Everything else in this development is about the latter.
This module is what entitles it to that: `Cursor.abs` forgets the bytes before the pointer, and each
function of the source computes what its counterpart does.

## The trace

A C++ program that reads beyond the end of its buffer goes on with whatever it finds there. So the
reads are part of the model: every access leaves an entry in `Cursor.trace`, and `Within` says that
all entries so far were in range, that the pointer is in range or one beyond, and that the payload
is the one of the start. It is the invariant of every loop, and the only thing that is said of the
trace.

## Fuel

A loop of the source moves the pointer in each turn, so it makes no more turns than there are bytes,
and one or two to see the end. The lemmas of the loops go by induction on what remains
(`Unpacker.remaining`), and ask for fuel for two turns more than there are bytes.
-/

namespace Json

/-- What is done with the pointers of the unpacker. -/
inductive Access
  /-- The byte with this index is read. -/
  | read (index : ℕ)
  /-- `data_pointer` is set to this index. -/
  | move (position : ℕ)
  /-- A `string_view` of these bytes is made. -/
  | view (start length : ℕ)
  deriving DecidableEq, Repr

/-- `Unpacker`, with its pointers as indices. -/
structure Cursor where
  data : Bytes
  /-- `data_pointer`. -/
  position : ℕ := 0
  /-- `ec == OutOfRange`. -/
  outOfRange : Bool := false
  trace : List Access := []
  deriving DecidableEq, Repr

/-- The functions of the unpacker. -/
abbrev Scan :=
  StateT Cursor Option

namespace Cursor

/-! ### Access -/

/-- The byte at a pointer. -/
def deref (index : ℕ) : Scan UInt8 := fun c ↦
  some (c.data.getD index 0, { c with trace := c.trace ++ [.read index] })

/-- `data_pointer` is set. -/
def moveTo (position : ℕ) : Scan Unit := fun c ↦
  some ((), { c with position, trace := c.trace ++ [.move position] })

/-- `string_view(start, data_pointer - start)`. -/
def viewFrom (start : ℕ) : Scan Str := fun c ↦
  some ((c.data.drop start).take (c.position - start),
    { c with trace := c.trace ++ [.view start (c.position - start)] })

/-- `ec` is set or cleared. -/
def setError (outOfRange : Bool) : Scan Unit :=
  modify fun c ↦ { c with outOfRange }

/-- `ec != Success`. -/
def failed : Scan Bool :=
  Cursor.outOfRange <$> get

/-- `data_pointer` is read, and no byte is. -/
def dataPointer : Scan ℕ :=
  Cursor.position <$> get

/-- The byte at the pointer, or 0 and an error at the end. -/
def safeData : Scan UInt8 := do
  let c ← get
  if c.position < c.data.length then deref c.position
  else
    setError true
    return 0

/-- The byte at a pointer, if it is before the end. -/
def safePeek (ptr : ℕ) : Scan (Option UInt8) := do
  let c ← get
  if ptr < c.data.length then some <$> deref ptr else return none

/-- The pointer moves on, or there is an error beyond the end. -/
def safeIncrement : Scan Unit := do
  let c ← get
  if c.position ≤ c.data.length then moveTo (c.position + 1) else setError true

/-- The next pointer, if there is one. -/
def safePeekIncrement (ptr : ℕ) : Scan (Option ℕ) := do
  let c ← get
  return if ptr ≤ c.data.length then some (ptr + 1) else none

/-! ### Searching -/

/-- The pointer moves behind the next occurrence. -/
def safeFindAfter (fuel : ℕ) (ch : UInt8) : Scan Unit :=
  doWhile (fun _ ↦ do
    let c ← safeData
    safeIncrement
    let stop ← failed
    return ((), !stop && c ≠ ch)) fuel ()

/-- The pointer moves to the next occurrence. -/
def safeFind (fuel : ℕ) (ch : UInt8) : Scan Unit :=
  doWhile (fun _ ↦ do
    let c ← safeData
    if c = ch then return ((), false)
    safeIncrement
    let stop ← failed
    return ((), !stop)) fuel ()

/-- `safe_peek_find`, which moves `data_pointer` and returns an error. -/
def safePeekFind (fuel : ℕ) (chars : List UInt8) : Scan Bool :=
  doWhile (fun _ ↦ do
    let ptr ← dataPointer
    match ← safePeek ptr with
    | none => return (true, false)
    | some c =>
      if c ∈ chars then return (false, false)
      match ← safePeekIncrement ptr with
      | some ptr =>
        moveTo ptr
        return (false, true)
      | none => return (true, false)) fuel false

/-- `safe_find` of several characters. -/
def safeFindAny (fuel : ℕ) (chars : List UInt8) : Scan Unit := do
  let outOfRange ← safePeekFind fuel chars
  setError outOfRange

/-! ### Tokens -/

def unpackArray (fuel : ℕ) : Scan Unit :=
  safeFindAfter fuel 0x5b

def unpackArrayEnd (fuel : ℕ) : Scan Unit :=
  safeFindAfter fuel 0x5d

def unpackObject (fuel : ℕ) : Scan Unit :=
  safeFindAfter fuel 0x7b

def unpackObjectEnd (fuel : ℕ) : Scan Unit :=
  safeFindAfter fuel 0x7d

/-- A string and the colon behind it. -/
def unpackKey (fuel : ℕ) : Scan Str := do
  safeFindAfter fuel 0x22
  if ← failed then return []
  let keyBegin ← dataPointer
  safeFind fuel 0x22
  if ← failed then return []
  let key ← viewFrom keyBegin
  safeIncrement
  return key

def unpackString (fuel : ℕ) : Scan Str :=
  unpackKey fuel

/-- `std::from_chars` only reads the characters of the view. -/
def unpackInt (fuel : ℕ) (indeterminate : Int32) : Scan Int32 := do
  safeFindAny fuel Unpacker.numberStart
  if ← failed then return 0
  let start ← dataPointer
  safeFindAny fuel [0x2c, 0x7d]
  if ← failed then return 0
  let asStr ← viewFrom start
  match Unpacker.fromChars asStr with
  | .value i => return i
  | .resultOutOfRange => return indeterminate
  | .invalidArgument =>
    setError true
    return 0

/-- The bytes from a pointer on are these. The comparison stops at the first that differs. -/
def sameBytes : ℕ → Str → Scan Bool
  | _, [] => return true
  | ptr, c :: word => do
    if (← deref ptr) = c then sameBytes (ptr + 1) word else return false

/-- The word stands behind the byte at a pointer, which is its first letter. -/
def follows (ptr : ℕ) (word : Str) : Scan Bool := do
  let c ← get
  if ptr + word.length < c.data.length then sameBytes (ptr + 1) word else return false

/-- The cases of the `switch` in `unpack_bool`. -/
def boolAt (c : UInt8) (ptr : ℕ) : Scan (Option Bool) := do
  if c = 0x74 then return if ← follows ptr (ascii "rue") then some true else none
  else if c = 0x66 then return if ← follows ptr (ascii "alse") then some false else none
  else return none

def unpackBool (fuel : ℕ) : Scan Bool :=
  doWhile (fun _ ↦ do
    let c ← safeData
    if ← failed then return (false, false)
    let ptr ← dataPointer
    match ← boolAt c ptr with
    | some true =>
      moveTo (ptr + 4)
      return (true, false)
    | some false =>
      moveTo (ptr + 5)
      return (false, false)
    | none =>
      match ← safePeekIncrement ptr with
      | some ptr =>
        moveTo ptr
        setError false
        return (false, true)
      | none =>
        setError true
        return (false, false)) fuel false

/-- The cases of the `switch` in `peek_type`. -/
def typeAt (c : UInt8) (ptr : ℕ) : Scan (Option DataType) := do
  if c = 0x5b then return some .array
  else if c = 0x5d then return some .arrayEnd
  else if c = 0x7b then return some .object
  else if c = 0x7d then return some .objectEnd
  else if c = 0x22 then return some .str
  else if c ∈ Unpacker.numberStart then return some .int
  else if c = 0x74 then return if ← follows ptr (ascii "rue") then some .true else none
  else if c = 0x66 then return if ← follows ptr (ascii "alse") then some .false else none
  else if c = 0x6e then return if ← follows ptr (ascii "ull") then some .null else none
  else return none

/-- `peek_type(type)`: a pointer of its own is moved. -/
def peekType (fuel : ℕ) : Scan (Option DataType) := do
  let ptr ← dataPointer
  Prod.snd <$> doWhile (fun p ↦ do
    match ← safePeek p.1 with
    | none => return ((p.1, none), false)
    | some c =>
      match ← typeAt c p.1 with
      | some type => return ((p.1, some type), false)
      | none =>
        match ← safePeekIncrement p.1 with
        | some ptr => return ((ptr, none), true)
        | none => return ((p.1, none), false)) fuel (ptr, none)

/-- `peek_type()`. -/
def peek (fuel : ℕ) : Scan DataType :=
  (·.getD .null) <$> peekType fuel

/-- A value that may be `null`, which is not moved past. -/
def unpackDefaultBool (fuel : ℕ) : Scan (Option Bool) := do
  if (← peek fuel) = .null then return none
  else some <$> unpackBool fuel

end Cursor

/-! ### Searches, one byte at a time -/

namespace Unpacker

variable {chars : List UInt8} {ch b : UInt8}

/-- One turn of the loop, before the end. -/
theorem safeFindAfter_cons (data : Bytes) :
    safeFindAfter ch ⟨some (b :: data), false⟩ =
      if b = ch then ((), ⟨some data, false⟩) else safeFindAfter ch ⟨some data, false⟩ := by
  show (match (b :: data).dropWhile (· ≠ ch) with | _ :: rest => _ | [] => _) = _
  by_cases h : b = ch
  · rw [List.dropWhile_cons_of_neg (by simp [h]), if_pos h]
  · rw [List.dropWhile_cons_of_pos (by simp [h]), if_neg h]
    rfl

/-- The loop at the end. -/
theorem safeFindAfter_nil (ch : UInt8) (outOfRange : Bool) :
    safeFindAfter ch ⟨some [], outOfRange⟩ = ((), ⟨none, true⟩) := by
  cases outOfRange <;> rfl

/-- Without an error, `safe_find` skips what is not the character. -/
theorem safeFind_eq (ch : UInt8) (data : Bytes) :
    safeFind ch ⟨some data, false⟩ =
      ((), if data.dropWhile (· ≠ ch) = [] then ⟨none, true⟩
        else ⟨some (data.dropWhile (· ≠ ch)), false⟩) := by
  unfold safeFind
  dsimp only
  cases data.dropWhile (· ≠ ch) <;> rfl

/-- The search ends where it starts. -/
theorem safeFind_here (data : Bytes) (outOfRange : Bool) :
    safeFind ch ⟨some (ch :: data), outOfRange⟩ = ((), ⟨some (ch :: data), outOfRange⟩) := by
  cases outOfRange with
  | true =>
    show ((), (⟨if some ch = some ch then _ else _, true⟩ : Unpacker)) = _
    rw [if_pos rfl]
  | false =>
    rw [safeFind_eq, List.dropWhile_cons_of_neg (by simp)]
    rfl

/-- One turn of the loop. It ends with an error that was there before, which the loop tests behind
the move. -/
theorem safeFind_cons (h : b ≠ ch) (data : Bytes) (outOfRange : Bool) :
    safeFind ch ⟨some (b :: data), outOfRange⟩ =
      if outOfRange then ((), ⟨some data, true⟩) else safeFind ch ⟨some data, false⟩ := by
  cases outOfRange with
  | true =>
    show ((), (⟨if some b = some ch then _ else _, true⟩ : Unpacker)) = _
    rw [if_neg (by simp [h])]
    rfl
  | false =>
    rw [if_neg Bool.false_ne_true, safeFind_eq, safeFind_eq,
      List.dropWhile_cons_of_pos (by simp [h])]

/-- At the end the byte is 0 and the pointer moves beyond. -/
theorem safeFind_nil (ch : UInt8) (outOfRange : Bool) :
    safeFind ch ⟨some [], outOfRange⟩ = ((), ⟨none, true⟩) := by
  cases outOfRange <;> rfl

/-- What `safe_peek_find` does, whose error `safe_find` takes over. -/
def peekFind (chars : List UInt8) : StateM Unpacker Bool := fun u ↦
  match u.rest with
  | some data =>
    let rest := data.dropWhile (· ∉ chars)
    (rest.isEmpty, { u with rest := some rest })
  | none => (true, u)

/-- Looking ends where it starts. -/
theorem peekFind_here (h : b ∈ chars) (data : Bytes) (outOfRange : Bool) :
    peekFind chars ⟨some (b :: data), outOfRange⟩ = (false, ⟨some (b :: data), outOfRange⟩) := by
  show (_, (⟨some ((b :: data).dropWhile (· ∉ chars)), outOfRange⟩ : Unpacker)) = _
  rw [List.dropWhile_cons_of_neg (by simp [h])]
  rfl

theorem peekFind_cons (h : b ∉ chars) (data : Bytes) (outOfRange : Bool) :
    peekFind chars ⟨some (b :: data), outOfRange⟩ = peekFind chars ⟨some data, outOfRange⟩ := by
  show (_, (⟨some ((b :: data).dropWhile (· ∉ chars)), outOfRange⟩ : Unpacker)) = _
  rw [List.dropWhile_cons_of_pos (by simp [h])]
  rfl

/-- A search without an error has stopped in the data. -/
theorem safeFind_found (ch : UInt8) (u : Unpacker) (h : (safeFind ch u).2.outOfRange = false) :
    (safeFind ch u).2.rest ≠ none := by
  obtain ⟨_ | data, _ | _⟩ := u
  · exact absurd h.symm Bool.false_ne_true
  · exact absurd h.symm Bool.false_ne_true
  · rw [safeFind_eq] at h ⊢
    by_cases hnil : data.dropWhile (· ≠ ch) = []
    · rw [if_pos hnil] at h
      exact absurd h.symm Bool.false_ne_true
    · rw [if_neg hnil]
      exact Option.some_ne_none _
  · exact absurd h.symm Bool.false_ne_true

theorem safeFindAny_found (chars : List UInt8) (u : Unpacker)
    (h : (safeFindAny chars u).2.outOfRange = false) : (safeFindAny chars u).2.rest ≠ none := by
  obtain ⟨_ | data, outOfRange⟩ := u
  · exact absurd h.symm Bool.false_ne_true
  · exact Option.some_ne_none _

/-- `safe_find` of several characters takes over the error. -/
theorem safeFindAny_eq (chars : List UInt8) :
    safeFindAny chars =
      peekFind chars >>= fun outOfRange ↦ modify fun u ↦ { u with outOfRange } := by
  funext u
  obtain ⟨_ | data, outOfRange⟩ := u <;> rfl

end Unpacker

/-! ### Bounds

A state is seen as the unpacker with the rest of the data behind its pointer. -/

/-- The positions a pointer is set to. -/
def Access.target : Access → Option ℕ
  | .move position => some position
  | _ => none

/-- All that has been done with the pointers lies in the data, and `data_pointer` has never moved
back. -/
structure Cursor.Bounded (c : Cursor) : Prop where
  position_le : c.position ≤ c.data.length + 1
  reads : ∀ index, .read index ∈ c.trace → index < c.data.length
  views : ∀ start length, .view start length ∈ c.trace → start + length ≤ c.data.length
  moves : (c.trace.filterMap Access.target).Pairwise (· ≤ ·)
  moves_le : ∀ position ∈ c.trace.filterMap Access.target, position ≤ c.position

namespace Cursor

/-- What of the data can still be read. -/
def abs (c : Cursor) : Unpacker where
  rest := if c.position ≤ c.data.length then some (c.data.drop c.position) else none
  outOfRange := c.outOfRange

/-- The state of an unpacker of this payload. -/
def Within (payload : Bytes) (c : Cursor) : Prop :=
  c.data = payload ∧ c.Bounded

variable {payload : Bytes} {c : Cursor}

/-- Nothing was read yet. -/
theorem within_start : Within payload { data := payload } where
  left := rfl
  right :=
    { position_le := Nat.zero_le _
      reads := fun _ h ↦ absurd h List.not_mem_nil
      views := fun _ _ h ↦ absurd h List.not_mem_nil
      moves := .nil
      moves_le := fun _ h ↦ absurd h List.not_mem_nil }

/-- The whole payload is left. -/
theorem abs_start : ({ data := payload } : Cursor).abs = Unpacker.setData payload :=
  rfl

/-- What is left, for a pointer in the data or at their end. -/
theorem abs_of_le (h : c.position ≤ c.data.length) :
    c.abs = ⟨some (c.data.drop c.position), c.outOfRange⟩ := by
  rw [abs, if_pos h]

/-- Nothing is left for a pointer beyond the end. -/
theorem abs_of_gt (h : c.data.length < c.position) : c.abs = ⟨none, c.outOfRange⟩ := by
  rw [abs, if_neg (Nat.not_le.mpr h)]

/-- The rest of the data where there is a byte at the pointer. -/
theorem drop_position {ptr : ℕ} (h : ptr < c.data.length) :
    c.data.drop ptr = c.data.getD ptr 0 :: c.data.drop (ptr + 1) := by
  rw [List.drop_eq_getElem_cons h, List.getD_eq_getElem?_getD, List.getElem?_eq_getElem h,
    Option.getD_some]

/-- What remains is counted from the pointer. -/
theorem remaining_abs (h : Within payload c) : c.abs.remaining =
    payload.length + 1 - c.position := by
  obtain ⟨rfl, hb⟩ := h
  rcases Nat.lt_or_ge c.data.length c.position with hgt | hle
  · rw [abs_of_gt hgt]
    show 0 = _
    omega
  · rw [abs_of_le hle]
    show (c.data.drop c.position).length + 1 = _
    rw [List.length_drop]
    omega

theorem remaining_lt (h : Within payload c) : c.abs.remaining < payload.length + 2 := by
  rw [remaining_abs h]
  omega

/-! ### Access -/

/-- The state with something more in its trace that is not a move. -/
theorem within_access {a : Access} (h : Within payload c) (htarget : a.target = none)
    (hread : ∀ index, a = .read index → index < payload.length)
    (hview : ∀ start length, a = .view start length → start + length ≤ payload.length) :
    Within payload { c with trace := c.trace ++ [a] } := by
  obtain ⟨rfl, hb⟩ := h
  have hmoves : (c.trace ++ [a]).filterMap Access.target = c.trace.filterMap Access.target := by
    rw [List.filterMap_append, List.filterMap_cons_none htarget, List.filterMap_nil,
      List.append_nil]
  refine ⟨rfl, hb.position_le, fun index hmem ↦ ?_, fun start length hmem ↦ ?_, ?_, ?_⟩
  · rcases List.mem_append.mp hmem with hold | hnew
    · exact hb.reads index hold
    · exact hread index (List.mem_singleton.mp hnew).symm
  · rcases List.mem_append.mp hmem with hold | hnew
    · exact hb.views start length hold
    · exact hview start length (List.mem_singleton.mp hnew).symm
  · rw [hmoves]
    exact hb.moves
  · rw [hmoves]
    exact hb.moves_le

/-- A program that leaves the pointer and the error as they are. -/
def Looks (payload : Bytes) (c c' : Cursor) : Prop :=
  Within payload c' ∧ c'.position = c.position ∧ c'.outOfRange = c.outOfRange

theorem Looks.refl (h : Within payload c) : Looks payload c c :=
  ⟨h, rfl, rfl⟩

theorem Looks.trans {c' c'' : Cursor} (h : Looks payload c c') (h' : Looks payload c' c'') :
    Looks payload c c'' :=
  ⟨h'.1, h'.2.1.trans h.2.1, h'.2.2.trans h.2.2⟩

theorem Looks.abs_eq {c' : Cursor} (h : Within payload c) (h' : Looks payload c c') :
    c'.abs = c.abs := by
  rw [abs, abs, h'.2.1, h'.2.2, h'.1.1, h.1]

/-- A byte in range is read. -/
theorem deref_spec {index : ℕ} (h : Within payload c) (hindex : index < payload.length) :
    Terminates (deref index) c fun b c' ↦ b = payload.getD index 0 ∧ Looks payload c c' := by
  refine ⟨_, _, rfl, by rw [h.1], ?_, rfl, rfl⟩
  refine within_access h rfl (fun i hi ↦ ?_) fun start length hv ↦ absurd hv (by simp)
  obtain rfl := Access.read.inj hi
  exact hindex

/-- The pointer is moved forward, at most to one beyond the end. -/
theorem moveTo_spec {position : ℕ} (h : Within payload c) (hforward : c.position ≤ position)
    (hposition : position ≤ payload.length + 1) :
    Terminates (moveTo position) c fun _ c' ↦
      Within payload c' ∧ c'.position = position ∧ c'.outOfRange = c.outOfRange := by
  obtain ⟨rfl, hb⟩ := h
  have hmoves : (c.trace ++ [Access.move position]).filterMap Access.target =
      c.trace.filterMap Access.target ++ [position] :=
    List.filterMap_append
  refine ⟨_, _, rfl, ⟨rfl, hposition, fun index hmem ↦ ?_, fun start length hmem ↦ ?_, ?_, ?_⟩,
    rfl, rfl⟩
  · rcases List.mem_append.mp hmem with hold | hnew
    · exact hb.reads index hold
    · exact absurd (List.mem_singleton.mp hnew) (by simp)
  · rcases List.mem_append.mp hmem with hold | hnew
    · exact hb.views start length hold
    · exact absurd (List.mem_singleton.mp hnew) (by simp)
  · rw [hmoves, List.pairwise_append]
    refine ⟨hb.moves, List.pairwise_singleton _ _, fun p hp q hq ↦ ?_⟩
    rw [List.mem_singleton.mp hq]
    exact (hb.moves_le p hp).trans hforward
  · rw [hmoves]
    intro p hp
    rcases List.mem_append.mp hp with hold | hnew
    · exact (hb.moves_le p hold).trans hforward
    · exact (List.mem_singleton.mp hnew).le

/-- A view of bytes in range is made. -/
theorem viewFrom_spec {start : ℕ} (h : Within payload c) (hstart : start ≤ c.position)
    (hposition : c.position ≤ payload.length) :
    Terminates (viewFrom start) c fun s c' ↦
      s = (payload.drop start).take (c.position - start) ∧ Looks payload c c' := by
  refine ⟨_, _, rfl, by rw [h.1], ?_, rfl, rfl⟩
  refine within_access h rfl (fun i hi ↦ absurd hi (by simp)) fun s length hv ↦ ?_
  obtain ⟨rfl, rfl⟩ := Access.view.inj hv
  omega

theorem within_setError (h : Within payload c) (outOfRange : Bool) :
    Within payload { c with outOfRange } :=
  ⟨h.1, h.2.position_le, h.2.reads, h.2.views, h.2.moves, h.2.moves_le⟩

theorem setError_spec (h : Within payload c) (outOfRange : Bool) :
    Terminates (setError outOfRange) c fun _ c' ↦
      Within payload c' ∧ c'.position = c.position ∧ c'.outOfRange = outOfRange :=
  ⟨_, _, rfl, within_setError h outOfRange, rfl, rfl⟩

theorem failed_spec (c : Cursor) : Terminates failed c fun b c' ↦ b = c.outOfRange ∧ c' = c :=
  ⟨_, _, rfl, rfl, rfl⟩

theorem dataPointer_spec (c : Cursor) :
    Terminates dataPointer c fun ptr c' ↦ ptr = c.position ∧ c' = c :=
  ⟨_, _, rfl, rfl, rfl⟩

/-- A look ahead, which reads nothing at the end. -/
theorem safePeek_spec (h : Within payload c) (ptr : ℕ) :
    Terminates (safePeek ptr) c fun b c' ↦
      b = (if ptr < payload.length then some (payload.getD ptr 0) else none) ∧
        Looks payload c c' := by
  show Terminates (if ptr < c.data.length then some <$> deref ptr else return none) c _
  rw [h.1]
  split
  · next hlt =>
    rw [map_eq_pure_bind]
    refine (deref_spec h hlt).bind fun b c' hb ↦ .pure ⟨?_, hb.2⟩
    rw [hb.1]
  · exact .pure ⟨rfl, .refl h⟩

/-- A pointer that looks ahead, which is moved but not followed. -/
theorem safePeekIncrement_spec (h : Within payload c) (ptr : ℕ) :
    Terminates (safePeekIncrement ptr) c fun next c' ↦
      next = (if ptr ≤ payload.length then some (ptr + 1) else none) ∧ c' = c :=
  ⟨_, _, rfl, by rw [h.1], rfl⟩

theorem abs_of_moved {position : ℕ} (h : Within payload c) (hposition : c.position = position)
    (hle : position ≤ payload.length) : c.abs = ⟨some (payload.drop position), c.outOfRange⟩ := by
  obtain ⟨rfl, hb⟩ := h
  obtain rfl := hposition
  exact abs_of_le hle

theorem abs_before (h : Within payload c) (hlt : c.position < payload.length) :
    c.abs = ⟨some (payload.getD c.position 0 :: payload.drop (c.position + 1)), c.outOfRange⟩ := by
  obtain ⟨rfl, hb⟩ := h
  rw [abs_of_le hlt.le, drop_position hlt]

theorem abs_end (h : Within payload c) (heq : c.position = payload.length) :
    c.abs = ⟨some [], c.outOfRange⟩ := by
  rw [abs_of_moved h heq le_rfl, List.drop_length]

theorem abs_beyond (h : Within payload c) (hgt : payload.length < c.position) :
    c.abs = ⟨none, c.outOfRange⟩ := by
  obtain ⟨rfl, hb⟩ := h
  exact abs_of_gt hgt

/-- At the end of the data both searches come to stand one byte beyond. -/
theorem abs_after (h : Within payload c) (hge : payload.length ≤ c.position) :
    c.abs = ⟨some [], c.outOfRange⟩ ∨ c.abs = ⟨none, c.outOfRange⟩ := by
  rcases Nat.eq_or_lt_of_le hge with heq | hgt
  · exact .inl (abs_end h heq.symm)
  · exact .inr (abs_beyond h hgt)

/-- In the data the byte is read. -/
theorem safeData_before (h : Within payload c) (hlt : c.position < payload.length) :
    Terminates safeData c fun b c' ↦ b = payload.getD c.position 0 ∧ Looks payload c c' := by
  show Terminates (if c.position < c.data.length then deref c.position else _) c _
  rw [h.1, if_pos hlt]
  exact deref_spec h hlt

/-- At the end nothing is read. -/
theorem safeData_after (h : Within payload c) (hge : payload.length ≤ c.position) :
    Terminates safeData c fun b c' ↦
      b = 0 ∧ Within payload c' ∧ c'.position = c.position ∧ c'.outOfRange = true := by
  show Terminates (if c.position < c.data.length then _ else do setError true; return 0) c _
  rw [h.1, if_neg (Nat.not_lt.mpr hge)]
  exact (setError_spec h true).bind fun _ _ h' ↦ .pure ⟨rfl, h'⟩

/-- The pointer moves on, also from the end to one beyond. -/
theorem safeIncrement_before (h : Within payload c) (hle : c.position ≤ payload.length) :
    Terminates safeIncrement c fun _ c' ↦
      Within payload c' ∧ c'.position = c.position + 1 ∧ c'.outOfRange = c.outOfRange := by
  show Terminates (if c.position ≤ c.data.length then moveTo (c.position + 1) else _) c _
  rw [h.1, if_pos hle]
  exact moveTo_spec h (Nat.le_succ _) (Nat.succ_le_succ hle)

/-- Beyond the end it stays. -/
theorem safeIncrement_after (h : Within payload c) (hgt : payload.length < c.position) :
    Terminates safeIncrement c fun _ c' ↦
      Within payload c' ∧ c'.position = c.position ∧ c'.outOfRange = true := by
  show Terminates (if c.position ≤ c.data.length then _ else setError true) c _
  rw [h.1, if_neg (Nat.not_le.mpr hgt)]
  exact setError_spec h true

/-- Beyond the last byte the pointer comes to stand one further, with an error. -/
theorem safeIncrement_end {c c' : Cursor} (hge : payload.length ≤ c.position)
    (h : Within payload c') (hpos : c'.position = c.position) (herror : c'.outOfRange = true) :
    Terminates safeIncrement c' fun _ c'' ↦ Within payload c'' ∧ c''.abs = ⟨none, true⟩ := by
  rcases Nat.lt_or_ge payload.length c'.position with hgt | hle
  · refine (safeIncrement_after h hgt).imp fun _ c'' h' ↦ ⟨h'.1, ?_⟩
    rw [abs_beyond h'.1 (h'.2.1 ▸ hgt), h'.2.2]
  · refine (safeIncrement_before h hle).imp fun _ c'' h' ↦ ⟨h'.1, ?_⟩
    rw [abs_beyond h'.1 (by omega), h'.2.2, herror]

theorem simulates_failed : Simulates (Within payload) abs failed Unpacker.failed :=
  fun c h ↦ (failed_spec c).imp fun _ _ h' ↦ by
    obtain ⟨rfl, rfl⟩ := h'
    exact ⟨h, rfl⟩

theorem simulates_setError (outOfRange : Bool) : Simulates (Within payload) abs
    (setError outOfRange) (modify fun u ↦ { u with outOfRange }) :=
  fun _ h ↦ ⟨_, _, rfl, within_setError h outOfRange, rfl⟩

theorem simulates_safeIncrement :
    Simulates (Within payload) abs safeIncrement Unpacker.safeIncrement := by
  intro c h
  rcases Nat.lt_or_ge payload.length c.position with hgt | hle
  · refine (safeIncrement_after h hgt).imp fun _ c' h' ↦ ⟨h'.1, ?_⟩
    rw [abs_beyond h hgt, abs_beyond h'.1 (h'.2.1 ▸ hgt), h'.2.2]
    rfl
  · refine (safeIncrement_before h hle).imp fun _ c' h' ↦ ⟨h'.1, ?_⟩
    rcases Nat.lt_or_eq_of_le hle with hlt | heq
    · rw [abs_before h hlt, abs_of_moved h'.1 h'.2.1 hlt, h'.2.2]
      rfl
    · rw [abs_end h heq, abs_beyond h'.1 (by omega), h'.2.2]
      rfl

/-! ### Searching -/

variable {fuel : ℕ}

/-- The induction is on what remains: a turn that does not end the loop has moved the pointer. -/
theorem simulates_safeFindAfter (ch : UInt8) (hfuel : payload.length + 2 ≤ fuel) :
    Simulates (Within payload) abs (safeFindAfter fuel ch) (Unpacker.safeFindAfter ch) := by
  refine .doWhile (m := Unpacker.remaining) (fun _ c h ↦ ?_)
    (fun c h ↦ (remaining_lt h).trans_le hfuel) ()
  rcases Nat.lt_or_ge c.position payload.length with hlt | hge
  · refine (safeData_before h hlt).bind fun b c₁ h₁ ↦ ?_
    refine (safeIncrement_before h₁.2.1 (h₁.2.2.1 ▸ hlt.le)).bind fun _ c₂ h₂ ↦ ?_
    refine (failed_spec c₂).bind fun stop c₃ h₃ ↦ .pure ?_
    obtain ⟨rfl, rfl⟩ := h₃
    have hpos : c₃.position = c.position + 1 := by rw [h₂.2.1, h₁.2.2.1]
    refine ⟨h₂.1, ?_⟩
    rw [abs_before h hlt, ← h₁.1, abs_of_moved h₂.1 hpos hlt, h₂.2.2, h₁.2.2.2]
    cases c.outOfRange with
    | true => exact rfl
    | false =>
      rw [Unpacker.safeFindAfter_cons]
      by_cases hch : b = ch
      · rw [if_neg (by simp [hch]), if_pos hch]
      · rw [if_pos (by simp [hch]), if_neg hch]
        exact ⟨rfl, Nat.lt_succ_self _⟩
  · refine (safeData_after h hge).bind fun b c₁ h₁ ↦ ?_
    refine (safeIncrement_end hge h₁.2.1 h₁.2.2.1 h₁.2.2.2).bind fun _ c₂ h₂ ↦ ?_
    refine (failed_spec c₂).bind fun stop c₃ h₃ ↦ .pure ⟨?_, ?_⟩
    · rw [h₃.2]
      exact h₂.1
    · obtain ⟨rfl, rfl⟩ := h₃
      rw [if_neg (by rw [show c₃.outOfRange = true from congrArg Unpacker.outOfRange h₂.2]; simp)]
      rw [h₂.2]
      rcases abs_after h hge with habs | habs <;> rw [habs]
      · exact Unpacker.safeFindAfter_nil ch _
      · rfl

/-- Only for a character that is not 0: at the end the search sees a 0 that is not there. -/
theorem simulates_safeFind {ch : UInt8} (hch : ch ≠ 0) (hfuel : payload.length + 2 ≤ fuel) :
    Simulates (Within payload) abs (safeFind fuel ch) (Unpacker.safeFind ch) := by
  refine .doWhile (m := Unpacker.remaining) (fun _ c h ↦ ?_)
    (fun c h ↦ (remaining_lt h).trans_le hfuel) ()
  rcases Nat.lt_or_ge c.position payload.length with hlt | hge
  · refine (safeData_before h hlt).bind fun b c₁ h₁ ↦ ?_
    rw [abs_before h hlt, ← h₁.1]
    by_cases hb : b = ch
    · rw [if_pos hb]
      refine .pure ⟨h₁.2.1, ?_⟩
      rw [h₁.2.abs_eq h, abs_before h hlt, ← h₁.1, hb]
      exact Unpacker.safeFind_here _ _
    · rw [if_neg hb]
      refine (safeIncrement_before h₁.2.1 (h₁.2.2.1 ▸ hlt.le)).bind fun _ c₂ h₂ ↦ ?_
      refine (failed_spec c₂).bind fun stop c₃ h₃ ↦ .pure ?_
      obtain ⟨rfl, rfl⟩ := h₃
      have hpos : c₃.position = c.position + 1 := by rw [h₂.2.1, h₁.2.2.1]
      refine ⟨h₂.1, ?_⟩
      rw [abs_of_moved h₂.1 hpos hlt, h₂.2.2, h₁.2.2.2, Unpacker.safeFind_cons hb]
      cases c.outOfRange with
      | true => exact rfl
      | false => exact ⟨rfl, Nat.lt_succ_self _⟩
  · refine (safeData_after h hge).bind fun b c₁ h₁ ↦ ?_
    rw [if_neg (h₁.1 ▸ hch.symm)]
    refine (safeIncrement_end hge h₁.2.1 h₁.2.2.1 h₁.2.2.2).bind fun _ c₂ h₂ ↦ ?_
    refine (failed_spec c₂).bind fun stop c₃ h₃ ↦ .pure ?_
    obtain ⟨rfl, rfl⟩ := h₃
    refine ⟨h₂.1, ?_⟩
    rw [if_neg (by rw [show c₃.outOfRange = true from congrArg Unpacker.outOfRange h₂.2]; simp)]
    rw [h₂.2]
    rcases abs_after h hge with habs | habs <;> rw [habs]
    · exact Unpacker.safeFind_nil ch _
    · rfl

/-- The loop looks ahead, and the pointer of the unpacker follows in the end. -/
theorem simulates_safePeekFind (chars : List UInt8) (hfuel : payload.length + 2 ≤ fuel) :
    Simulates (Within payload) abs (safePeekFind fuel chars)
      (Unpacker.peekFind chars) := by
  refine .doWhile (m := Unpacker.remaining) (fun _ c h ↦ ?_)
    (fun c h ↦ (remaining_lt h).trans_le hfuel) false
  refine (dataPointer_spec c).bind fun ptr c' hptr ↦ ?_
  obtain ⟨rfl, rfl⟩ := hptr
  refine (safePeek_spec h c'.position).bind fun b c₁ h₁ ↦ ?_
  obtain ⟨rfl, h₁⟩ := h₁
  rcases Nat.lt_or_ge c'.position payload.length with hlt | hge
  · rw [if_pos hlt, abs_before h hlt]
    generalize hbyte : payload.getD c'.position 0 = b
    show Terminates (if b ∈ chars then _ else _) c₁ _
    by_cases hb : b ∈ chars
    · rw [if_pos hb]
      refine .pure ⟨h₁.1, ?_⟩
      rw [h₁.abs_eq h, abs_before h hlt, hbyte]
      exact Unpacker.peekFind_here hb _ _
    · rw [if_neg hb]
      refine (safePeekIncrement_spec h₁.1 c'.position).bind fun next c₂ h₂ ↦ ?_
      obtain ⟨rfl, rfl⟩ := h₂
      rw [if_pos hlt.le]
      refine (moveTo_spec h₁.1 (h₁.2.1 ▸ Nat.le_succ _) (Nat.succ_le_succ hlt.le)).bind
        fun _ c₃ h₃ ↦ .pure ⟨h₃.1, ?_⟩
      rw [abs_of_moved h₃.1 h₃.2.1 hlt, h₃.2.2, h₁.2.2]
      exact ⟨(Unpacker.peekFind_cons hb _ _).symm, Nat.lt_succ_self _⟩
  · rw [if_neg (Nat.not_lt.mpr hge)]
    refine .pure ⟨h₁.1, ?_⟩
    rw [h₁.abs_eq h]
    rcases abs_after h hge with habs | habs <;> rw [habs] <;> rfl

theorem simulates_safeFindAny (chars : List UInt8) (hfuel : payload.length + 2 ≤ fuel) :
    Simulates (Within payload) abs (safeFindAny fuel chars) (Unpacker.safeFindAny chars) := by
  rw [Unpacker.safeFindAny_eq]
  exact (simulates_safePeekFind chars hfuel).bind simulates_setError

/-! ### Tokens -/

theorem simulates_unpackArray (hfuel : payload.length + 2 ≤ fuel) :
    Simulates (Within payload) abs (unpackArray fuel) Unpacker.unpackArray :=
  simulates_safeFindAfter _ hfuel

theorem simulates_unpackArrayEnd (hfuel : payload.length + 2 ≤ fuel) :
    Simulates (Within payload) abs (unpackArrayEnd fuel) Unpacker.unpackArrayEnd :=
  simulates_safeFindAfter _ hfuel

theorem simulates_unpackObject (hfuel : payload.length + 2 ≤ fuel) :
    Simulates (Within payload) abs (unpackObject fuel) Unpacker.unpackObject :=
  simulates_safeFindAfter _ hfuel

theorem simulates_unpackObjectEnd (hfuel : payload.length + 2 ≤ fuel) :
    Simulates (Within payload) abs (unpackObjectEnd fuel) Unpacker.unpackObjectEnd :=
  simulates_safeFindAfter _ hfuel

/-- A view of what a search has passed over. The search must not end without an error where there
is nothing to see, one beyond the end. -/
theorem simulates_viewFrom {α : Type} {x : Scan Unit} {y : StateM Unpacker Unit} {a : α}
    {f : Str → Scan α} {g : Str → StateM Unpacker α} (hx : Simulates (Within payload) abs x y)
    (hy : Along Unpacker.Beyond y)
    (hfound : ∀ u, (y u).2.outOfRange = false → (y u).2.rest ≠ none)
    (hf : ∀ s, Simulates (Within payload) abs (f s) (g s)) :
    Simulates (Within payload) abs
      (do
        let start ← dataPointer
        x
        if ← failed then return a
        let s ← viewFrom start
        f s)
      (do
        let start ← (·.rest) <$> get
        y
        if ← Unpacker.failed then return a
        let s ← Unpacker.viewFrom start
        g s) := by
  intro c h
  refine (dataPointer_spec c).bind fun start c' hptr ↦ ?_
  obtain ⟨rfl, rfl⟩ := hptr
  refine (hx c' h).bind fun _ c₁ h₁ ↦ ?_
  refine (failed_spec c₁).bind fun stop c₂ h₂ ↦ ?_
  obtain ⟨rfl, rfl⟩ := h₂
  have hstate : (y c'.abs).2 = c₂.abs := congrArg Prod.snd h₁.2
  have hless : (y c'.abs).2.remaining ≤ c'.abs.remaining := hy c'.abs
  have hsome := hfound c'.abs
  rw [hstate] at hless hsome
  show Terminates (if c₂.outOfRange then pure a else viewFrom c'.position >>= f) c₂ fun b s ↦
    Within payload s ∧ (if (y c'.abs).2.outOfRange then pure a else
      Unpacker.viewFrom c'.abs.rest >>= g : StateM Unpacker α) (y c'.abs).2 = _
  rw [hstate]
  show Terminates _ c₂ fun b s ↦ Within payload s ∧ (if c₂.outOfRange then pure a else
    Unpacker.viewFrom c'.abs.rest >>= g : StateM Unpacker α) c₂.abs = _
  cases herror : c₂.outOfRange with
  | true => exact .pure ⟨h₁.1, rfl⟩
  | false =>
    rw [if_neg Bool.false_ne_true, if_neg Bool.false_ne_true]
    -- both pointers are in the data, and the search has moved forward
    have hle : c₂.position ≤ payload.length := by
      by_contra hgt
      refine hsome herror ?_
      rw [abs_beyond h₁.1 (Nat.not_le.mp hgt)]
    rw [remaining_abs h, remaining_abs h₁.1] at hless
    have hforward : c'.position ≤ c₂.position := by omega
    refine (viewFrom_spec h₁.1 hforward hle).bind fun s c₃ h₃ ↦ ?_
    obtain ⟨rfl, h₃⟩ := h₃
    refine (hf _ c₃ h₃.1).imp fun b c₄ h₄ ↦ ⟨h₄.1, ?_⟩
    rw [← h₄.2, h₃.abs_eq h₁.1, abs_of_moved h rfl (hforward.trans hle),
      abs_of_moved h₁.1 rfl hle]
    show g ((payload.drop c'.position).take ((payload.drop c'.position).length -
      (payload.drop c₂.position).length)) _ = _
    rw [List.length_drop, List.length_drop, show payload.length - c'.position -
      (payload.length - c₂.position) = c₂.position - c'.position by omega]

theorem simulates_unpackKey (hfuel : payload.length + 2 ≤ fuel) :
    Simulates (Within payload) abs (unpackKey fuel) Unpacker.unpackKey :=
  (simulates_safeFindAfter _ hfuel).bind fun _ ↦ simulates_failed.bind fun _ ↦ .ite (.pure _) <|
    simulates_viewFrom (simulates_safeFind (by decide) hfuel) (Unpacker.along_safeFind _)
      (Unpacker.safeFind_found _) fun key ↦ simulates_safeIncrement.bind fun _ ↦ .pure key

theorem simulates_unpackString (hfuel : payload.length + 2 ≤ fuel) :
    Simulates (Within payload) abs (unpackString fuel) Unpacker.unpackString :=
  simulates_unpackKey hfuel

theorem simulates_unpackInt (indeterminate : Int32) (hfuel : payload.length + 2 ≤ fuel) :
    Simulates (Within payload) abs (unpackInt fuel indeterminate)
      (Unpacker.unpackInt indeterminate) := by
  refine (simulates_safeFindAny _ hfuel).bind fun _ ↦ simulates_failed.bind fun _ ↦
    .ite (.pure _) <| simulates_viewFrom (simulates_safeFindAny _ hfuel)
      (Unpacker.along_safeFindAny _) (Unpacker.safeFindAny_found _) fun asStr ↦ ?_
  cases Unpacker.fromChars asStr with
  | value i => exact .pure i
  | resultOutOfRange => exact .pure indeterminate
  | invalidArgument => exact (simulates_setError true).bind fun _ ↦ .pure 0

/-! ### Words -/

/-- `memcmp`, which reads as many bytes as the word has. -/
theorem sameBytes_spec {ptr : ℕ} {word : Str} (h : Within payload c)
    (hlen : ptr + word.length ≤ payload.length) :
    Terminates (sameBytes ptr word) c fun b c' ↦
      b = decide (word <+: payload.drop ptr) ∧ Looks payload c c' := by
  induction word generalizing ptr c with
  | nil => exact .pure ⟨by simp, .refl h⟩
  | cons w word ih =>
    have hlt : ptr < payload.length := by
      rw [List.length_cons] at hlen
      omega
    refine (deref_spec h hlt).bind fun b c₁ h₁ ↦ ?_
    obtain ⟨hb, h₁⟩ := h₁
    have hdrop : payload.drop ptr = b :: payload.drop (ptr + 1) := by
      rw [hb, ← h.1, drop_position (h.1 ▸ hlt)]
    rw [hdrop]
    split
    · next heq =>
      refine (ih h₁.1 (by rw [List.length_cons] at hlen; omega)).imp fun b' c₂ h₂ ↦
        ⟨?_, h₁.trans h₂.2⟩
      rw [h₂.1, decide_eq_decide, List.cons_prefix_cons]
      exact (and_iff_right heq.symm).symm
    · next hne =>
      refine .pure ⟨?_, h₁⟩
      rw [eq_comm, decide_eq_false_iff_not, List.cons_prefix_cons]
      exact fun hsame ↦ hne hsame.1.symm

/-- The comparison is made only if the word fits. -/
theorem follows_spec {ptr : ℕ} {word : Str} (h : Within payload c) (hptr : ptr < payload.length) :
    Terminates (follows ptr word) c fun b c' ↦
      b = decide (word <+: payload.drop (ptr + 1)) ∧ Looks payload c c' := by
  show Terminates (if ptr + word.length < c.data.length then _ else _) c _
  rw [h.1]
  split
  · exact sameBytes_spec h (by omega)
  · refine .pure ⟨?_, .refl h⟩
    rw [eq_comm, decide_eq_false_iff_not]
    intro hsame
    have hlen := hsame.length_le
    rw [List.length_drop] at hlen
    omega

/-- A word is its first letter and what follows it. -/
theorem atWord_cons {w b : UInt8} {word : Str} {data : Bytes} :
    Unpacker.AtWord (w :: word) (b :: data) ↔ b = w ∧ word <+: data := by
  rw [Unpacker.AtWord, List.cons_prefix_cons, eq_comm]

theorem length_of_follows {ptr : ℕ} {word : Str} (h : word <+: payload.drop (ptr + 1))
    (hptr : ptr < payload.length) : ptr + (word.length + 1) ≤ payload.length := by
  have hlen := h.length_le
  rw [List.length_drop] at hlen
  omega

/-- A literal is read where its first letter stands. -/
theorem boolAt_spec (h : Within payload c) {ptr : ℕ} {b : UInt8} (hptr : ptr < payload.length) :
    Terminates (boolAt b ptr) c fun r c' ↦ Looks payload c c' ∧ match r with
      | some true => ptr + 4 ≤ payload.length ∧
        Unpacker.findBool (b :: payload.drop (ptr + 1)) = some (true, payload.drop (ptr + 4))
      | some false => ptr + 5 ≤ payload.length ∧
        Unpacker.findBool (b :: payload.drop (ptr + 1)) = some (false, payload.drop (ptr + 5))
      | none => Unpacker.findBool (b :: payload.drop (ptr + 1)) =
        Unpacker.findBool (payload.drop (ptr + 1)) := by
  have htrue : ascii "true" = 0x74 :: ascii "rue" := rfl
  have hfalse : ascii "false" = 0x66 :: ascii "alse" := rfl
  rw [Unpacker.findBool, htrue, hfalse]
  simp only [atWord_cons]
  unfold boolAt
  by_cases ht : b = 0x74
  · rw [if_pos ht]
    refine (follows_spec h hptr).bind fun r c₁ h₁ ↦ .pure ⟨h₁.2, ?_⟩
    rw [h₁.1]
    by_cases hword : ascii "rue" <+: payload.drop (ptr + 1)
    · rw [if_pos (decide_eq_true hword), if_pos ⟨ht, hword⟩, List.drop_drop]
      exact ⟨length_of_follows hword hptr, rfl⟩
    · have hf : ¬b = 0x66 := ht ▸ by decide
      rw [if_neg (by simpa using hword)]
      show (if _ then _ else _) = _
      rw [if_neg fun hw ↦ hword hw.2, if_neg fun hw ↦ hf hw.1]
  · rw [if_neg ht]
    by_cases hf : b = 0x66
    · rw [if_pos hf]
      refine (follows_spec h hptr).bind fun r c₁ h₁ ↦ .pure ⟨h₁.2, ?_⟩
      rw [h₁.1]
      by_cases hword : ascii "alse" <+: payload.drop (ptr + 1)
      · rw [if_pos (decide_eq_true hword), if_neg fun hw ↦ ht hw.1, if_pos ⟨hf, hword⟩,
          List.drop_drop]
        exact ⟨length_of_follows hword hptr, rfl⟩
      · rw [if_neg (by simpa using hword)]
        show (if _ then _ else _) = _
        rw [if_neg fun hw ↦ ht hw.1, if_neg fun hw ↦ hword hw.2]
    · rw [if_neg hf]
      refine .pure ⟨.refl h, ?_⟩
      show (if _ then _ else _) = _
      rw [if_neg fun hw ↦ ht hw.1, if_neg fun hw ↦ hf hw.1]

/-- Without an error, `unpack_bool` finds the next of its two words. -/
theorem unpackBool_eq (data : Bytes) :
    Unpacker.unpackBool ⟨some data, false⟩ =
      (Unpacker.findBool data).elim (false, ⟨some [], true⟩) fun r ↦ (r.1, ⟨some r.2, false⟩) := by
  unfold Unpacker.unpackBool
  dsimp only
  cases Unpacker.findBool data <;> rfl

theorem simulates_unpackBool (hfuel : payload.length + 2 ≤ fuel) :
    Simulates (Within payload) abs (unpackBool fuel) Unpacker.unpackBool := by
  refine .doWhile (m := Unpacker.remaining) (fun _ c h ↦ ?_)
    (fun c h ↦ (remaining_lt h).trans_le hfuel) false
  rcases Nat.lt_or_ge c.position payload.length with hlt | hge
  · refine (safeData_before h hlt).bind fun b c₁ h₁ ↦ ?_
    refine (failed_spec c₁).bind fun stop c₂ h₂ ↦ ?_
    obtain ⟨rfl, rfl⟩ := h₂
    rw [abs_before h hlt, ← h₁.1, h₁.2.2.2]
    cases herror : c.outOfRange with
    | true =>
      refine .pure ⟨h₁.2.1, ?_⟩
      rw [h₁.2.abs_eq h, abs_before h hlt, ← h₁.1, herror]
      rfl
    | false =>
      refine (dataPointer_spec c₂).bind fun ptr c₃ h₃ ↦ ?_
      obtain ⟨rfl, rfl⟩ := h₃
      rw [h₁.2.2.1]
      refine (boolAt_spec h₁.2.1 hlt).bind fun r c₄ h₄ ↦ ?_
      have herror₄ : c₄.outOfRange = false := by rw [h₄.1.2.2, h₁.2.2.2, herror]
      have hpos : c₄.position = c.position := by rw [h₄.1.2.1, h₁.2.2.1]
      rcases r with _ | _ | _
      · refine (safePeekIncrement_spec h₄.1.1 c.position).bind fun next c₅ h₅ ↦ ?_
        obtain ⟨rfl, rfl⟩ := h₅
        rw [if_pos hlt.le]
        refine (moveTo_spec h₄.1.1 (by omega) (by omega)).bind fun _ c₆ h₆ ↦ ?_
        refine (setError_spec h₆.1 false).bind fun _ c₇ h₇ ↦ .pure ⟨h₇.1, ?_⟩
        rw [abs_of_moved h₇.1 (h₇.2.1.trans h₆.2.1) hlt, h₇.2.2]
        refine ⟨?_, Nat.lt_succ_self _⟩
        rw [unpackBool_eq, unpackBool_eq, h₄.2]
      · refine (moveTo_spec h₄.1.1 (by omega) (by omega)).bind fun _ c₅ h₅ ↦ .pure ⟨h₅.1, ?_⟩
        rw [abs_of_moved h₅.1 h₅.2.1 h₄.2.1, h₅.2.2, herror₄]
        rw [if_neg Bool.false_ne_true, unpackBool_eq, h₄.2.2]
        rfl
      · refine (moveTo_spec h₄.1.1 (by omega) (by omega)).bind fun _ c₅ h₅ ↦ .pure ⟨h₅.1, ?_⟩
        rw [abs_of_moved h₅.1 h₅.2.1 h₄.2.1, h₅.2.2, herror₄]
        rw [if_neg Bool.false_ne_true, unpackBool_eq, h₄.2.2]
        rfl
  · refine (safeData_after h hge).bind fun b c₁ h₁ ↦ ?_
    refine (failed_spec c₁).bind fun stop c₂ h₂ ↦ ?_
    obtain ⟨rfl, rfl⟩ := h₂
    rw [h₁.2.2.2]
    refine .pure ⟨h₁.2.1, ?_⟩
    rcases Nat.eq_or_lt_of_le hge with heq | hgt
    · rw [abs_end h heq.symm, abs_end h₁.2.1 (h₁.2.2.1.trans heq.symm), h₁.2.2.2]
      cases c.outOfRange <;> rfl
    · rw [abs_beyond h hgt, abs_beyond h₁.2.1 (h₁.2.2.1 ▸ hgt), h₁.2.2.2]
      rfl

/-! ### Types -/

/-- The program tells what stands at the pointer, or else that it is what the search finds later. -/
def Tells (payload : Bytes) (c : Cursor) (x : Scan (Option DataType))
    (here later : Option DataType) : Prop :=
  Terminates x c fun r c' ↦ Looks payload c c' ∧ here = r.or later

section Tells

variable {x x' : Scan (Option DataType)} {here here' later : Option DataType}

theorem Tells.pure (h : Within payload c) {r : Option DataType} (hr : here = r.or later) :
    Tells payload c (pure r) here later :=
  Terminates.pure ⟨.refl h, hr⟩

/-- Case by case, as the tests of the source stand one behind the other. -/
theorem Tells.ite {p : Prop} [Decidable p] (hx : p → Tells payload c x here later)
    (hx' : ¬p → Tells payload c x' here' later) :
    Tells payload c (if p then x else x') (if p then here else here') later := by
  by_cases hp : p
  · rw [if_pos hp, if_pos hp]
    exact hx hp
  · rw [if_neg hp, if_neg hp]
    exact hx' hp

/-- A word, or something else that begins with another letter. -/
theorem Tells.word {ptr : ℕ} {b w : UInt8} {word : Str} {type : DataType} (h : Within payload c)
    (hptr : ptr < payload.length) (hother : b = w → here = later)
    (hx : b ≠ w → Tells payload c x here later) :
    Tells payload c
      (if b = w then do return if ← follows ptr word then some type else none else x)
      (if Unpacker.AtWord (w :: word) (b :: payload.drop (ptr + 1)) then some type else here)
      later := by
  simp only [atWord_cons]
  by_cases hb : b = w
  · rw [if_pos hb]
    refine (follows_spec h hptr).bind fun r c₁ h₁ ↦ .pure ⟨h₁.2, ?_⟩
    rw [h₁.1]
    by_cases hword : word <+: payload.drop (ptr + 1)
    · rw [if_pos ⟨hb, hword⟩, if_pos (decide_eq_true hword)]
      rfl
    · rw [if_neg fun hw ↦ hword hw.2, if_neg (by simpa using hword)]
      exact hother hb
  · rw [if_neg hb, if_neg fun hw ↦ hb hw.1]
    exact hx hb

end Tells

/-- The type that the byte tells, or that of the rest of the data. -/
theorem typeAt_tells (h : Within payload c) {ptr : ℕ} {b : UInt8} (hptr : ptr < payload.length) :
    Tells payload c (typeAt b ptr) (Unpacker.findType (b :: payload.drop (ptr + 1)))
      (Unpacker.findType (payload.drop (ptr + 1))) := by
  have hfalse : b = 0x74 → ¬Unpacker.AtWord (0x66 :: ascii "alse") (b :: payload.drop (ptr + 1)) :=
    fun hb hw ↦ absurd (hb.symm.trans (atWord_cons.mp hw).1) (by decide)
  have hnull : b = 0x74 ∨ b = 0x66 →
      ¬Unpacker.AtWord (0x6e :: ascii "ull") (b :: payload.drop (ptr + 1)) := by
    intro hb hw
    have hn := (atWord_cons.mp hw).1
    rcases hb with hb | hb <;> exact absurd (hb.symm.trans hn) (by decide)
  refine .ite (fun _ ↦ .pure h rfl) fun _ ↦ .ite (fun _ ↦ .pure h rfl) fun _ ↦
    .ite (fun _ ↦ .pure h rfl) fun _ ↦ .ite (fun _ ↦ .pure h rfl) fun _ ↦
    .ite (fun _ ↦ .pure h rfl) fun _ ↦ .ite (fun _ ↦ .pure h rfl) fun _ ↦ ?_
  refine .word h hptr (fun hb ↦ ?_) fun _ ↦ .word h hptr (fun hb ↦ ?_) fun _ ↦
    .word h hptr (fun _ ↦ rfl) fun _ ↦ .pure h rfl
  · exact (if_neg (hfalse hb)).trans (if_neg (hnull (.inl hb)))
  · exact if_neg (hnull (.inr hb))

/-- The type is found without a move. -/
theorem peekType_spec (h : Within payload c) (hfuel : payload.length + 2 ≤ fuel) :
    Terminates (peekType fuel) c fun type c' ↦
      Looks payload c c' ∧ type = c.abs.peekType := by
  refine (dataPointer_spec c).bind fun ptr c' hptr ↦ ?_
  obtain ⟨rfl, rfl⟩ := hptr
  rw [map_eq_pure_bind]
  -- until a type is seen, the search from the pointer on is the whole search
  refine Terminates.bind (Terminates.doWhile
    (J := fun p c₁ ↦ Looks payload c' c₁ ∧ p.2 = none ∧
      Unpacker.findType (payload.drop p.1) = Unpacker.findType (payload.drop c'.position))
    (Q := fun p c₁ ↦ Looks payload c' c₁ ∧
      p.2 = Unpacker.findType (payload.drop c'.position))
    (m := fun p _ ↦ payload.length + 1 - p.1) (fun p c₁ hJ ↦ ?_) ⟨.refl h, rfl, rfl⟩ (by omega))
    fun p c₁ h₁ ↦ .pure ⟨h₁.1, ?_⟩
  · obtain ⟨hlooks, hnone, hfind⟩ := hJ
    refine (safePeek_spec hlooks.1 p.1).bind fun b c₂ h₂ ↦ ?_
    obtain ⟨rfl, h₂⟩ := h₂
    rcases Nat.lt_or_ge p.1 payload.length with hlt | hge
    · rw [if_pos hlt]
      refine (typeAt_tells h₂.1 hlt).bind fun r c₃ h₃ ↦ ?_
      have hlooks₃ := (hlooks.trans h₂).trans h₃.1
      have hdrop : payload.drop p.1 = payload.getD p.1 0 :: payload.drop (p.1 + 1) := by
        rw [← h.1, drop_position (h.1 ▸ hlt)]
      rw [← hfind, hdrop, h₃.2]
      cases r with
      | some type => exact .pure ⟨hlooks₃, rfl⟩
      | none =>
        refine (safePeekIncrement_spec h₃.1.1 p.1).bind fun next c₄ h₄ ↦ ?_
        obtain ⟨rfl, rfl⟩ := h₄
        rw [if_pos hlt.le]
        refine .pure ⟨⟨hlooks₃, rfl, rfl⟩, ?_⟩
        show payload.length + 1 - (p.1 + 1) < payload.length + 1 - p.1
        omega
    · rw [if_neg (Nat.not_lt.mpr hge)]
      refine .pure ⟨hlooks.trans h₂, ?_⟩
      show none = _
      rw [← hfind, List.drop_eq_nil_of_le hge]
      rfl
  · rw [h₁.2]
    rcases Nat.lt_or_ge payload.length c'.position with hgt | hle
    · rw [abs_beyond h hgt, List.drop_eq_nil_of_le hgt.le]
      rfl
    · rw [abs_of_moved h rfl hle]
      rfl

theorem simulates_peekType (hfuel : payload.length + 2 ≤ fuel) :
    Simulates (Within payload) abs (peekType fuel) fun u ↦ (u.peekType, u) :=
  fun _ h ↦ (peekType_spec h hfuel).imp fun _ _ h' ↦ ⟨h'.1.1, by rw [h'.2, h'.1.abs_eq h]⟩

theorem peek_spec (h : Within payload c) (hfuel : payload.length + 2 ≤ fuel) :
    Terminates (peek fuel) c fun type c' ↦
      Looks payload c c' ∧ type = c.abs.peekType.getD .null := by
  rw [peek, map_eq_pure_bind]
  refine (peekType_spec h hfuel).bind fun type c' h' ↦ .pure ⟨h'.1, ?_⟩
  rw [h'.2]

theorem simulates_peek (hfuel : payload.length + 2 ≤ fuel) :
    Simulates (Within payload) abs (peek fuel) Unpacker.peek :=
  (simulates_peekType hfuel).map _

theorem simulates_unpackDefaultBool (hfuel : payload.length + 2 ≤ fuel) :
    Simulates (Within payload) abs (unpackDefaultBool fuel) Unpacker.unpackDefaultBool :=
  (simulates_peek hfuel).bind fun _ ↦ .ite (.pure _) ((simulates_unpackBool hfuel).map _)

end Cursor

end Json
