import PicoRadio.Json.Pointers
import PicoRadio.NetworkTables.TextDispatch

/-!
# The message loop and the pointer

The text case of `_handleFrame` once more, over the pointer of the unpacker (`Json.Cursor`) and with
loops that take fuel. The loop over the messages contains those over their parameters, options and
topics, and each of these contains the searches of the unpacker; all of them share the fuel.

For every payload, fuel for two turns more than there are bytes is enough for each of the loops
(`textLoop_bounded`). The messages are those of `textMessages`, and whatever is read or made a view
of lies in the payload.

The handlers read parameters in server mode only. One that cannot take the mutex returns, and then
no more is read than here.

## Nested loops

The fuel is not divided among the loops. Each loop gets all of it, since what bounds a loop is the
pointer and not the work of the others: a turn of an outer loop moves the pointer at least once
(`Along Beyond`), and a turn of an inner one as well. So the same bound, two turns more than there
are bytes, holds at every depth, and the lemmas are stated for a fuel that is large enough rather
than for an exact number.
-/

open Json Json.Cursor

namespace NetworkTables

namespace TextPointers

variable {α : Type}

/-! ### Loops -/

/-- `while (peek_type(&type) != OutOfRange && type != stop) body`. -/
def whileNot (fuel : ℕ) (stop : DataType) (body : α → Scan α) (a : α) : Scan α :=
  whileFuel ((·.any (· ≠ stop)) <$> peekType fuel) body fuel a

/-- The branches over the keys. -/
def readIf (read : Option (α → Scan α)) (a : α) : Scan α :=
  match read with
  | some read => read a
  | none => pure a

/-- `for (int i = 0; i < n; i++)`, with a key and what the handler does for it. -/
def readParams (fuel : ℕ) (param : Str → Option (α → Scan α)) : ℕ → α → Scan α
  | 0, a => pure a
  | n + 1, a => do
    let key ← unpackKey fuel
    let a ← readIf (param key) a
    readParams fuel param n a

/-- An option or a property: its key, the types it takes, and how it is read. -/
structure Branch (α : Type) where
  name : Str
  accepts : DataType → Bool
  read : α → Scan α

/-- `if (mkey == name && accepts(peek_type())) read; else …`. -/
def readBranches (fuel : ℕ) (mkey : Str) : List (Branch α) → α → Scan α
  | [], a => pure a
  | branch :: branches, a => do
    let here ← if mkey = branch.name then branch.accepts <$> peek fuel else pure false
    if here then branch.read a else readBranches fuel mkey branches a

/-- An object of options or properties. -/
def readEntries (fuel : ℕ) (branches : List (Branch α)) (a : α) : Scan α := do
  unpackObject fuel
  let a ← whileNot fuel .objectEnd (fun a ↦ do
    let mkey ← unpackKey fuel
    readBranches fuel mkey branches a) a
  unpackObjectEnd fuel
  return a

/-! ### The parameters of each method -/

/-- The loop over the strings of an array. -/
def readTopics (fuel : ℕ) (topics : List Str) : Scan (List Str) := do
  unpackArray fuel
  let topics ← whileNot fuel .arrayEnd (fun topics ↦ (topics ++ [·]) <$> unpackString fuel) topics
  unpackArrayEnd fuel
  return topics

/-- The tests of the members of `options`, in the order of the source. -/
def optionBranches (fuel : ℕ) (init : Locals) : List (Branch SubscriptionOptions) :=
  [⟨ascii "periodic", (· = .int), fun options ↦
      (fun periodic ↦ { options with periodic }) <$> unpackInt fuel init.i⟩,
    ⟨ascii "all", DataType.isBool, fun options ↦
      (fun all ↦ { options with all }) <$> unpackBool fuel⟩,
    ⟨ascii "topicsonly", DataType.isBool, fun options ↦
      (fun topicsonly ↦ { options with topicsonly }) <$> unpackBool fuel⟩,
    ⟨ascii "prefix", DataType.isBool, fun options ↦
      (fun prefixMatch ↦ { options with prefixMatch }) <$> unpackBool fuel⟩]

/-- The tests of the parameters of a subscription. -/
def subscribeParam (fuel : ℕ) (init : Locals) (key : Str) :
    Option (SubscribeLocals → Scan SubscribeLocals) :=
  if key = ascii "topics" then
    some fun l ↦ (fun topics ↦ { l with topics }) <$> readTopics fuel l.topics
  else if key = ascii "subuid" then
    some fun l ↦ (fun subuid ↦ { l with subuid }) <$> unpackInt fuel init.i
  else if key = ascii "options" then
    some fun l ↦
      (fun options ↦ { l with options }) <$> readEntries fuel (optionBranches fuel init) l.options
  else none

/-- The tests of the members of `properties`. -/
def propertyBranches (fuel : ℕ) : List (Branch TopicProperties) :=
  [⟨ascii "persistent", DataType.isBool, fun properties ↦
      (fun persistent ↦ { properties with persistent }) <$> unpackBool fuel⟩,
    ⟨ascii "retained", DataType.isBool, fun properties ↦
      (fun retained ↦ { properties with retained }) <$> unpackBool fuel⟩,
    ⟨ascii "cached", DataType.isBool, fun properties ↦
      (fun cached ↦ { properties with cached }) <$> unpackBool fuel⟩]

/-- The tests of the parameters of a publication. -/
def publishParam (fuel : ℕ) (init : Locals) (key : Str) :
    Option (PublishLocals → Scan PublishLocals) :=
  if key = ascii "name" then
    some fun l ↦ (fun topic ↦ { l with topic }) <$> unpackString fuel
  else if key = ascii "pubuid" then
    some fun l ↦ (fun pubuid ↦ { l with pubuid }) <$> unpackInt fuel init.i
  else if key = ascii "type" then
    some fun l ↦ (fun type ↦ { l with type := parseDataType type }) <$> unpackString fuel
  else if key = ascii "properties" then
    some fun l ↦ (fun properties ↦ { l with properties }) <$>
      readEntries fuel (propertyBranches fuel) l.properties
  else none

/-- The tests of the members of `update`. -/
def updateBranches (fuel : ℕ) : List (Branch SetPropertiesLocals) :=
  [⟨ascii "persistent", DataType.isBoolOrNull, fun l ↦
      (fun persistent ↦ { l with persistent }) <$> unpackDefaultBool fuel⟩,
    ⟨ascii "retained", DataType.isBoolOrNull, fun l ↦
      (fun retained ↦ { l with retained }) <$> unpackDefaultBool fuel⟩,
    ⟨ascii "cached", DataType.isBoolOrNull, fun l ↦
      (fun cached ↦ { l with cached }) <$> unpackDefaultBool fuel⟩]

/-- The tests of the parameters of a message that sets properties. -/
def setPropertiesParam (fuel : ℕ) (key : Str) :
    Option (SetPropertiesLocals → Scan SetPropertiesLocals) :=
  if key = ascii "name" then
    some fun l ↦ (fun topic ↦ { l with topic }) <$> unpackString fuel
  else if key = ascii "update" then some (readEntries fuel (updateBranches fuel))
  else none

/-- The one parameter of a message that ends something. -/
def uidParam (fuel : ℕ) (init : Locals) (name : Str) (key : Str) :
    Option (Int32 → Scan Int32) :=
  if key = name then some fun _ ↦ unpackInt fuel init.i else none

/-- The `switch` over the methods. -/
def readMessage (fuel : ℕ) (serverMode : Bool) (init : Locals) (method : MessageMethod) :
    Scan ClientMessage :=
  if !serverMode then pure .unknown
  else
    match method with
    | .subscribe => do
      let l ← readParams fuel (subscribeParam fuel init) 3 { subuid := init.subuid }
      return .subscribe l.topics l.subuid l.options
    | .publish => do
      let l ← readParams fuel (publishParam fuel init) 4
        { pubuid := init.pubuid, type := init.type }
      return .publish l.topic l.pubuid l.type l.properties
    | .unSubscribe =>
      .unsubscribe <$> readParams fuel (uidParam fuel init (ascii "subuid")) 1 init.subuid
    | .unPublish =>
      .unpublish <$> readParams fuel (uidParam fuel init (ascii "pubuid")) 1 init.pubuid
    | .setProperties => do
      let l ← readParams fuel (setPropertiesParam fuel) 2 {}
      return .setproperties l.topic l.persistent l.retained l.cached
    | .unknown | .announce | .unAnnounce | .properties => pure .unknown

/-! ### The message loop -/

/-- The body of the loop. -/
def readObject (fuel : ℕ) (serverMode : Bool) (init : Locals) : Scan ClientMessage := do
  unpackObject fuel
  let _ ← unpackKey fuel
  let method ← unpackString fuel
  let _ ← unpackKey fuel
  unpackObject fuel
  let message ← readMessage fuel serverMode init (parseMessageMethod method)
  unpackObjectEnd fuel
  unpackObjectEnd fuel
  return message

/-- The condition of the loop. -/
def moreMessages (fuel : ℕ) : Scan Bool := do
  if ← failed then return false
  (·.any (· ≠ .arrayEnd)) <$> peekType fuel

/-- The text case of `_handleFrame`, up to the end of the array. -/
def textLoop (fuel : ℕ) (serverMode : Bool) (init : Locals) : Scan (List ClientMessage) := do
  unpackArray fuel
  let message ← readObject fuel serverMode init
  let messages ← whileFuel (moreMessages fuel)
    (fun messages ↦ (messages ++ [·]) <$> readObject fuel serverMode init) fuel [message]
  unpackArrayEnd fuel
  return messages

/-! ### The loop over the rest of the data -/

variable {payload : Bytes} {fuel : ℕ}

/-- The program does with the pointer what the other one does with the rest of the data. -/
abbrev Scans (payload : Bytes) (x : Scan α) (y : StateM Unpacker α) : Prop :=
  Simulates (Within payload) abs x y

/-- Both read nothing, or do the same. -/
abbrev ScansIf (payload : Bytes) (read : Option (α → Scan α))
    (read' : Option (α → StateM Unpacker α)) : Prop :=
  Option.Rel (fun r r' ↦ ∀ a, Scans payload (r a) (r' a)) read read'

/-- A test that does not fire reads nothing. -/
theorem scans_readIf {read : Option (α → Scan α)} {read' : Option (α → StateM Unpacker α)}
    (h : ScansIf payload read read') (a : α) :
    Scans payload (readIf read a) (NetworkTables.readIf read' a) := by
  cases h with
  | some h => exact h a
  | none => exact .pure a

/-- The first branch of those for this key and this type. -/
def select (mkey : Str) (type : DataType) : List (Branch α) → Option (α → Scan α)
  | [] => none
  | branch :: branches =>
    if mkey = branch.name ∧ branch.accepts type then some branch.read
    else select mkey type branches

section Fuel

variable (hfuel : payload.length + 2 ≤ fuel)

include hfuel

theorem scans_whileNot {stop : DataType} {body : α → Scan α} {body' : α → StateM Unpacker α}
    (hshrinks : Shrinks Unpacker.remaining (fun u ↦ u.peekType.any (· ≠ stop)) body')
    (hbody : ∀ a, Scans payload (body a) (body' a)) (a : α) :
    Scans payload (whileNot fuel stop body a) (NetworkTables.whileNot stop body' a) :=
  .whileLoop hshrinks ((simulates_peekType hfuel).map _) hbody
    (fun _ h ↦ (remaining_lt h).trans_le hfuel) a

theorem scans_readParams {param : Str → Option (α → Scan α)}
    {param' : Str → Option (α → StateM Unpacker α)}
    (h : ∀ key, ScansIf payload (param key) (param' key)) (n : ℕ) (a : α) :
    Scans payload (readParams fuel param n a) (NetworkTables.readParams param' n a) := by
  induction n generalizing a with
  | zero => exact .pure a
  | succ n ih =>
    exact (simulates_unpackKey hfuel).bind fun key ↦ (scans_readIf (h key) a).bind ih

/-- Looking at the type again and again has no effect. -/
theorem readBranches_spec {mkey : Str} {type : DataType} {branches : List (Branch α)} {a : α}
    {c : Cursor} {Q : α → Cursor → Prop} (hc : Within payload c)
    (htype : c.abs.peekType.getD .null = type)
    (h : ∀ c', Looks payload c c' → Terminates (readIf (select mkey type branches) a) c' Q) :
    Terminates (readBranches fuel mkey branches a) c Q := by
  induction branches generalizing c with
  | nil => exact h c (.refl hc)
  | cons branch branches ih =>
    rw [readBranches]
    by_cases hname : mkey = branch.name
    · rw [if_pos hname, map_eq_pure_bind, bind_assoc]
      refine (peek_spec hc hfuel).bind fun type' c₁ h₁ ↦ ?_
      obtain ⟨hlooks, rfl⟩ := h₁
      rw [htype]
      have hsel : select mkey type (branch :: branches) =
          if branch.accepts type then some branch.read else select mkey type branches := by
        rw [select]
        simp only [hname, true_and]
      rw [hsel] at h
      show Terminates (if branch.accepts type then branch.read a else _) c₁ Q
      cases haccepts : branch.accepts type with
      | true =>
        rw [haccepts, if_pos rfl] at h
        exact h c₁ hlooks
      | false =>
        rw [haccepts, if_neg Bool.false_ne_true] at h
        refine ih hlooks.1 (by rw [hlooks.abs_eq hc, htype]) fun c' h' ↦ h c' (hlooks.trans h')
    · rw [if_neg hname]
      have hsel : select mkey type (branch :: branches) = select mkey type branches :=
        if_neg fun hand ↦ hname hand.1
      rw [hsel] at h
      exact ih hc htype h

/-- The branches over the options or properties, against a function of the key and the type. -/
theorem scans_readEntries {branches : List (Branch α)}
    {field : Str → DataType → Option (α → StateM Unpacker α)} (hfield : FieldsRegular field)
    (h : ∀ mkey type, ScansIf payload (select mkey type branches) (field mkey type)) (a : α) :
    Scans payload (readEntries fuel branches a) (NetworkTables.readEntries field a) := by
  refine (simulates_unpackObject hfuel).bind fun _ ↦
    (scans_whileNot hfuel (hfield.shrinks _) (fun a ↦ ?_) a).bind fun a ↦
    (simulates_unpackObjectEnd hfuel).bind fun _ ↦ .pure a
  refine (simulates_unpackKey hfuel).bind fun mkey c hc ↦
    readBranches_spec hfuel hc rfl fun c' hlooks ↦ ?_
  refine (scans_readIf (h mkey _) a c' hlooks.1).imp fun b c'' h' ↦ ⟨h'.1, ?_⟩
  rw [← h'.2, hlooks.abs_eq hc]
  rfl

/-! ### The parameters of each method -/

theorem scans_readTopics (topics : List Str) :
    Scans payload (readTopics fuel topics) (NetworkTables.readTopics topics) :=
  (simulates_unpackArray hfuel).bind fun _ ↦
    (scans_whileNot hfuel shrinks_topics (fun _ ↦ (simulates_unpackString hfuel).map _) topics).bind
      fun topics ↦ (simulates_unpackArrayEnd hfuel).bind fun _ ↦ .pure topics

theorem scansIf_option (init : Locals) (mkey : Str) (type : DataType) :
    ScansIf payload (select mkey type (optionBranches fuel init)) (optionField init mkey type) := by
  simp only [optionBranches, select, decide_eq_true_eq]
  unfold optionField
  split_ifs
  · exact .some fun _ ↦ (simulates_unpackInt _ hfuel).map _
  · exact .some fun _ ↦ (simulates_unpackBool hfuel).map _
  · exact .some fun _ ↦ (simulates_unpackBool hfuel).map _
  · exact .some fun _ ↦ (simulates_unpackBool hfuel).map _
  · exact .none

theorem scansIf_property (mkey : Str) (type : DataType) :
    ScansIf payload (select mkey type (propertyBranches fuel)) (propertyField mkey type) := by
  simp only [propertyBranches, select]
  unfold propertyField
  split_ifs
  · exact .some fun _ ↦ (simulates_unpackBool hfuel).map _
  · exact .some fun _ ↦ (simulates_unpackBool hfuel).map _
  · exact .some fun _ ↦ (simulates_unpackBool hfuel).map _
  · exact .none

theorem scansIf_update (mkey : Str) (type : DataType) :
    ScansIf payload (select mkey type (updateBranches fuel)) (updateField mkey type) := by
  simp only [updateBranches, select]
  unfold updateField
  split_ifs
  · exact .some fun _ ↦ (simulates_unpackDefaultBool hfuel).map _
  · exact .some fun _ ↦ (simulates_unpackDefaultBool hfuel).map _
  · exact .some fun _ ↦ (simulates_unpackDefaultBool hfuel).map _
  · exact .none

theorem scansIf_subscribeParam (init : Locals) (key : Str) :
    ScansIf payload (subscribeParam fuel init key) (NetworkTables.subscribeParam init key) := by
  unfold subscribeParam NetworkTables.subscribeParam
  split_ifs
  · exact .some fun _ ↦ (scans_readTopics hfuel _).map _
  · exact .some fun _ ↦ (simulates_unpackInt _ hfuel).map _
  · exact .some fun _ ↦
      (scans_readEntries hfuel (fieldsRegular_option init) (scansIf_option hfuel init) _).map _
  · exact .none

theorem scansIf_publishParam (init : Locals) (key : Str) :
    ScansIf payload (publishParam fuel init key) (NetworkTables.publishParam init key) := by
  unfold publishParam NetworkTables.publishParam
  split_ifs
  · exact .some fun _ ↦ (simulates_unpackString hfuel).map _
  · exact .some fun _ ↦ (simulates_unpackInt _ hfuel).map _
  · exact .some fun _ ↦ (simulates_unpackString hfuel).map _
  · exact .some fun _ ↦
      (scans_readEntries hfuel fieldsRegular_property (scansIf_property hfuel) _).map _
  · exact .none

theorem scansIf_setPropertiesParam (key : Str) :
    ScansIf payload (setPropertiesParam fuel key) (NetworkTables.setPropertiesParam key) := by
  unfold setPropertiesParam NetworkTables.setPropertiesParam
  split_ifs
  · exact .some fun _ ↦ (simulates_unpackString hfuel).map _
  · exact .some fun _ ↦
      scans_readEntries hfuel fieldsRegular_update (scansIf_update hfuel) _
  · exact .none

theorem scansIf_uidParam (init : Locals) (name key : Str) :
    ScansIf payload (uidParam fuel init name key) (NetworkTables.uidParam init name key) := by
  unfold uidParam NetworkTables.uidParam
  split_ifs
  · exact .some fun _ ↦ simulates_unpackInt _ hfuel
  · exact .none

theorem scans_readMessage (init : Locals) (method : MessageMethod) :
    Scans payload (readMessage fuel true init method) (NetworkTables.readMessage init method) := by
  cases method with
  | subscribe =>
    exact (scans_readParams hfuel (scansIf_subscribeParam hfuel init) _ _).bind fun _ ↦ .pure _
  | publish =>
    exact (scans_readParams hfuel (scansIf_publishParam hfuel init) _ _).bind fun _ ↦ .pure _
  | unSubscribe => exact (scans_readParams hfuel (scansIf_uidParam hfuel init _) _ _).map _
  | unPublish => exact (scans_readParams hfuel (scansIf_uidParam hfuel init _) _ _).map _
  | setProperties =>
    exact (scans_readParams hfuel (scansIf_setPropertiesParam hfuel) _ _).bind fun _ ↦ .pure _
  | unknown => exact .pure _
  | announce => exact .pure _
  | unAnnounce => exact .pure _
  | properties => exact .pure _

end Fuel

/-! ### The messages of a text -/

/-- The text case with what it reads of the parameters. -/
def textLoopWith (read : MessageMethod → StateM Unpacker ClientMessage) :
    StateM Unpacker (List ClientMessage) := do
  Unpacker.unpackArray
  let message ← readObjectWith read
  let messages ← whileDo Unpacker.remaining NetworkTables.moreMessages
    (fun messages ↦ (messages ++ [·]) <$> readObjectWith read) [message]
  Unpacker.unpackArrayEnd
  return messages

theorem textLoop_eq_with (init : Locals) :
    NetworkTables.textLoop init = textLoopWith (NetworkTables.readMessage init) :=
  rfl

section Fuel

variable (hfuel : payload.length + 2 ≤ fuel)

include hfuel

theorem scans_readObject {serverMode : Bool} {init : Locals}
    {read : MessageMethod → StateM Unpacker ClientMessage}
    (hread : ∀ method, Scans payload (readMessage fuel serverMode init method) (read method)) :
    Scans payload (readObject fuel serverMode init) (readObjectWith read) :=
  (simulates_unpackObject hfuel).bind fun _ ↦ (simulates_unpackKey hfuel).bind fun _ ↦
    (simulates_unpackString hfuel).bind fun _ ↦ (simulates_unpackKey hfuel).bind fun _ ↦
    (simulates_unpackObject hfuel).bind fun _ ↦ (hread _).bind fun message ↦
    (simulates_unpackObjectEnd hfuel).bind fun _ ↦
    (simulates_unpackObjectEnd hfuel).bind fun _ ↦ .pure message

theorem scans_moreMessages :
    Scans payload (moreMessages fuel) fun u ↦ (NetworkTables.moreMessages u, u) := by
  intro c hc
  refine ((simulates_failed.bind fun _ ↦ .ite (.pure false) ((simulates_peekType hfuel).map _)) c
    hc).imp fun go c' h' ↦ ⟨h'.1, ?_⟩
  rw [← h'.2]
  obtain ⟨rest, _ | _⟩ := c.abs <;> simp [NetworkTables.moreMessages] <;> rfl

theorem scans_textLoop {serverMode : Bool} {init : Locals}
    {read : MessageMethod → StateM Unpacker ClientMessage}
    (halong : ∀ method, Along Unpacker.Beyond (read method))
    (hread : ∀ method, Scans payload (readMessage fuel serverMode init method) (read method)) :
    Scans payload (textLoop fuel serverMode init) (textLoopWith read) :=
  (simulates_unpackArray hfuel).bind fun _ ↦ (scans_readObject hfuel hread).bind fun message ↦
    (Simulates.whileLoop (shrinks_readObjectWith halong) (scans_moreMessages hfuel)
      (fun _ ↦ (scans_readObject hfuel hread).map _)
      (fun _ h ↦ (remaining_lt h).trans_le hfuel) [message]).bind fun messages ↦
    (simulates_unpackArrayEnd hfuel).bind fun _ ↦ .pure messages

end Fuel

/-- For every payload the message loop ends, with no more than two turns over the number of bytes
in any of its loops. The pointer never moves back and never further than one beyond the end, and
everything that is read or viewed lies in the payload. -/
theorem textLoop_bounded (payload : Bytes) (serverMode : Bool) (init : Locals) (k : ℕ) :
    ∃ messages c,
      textLoop (payload.length + 2 + k) serverMode init { data := payload } =
        some (messages, c) ∧
      (serverMode = true → messages = textMessages init payload) ∧
      c.data = payload ∧ c.Bounded := by
  have hfuel : payload.length + 2 ≤ payload.length + 2 + k := Nat.le_add_right _ _
  cases serverMode with
  | true =>
    have hscan : Scans payload (textLoop (payload.length + 2 + k) true init)
        (textLoopWith (NetworkTables.readMessage init)) :=
      scans_textLoop hfuel (along_readMessage init) (scans_readMessage hfuel init)
    obtain ⟨messages, c, hrun, hc, heq⟩ := hscan _ within_start
    refine ⟨messages, c, hrun, fun _ ↦ ?_, hc.1, hc.2⟩
    rw [textMessages, textLoop_eq_with, ← abs_start, heq]
  | false =>
    have hscan : Scans payload (textLoop (payload.length + 2 + k) false init)
        (textLoopWith fun _ ↦ pure .unknown) :=
      scans_textLoop hfuel (fun _ ↦ .pure _) fun _ ↦ .pure _
    obtain ⟨messages, c, hrun, hc, -⟩ := hscan _ within_start
    exact ⟨messages, c, hrun, fun h ↦ absurd h Bool.false_ne_true, hc.1, hc.2⟩

end TextPointers

end NetworkTables
