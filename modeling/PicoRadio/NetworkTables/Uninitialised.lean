import PicoRadio.NetworkTables.TextFrames

/-!
# What a text frame leaves open

The handlers of a text frame read the parameters of their message into local variables, some of
which have no initial value. Reading can be done without these: a parameter that the payload states
has a value, and one that it leaves out, or whose number does not fit, has none (`StatedMessage`).
The messages of the text loop are those with the contents of the variables filled in
(`textMessages_eq`), so the places that are left open are all they depend on.

A frame whose handlers only use what is stated does the same for any two contents of the variables.

## Two readings

`statedLoop` is the text loop once more, with an absent value where the other one would read an
uninitialised variable. It moves the pointer in the same way, because where the reading goes on does
not depend on what was read. So both loops see the same messages, and they differ in the contents of
the holes alone.

Whether a hole matters depends on the state in which the message is handled: the type of a
publication is not used if the topic is there already (`Settled`).
-/

open Json Json.Unpacker

namespace NetworkTables

/-! ### What is stated -/

/-- A number of a message. -/
inductive StatedInt
  | given (i : Int32)
  /-- The key has not been read. -/
  | unset
  /-- The number does not fit. -/
  | outOfRange
  deriving DecidableEq

/-- The number with the contents of the variables. -/
def StatedInt.fill (uid i : Int32) : StatedInt → Int32
  | given n => n
  | unset => uid
  | outOfRange => i

/-- The options of a subscription; `periodic` is absent if its number does not fit. -/
structure StatedOptions where
  periodic : Option Int32 := some SubscriptionOptions.DEFAULT.periodic
  all : Bool := SubscriptionOptions.DEFAULT.all
  topicsonly : Bool := SubscriptionOptions.DEFAULT.topicsonly
  prefixMatch : Bool := SubscriptionOptions.DEFAULT.prefixMatch
  deriving DecidableEq

/-- The options with the contents of the variable `i`. -/
def StatedOptions.fill (i : Int32) (options : StatedOptions) : SubscriptionOptions where
  periodic := options.periodic.getD i
  all := options.all
  topicsonly := options.topicsonly
  prefixMatch := options.prefixMatch

/-- The variables of the case `Subscribe`. -/
structure StatedSubscribe where
  topics : List Str := []
  subuid : StatedInt := .unset
  options : StatedOptions := {}
  deriving DecidableEq

/-- The variables of `Subscribe` with their contents. -/
def StatedSubscribe.fill (init : Locals) (l : StatedSubscribe) : SubscribeLocals where
  topics := l.topics
  subuid := l.subuid.fill init.subuid init.i
  options := l.options.fill init.i

/-- The variables of the case `Publish`. -/
structure StatedPublish where
  topic : Str := []
  pubuid : StatedInt := .unset
  type : Option NTDataType := none
  properties : TopicProperties := .DEFAULT
  deriving DecidableEq

/-- The variables of `Publish` with their contents. -/
def StatedPublish.fill (init : Locals) (l : StatedPublish) : PublishLocals where
  topic := l.topic
  pubuid := l.pubuid.fill init.pubuid init.i
  type := l.type.getD init.type
  properties := l.properties

/-- A message as far as the payload states it. -/
inductive StatedMessage
  | subscribe (l : StatedSubscribe)
  | publish (l : StatedPublish)
  | unsubscribe (subuid : StatedInt)
  | unpublish (pubuid : StatedInt)
  /-- A message that leaves nothing open. -/
  | closed (message : ClientMessage)
  deriving DecidableEq

/-- The message with the contents of the variables. -/
def StatedMessage.fill (init : Locals) : StatedMessage → ClientMessage
  | subscribe l => .subscribe l.topics (l.subuid.fill init.subuid init.i) (l.options.fill init.i)
  | publish l =>
    .publish l.topic (l.pubuid.fill init.pubuid init.i) (l.type.getD init.type) l.properties
  | unsubscribe subuid => .unsubscribe (subuid.fill init.subuid init.i)
  | unpublish pubuid => .unpublish (pubuid.fill init.pubuid init.i)
  | closed message => message

/-! ### Reading without the variables -/

/-- `unpack_int`, with no result if the number does not fit. -/
def statedInt : StateM Unpacker (Option Int32) := do
  safeFindAny numberStart
  if ← failed then return some 0
  let start ← (·.rest) <$> get
  safeFindAny [0x2c, 0x7d]
  if ← failed then return some 0
  let asStr ← viewFrom start
  match Unpacker.fromChars asStr with
  | .value i => return some i
  | .resultOutOfRange => return none
  | .invalidArgument =>
    modify fun u ↦ { u with outOfRange := true }
    return some 0

/-- A uid is read. -/
def statedUid : StateM Unpacker StatedInt :=
  (·.elim .outOfRange .given) <$> statedInt

/-- An entry of the options. -/
def statedOptionField (mkey : Str) (type : DataType) :
    Option (StatedOptions → StateM Unpacker StatedOptions) :=
  if mkey = ascii "periodic" ∧ type = .int then
    some fun options ↦ (fun periodic ↦ { options with periodic }) <$> statedInt
  else if mkey = ascii "all" ∧ type.isBool then
    some fun options ↦ (fun all ↦ { options with all }) <$> unpackBool
  else if mkey = ascii "topicsonly" ∧ type.isBool then
    some fun options ↦ (fun topicsonly ↦ { options with topicsonly }) <$> unpackBool
  else if mkey = ascii "prefix" ∧ type.isBool then
    some fun options ↦ (fun prefixMatch ↦ { options with prefixMatch }) <$> unpackBool
  else none

/-- A parameter of `Subscribe`. -/
def statedSubscribeParam (key : Str) :
    Option (StatedSubscribe → StateM Unpacker StatedSubscribe) :=
  if key = ascii "topics" then
    some fun l ↦ (fun topics ↦ { l with topics }) <$> readTopics l.topics
  else if key = ascii "subuid" then
    some fun l ↦ (fun subuid ↦ { l with subuid }) <$> statedUid
  else if key = ascii "options" then
    some fun l ↦ (fun options ↦ { l with options }) <$> readEntries statedOptionField l.options
  else none

/-- A parameter of `Publish`. -/
def statedPublishParam (key : Str) : Option (StatedPublish → StateM Unpacker StatedPublish) :=
  if key = ascii "name" then
    some fun l ↦ (fun topic ↦ { l with topic }) <$> unpackString
  else if key = ascii "pubuid" then
    some fun l ↦ (fun pubuid ↦ { l with pubuid }) <$> statedUid
  else if key = ascii "type" then
    some fun l ↦ (fun type ↦ { l with type := some (parseDataType type) }) <$> unpackString
  else if key = ascii "properties" then
    some fun l ↦
      (fun properties ↦ { l with properties }) <$> readEntries propertyField l.properties
  else none

/-- A parameter of a message with a uid alone. -/
def statedUidParam (name : Str) (key : Str) : Option (StatedInt → StateM Unpacker StatedInt) :=
  if key = name then some fun _ ↦ statedUid else none

/-- The `switch` over the methods. -/
def statedMessage (method : MessageMethod) : StateM Unpacker StatedMessage :=
  match method with
  | .subscribe => .subscribe <$> readParams statedSubscribeParam 3 {}
  | .publish => .publish <$> readParams statedPublishParam 4 {}
  | .unSubscribe => .unsubscribe <$> readParams (statedUidParam (ascii "subuid")) 1 .unset
  | .unPublish => .unpublish <$> readParams (statedUidParam (ascii "pubuid")) 1 .unset
  | .setProperties => do
    let l ← readParams setPropertiesParam 2 {}
    return .closed (.setproperties l.topic l.persistent l.retained l.cached)
  | .unknown | .announce | .unAnnounce | .properties => pure (.closed .unknown)

/-- The body of the loop. -/
def statedObject : StateM Unpacker StatedMessage := do
  unpackObject
  let _ ← unpackKey
  let method ← unpackString
  let _ ← unpackKey
  unpackObject
  let message ← statedMessage (parseMessageMethod method)
  unpackObjectEnd
  unpackObjectEnd
  return message

/-- The text loop. -/
def statedLoop : StateM Unpacker (List StatedMessage) := do
  unpackArray
  let message ← statedObject
  let messages ← whileDo remaining moreMessages
    (fun messages ↦ (messages ++ [·]) <$> statedObject) [message]
  unpackArrayEnd
  return messages

/-- What a payload states. -/
def statedMessages (payload : Bytes) : List StatedMessage :=
  (statedLoop (setData payload)).1

/-! ### The variables are filled in -/

/-- A number that does not fit leaves the variable as it was. -/
theorem unpackInt_eq (i : Int32) : unpackInt i = (·.getD i) <$> statedInt := by
  rw [unpackInt, statedInt, map_bind]
  refine bind_congr fun _ ↦ ?_
  rw [map_bind]
  refine bind_congr fun stop ↦ ?_
  split
  · rfl
  · rw [map_bind]
    refine bind_congr fun start ↦ ?_
    rw [map_bind]
    refine bind_congr fun _ ↦ ?_
    rw [map_bind]
    refine bind_congr fun stop ↦ ?_
    split
    · rfl
    · rw [map_bind]
      refine bind_congr fun text ↦ ?_
      cases Unpacker.fromChars text <;> rfl

/-- A uid that is read is the number, or what `i` holds. -/
theorem unpackInt_uid (uid i : Int32) : unpackInt i = (·.fill uid i) <$> statedUid := by
  rw [unpackInt_eq, statedUid, ← comp_map]
  refine congrArg (· <$> statedInt) (funext fun n ↦ ?_)
  cases n <;> rfl

section Fill

variable {α β : Type} {f : α → β}

/-- Filling in commutes with the loop over the parameters if it does so with each of them. -/
theorem readParams_fill {param : Str → Option (α → StateM Unpacker α)}
    {param' : Str → Option (β → StateM Unpacker β)}
    (h : ∀ key a, readIf (param' key) (f a) = f <$> readIf (param key) a) (n : ℕ) (a : α) :
    readParams param' n (f a) = f <$> readParams param n a := by
  induction n generalizing a with
  | zero => rfl
  | succ n ih =>
    rw [readParams, readParams, map_bind]
    refine bind_congr fun key ↦ ?_
    rw [h, map_bind, bind_map_left]
    exact bind_congr fun a ↦ ih a

/-- The same of the loop over the entries of an object. -/
theorem readEntries_fill {field : Str → DataType → Option (α → StateM Unpacker α)}
    {field' : Str → DataType → Option (β → StateM Unpacker β)}
    (h : ∀ key type a, readIf (field' key type) (f a) = f <$> readIf (field key type) a) (a : α) :
    readEntries field' (f a) = f <$> readEntries field a := by
  have hentry (a : α) : readEntry field' (f a) = f <$> readEntry field a := by
    rw [readEntry, readEntry, map_bind]
    refine bind_congr fun key ↦ ?_
    rw [map_bind]
    exact bind_congr fun type ↦ h key type a
  rw [readEntries, readEntries, map_bind]
  refine bind_congr fun _ ↦ ?_
  rw [whileNot, whileNot, whileDo_map hentry, map_bind, bind_map_left]
  refine bind_congr fun a ↦ ?_
  rw [map_bind]
  rfl

end Fill

/-- An entry of the options. -/
theorem optionField_fill (init : Locals) (mkey : Str) (type : DataType) (options : StatedOptions) :
    readIf (optionField init mkey type) (options.fill init.i) =
      (StatedOptions.fill init.i) <$> readIf (statedOptionField mkey type) options := by
  rw [optionField, statedOptionField]
  repeat' split
  · simp only [readIf, unpackInt_eq, ← comp_map]
    rfl
  · simp only [readIf, ← comp_map]
    rfl
  · simp only [readIf, ← comp_map]
    rfl
  · simp only [readIf, ← comp_map]
    rfl
  · rfl

/-- A parameter of `Subscribe`. -/
theorem subscribeParam_fill (init : Locals) (key : Str) (l : StatedSubscribe) :
    readIf (subscribeParam init key) (l.fill init) =
      (StatedSubscribe.fill init) <$> readIf (statedSubscribeParam key) l := by
  rw [subscribeParam, statedSubscribeParam]
  repeat' split
  · simp only [readIf, ← comp_map]
    rfl
  · simp only [readIf, unpackInt_uid init.subuid, ← comp_map]
    rfl
  · have hoptions := readEntries_fill (optionField_fill init) l.options
    simp only [readIf, StatedSubscribe.fill, hoptions, ← comp_map]
    rfl
  · rfl

/-- A parameter of `Publish`. -/
theorem publishParam_fill (init : Locals) (key : Str) (l : StatedPublish) :
    readIf (publishParam init key) (l.fill init) =
      (StatedPublish.fill init) <$> readIf (statedPublishParam key) l := by
  rw [publishParam, statedPublishParam]
  repeat' split
  · simp only [readIf, ← comp_map]
    rfl
  · simp only [readIf, unpackInt_uid init.pubuid, ← comp_map]
    rfl
  · simp only [readIf, ← comp_map]
    rfl
  · simp only [readIf, ← comp_map]
    rfl
  · rfl

/-- The uid. -/
theorem uidParam_fill (init : Locals) (uid : Int32) (name key : Str) (n : StatedInt) :
    readIf (uidParam init name key) (n.fill uid init.i) =
      (StatedInt.fill uid init.i) <$> readIf (statedUidParam name key) n := by
  rw [uidParam, statedUidParam]
  split
  · exact unpackInt_uid uid init.i
  · rfl

/-- A message is what the payload states, with the contents of the variables. -/
theorem readMessage_eq (init : Locals) (method : MessageMethod) :
    readMessage init method = StatedMessage.fill init <$> statedMessage method := by
  cases method with
  | subscribe =>
    have hparams := readParams_fill (subscribeParam_fill init) 3 {}
    rw [readMessage, statedMessage, ← comp_map]
    show (readParams (subscribeParam init) 3 (StatedSubscribe.fill init {}) >>= _) = _
    rw [hparams, bind_map_left, map_eq_pure_bind]
    rfl
  | publish =>
    have hparams := readParams_fill (publishParam_fill init) 4 {}
    rw [readMessage, statedMessage, ← comp_map]
    show (readParams (publishParam init) 4 (StatedPublish.fill init {}) >>= _) = _
    rw [hparams, bind_map_left, map_eq_pure_bind]
    rfl
  | unSubscribe =>
    have hparams := readParams_fill (uidParam_fill init init.subuid (ascii "subuid")) 1 .unset
    rw [readMessage, statedMessage, ← comp_map]
    show ClientMessage.unsubscribe <$> readParams (uidParam init (ascii "subuid")) 1
      (StatedInt.fill init.subuid init.i .unset) = _
    rw [hparams, ← comp_map]
    rfl
  | unPublish =>
    have hparams := readParams_fill (uidParam_fill init init.pubuid (ascii "pubuid")) 1 .unset
    rw [readMessage, statedMessage, ← comp_map]
    show ClientMessage.unpublish <$> readParams (uidParam init (ascii "pubuid")) 1
      (StatedInt.fill init.pubuid init.i .unset) = _
    rw [hparams, ← comp_map]
    rfl
  | setProperties | unknown | announce | unAnnounce | properties => rfl

/-- One message. -/
theorem readObject_eq (init : Locals) :
    readObject init = StatedMessage.fill init <$> statedObject := by
  simp only [readObject, statedObject, readMessage_eq, map_bind, bind_map_left, map_pure]

/-- All messages of the frame. -/
theorem textLoop_eq (init : Locals) :
    textLoop init = (List.map (StatedMessage.fill init)) <$> statedLoop := by
  have hturn (messages : List StatedMessage) :
      (fun ms ↦ (ms ++ [·]) <$> StatedMessage.fill init <$> statedObject)
          (messages.map (StatedMessage.fill init)) =
        List.map (StatedMessage.fill init) <$>
          (fun ms ↦ (ms ++ [·]) <$> statedObject) messages := by
    dsimp only
    rw [← comp_map, ← comp_map]
    refine congrArg (· <$> statedObject) (funext fun m ↦ ?_)
    rw [Function.comp_apply, Function.comp_apply, List.map_append]
    rfl
  have hloop (message : StatedMessage) : whileDo remaining moreMessages
      (fun ms ↦ (ms ++ [·]) <$> StatedMessage.fill init <$> statedObject) [message.fill init] =
        List.map (StatedMessage.fill init) <$> whileDo remaining moreMessages
          (fun ms ↦ (ms ++ [·]) <$> statedObject) [message] :=
    @whileDo_map _ _ _ remaining moreMessages _ (List.map (StatedMessage.fill init)) _ hturn
      [message]
  rw [textLoop, statedLoop, map_bind]
  refine bind_congr fun _ ↦ ?_
  rw [readObject_eq, bind_map_left, map_bind]
  refine bind_congr fun message ↦ ?_
  rw [hloop, bind_map_left, map_bind]
  rfl

/-- The messages of the text loop are what the payload states, with the contents of the
variables. -/
theorem textMessages_eq (init : Locals) (payload : Bytes) :
    textMessages init payload = (statedMessages payload).map (StatedMessage.fill init) := by
  rw [textMessages, textLoop_eq]
  rfl

/-! ### Handlers that use what is stated -/

def StatedInt.isGiven : StatedInt → Bool
  | given _ => true
  | unset | outOfRange => false

/-- A number that is given leaves nothing open. -/
theorem StatedInt.fill_eq {n : StatedInt} (h : n.isGiven) (uid i uid' i' : Int32) :
    n.fill uid i = n.fill uid' i' := by
  cases n with
  | given n => rfl
  | unset | outOfRange => cases h

/-- Nor does a value that is there. -/
theorem getD_eq {α : Type} {o : Option α} (h : o.isSome) (a a' : α) : o.getD a = o.getD a' := by
  obtain ⟨b, rfl⟩ := Option.isSome_iff_exists.mp h
  rfl

namespace StatedMessage

/-- The message leaves nothing open. -/
def Complete : StatedMessage → Prop
  | subscribe l => l.subuid.isGiven ∧ l.options.periodic.isSome
  | publish l => l.pubuid.isGiven ∧ l.type.isSome
  | unsubscribe subuid => subuid.isGiven
  | unpublish pubuid => pubuid.isGiven
  | closed _ => True

/-- The handler uses only what the message states. The type of a topic is used where there is no
topic of the name. -/
def Settled (st : Instance) : StatedMessage → Prop
  | publish l => l.pubuid.isGiven ∧ (l.type.isSome ∨ l.topic ∈ st.topics)
  | m => m.Complete

/-- A complete message is the same with any contents. -/
theorem Complete.fill_eq {m : StatedMessage} (h : m.Complete) (init init' : Locals) :
    m.fill init = m.fill init' := by
  cases m with
  | subscribe l =>
    obtain ⟨huid, hperiodic⟩ := h
    rw [fill, fill, StatedOptions.fill, StatedOptions.fill,
      l.subuid.fill_eq huid init.subuid init.i init'.subuid init'.i,
      getD_eq hperiodic init.i init'.i]
  | publish l =>
    obtain ⟨huid, htype⟩ := h
    rw [fill, fill, l.pubuid.fill_eq huid init.pubuid init.i init'.pubuid init'.i,
      getD_eq htype init.type init'.type]
  | unsubscribe subuid =>
    rw [fill, fill, subuid.fill_eq h init.subuid init.i init'.subuid init'.i]
  | unpublish pubuid =>
    rw [fill, fill, pubuid.fill_eq h init.pubuid init.i init'.pubuid init'.i]
  | closed message => rfl

/-- A message whose type may be left open is the exception. -/
theorem Settled.complete_or {st : Instance} {m : StatedMessage} (h : m.Settled st) :
    m.Complete ∨ ∃ l, m = publish l ∧ l.pubuid.isGiven ∧ l.topic ∈ st.topics := by
  cases m with
  | publish l =>
    obtain ⟨huid, htype | htopic⟩ := h
    · exact .inl ⟨huid, htype⟩
    · exact .inr ⟨l, rfl, huid, htopic⟩
  | _ => exact .inl h

/-- What is used of a message depends on the topics alone. -/
theorem Settled.of_topics {st st' : Instance} {m : StatedMessage} (h : m.Settled st)
    (htopics : st'.topics = st.topics) : m.Settled st' := by
  cases m with
  | publish l =>
    rw [Settled, htopics]
    exact h
  | _ => exact h

end StatedMessage

/-- A message that is the same for two contents of the variables that differ everywhere leaves
nothing open. -/
theorem StatedMessage.complete_of_fill_eq {m : StatedMessage}
    (h : m.fill ⟨0, 0, .bool, 0⟩ = m.fill ⟨1, 1, .int, 1⟩) : m.Complete := by
  have hgiven {n : StatedInt} (hn : n.fill 0 0 = n.fill 1 1) : n.isGiven := by
    cases n with
    | given n => rfl
    | unset | outOfRange => cases hn
  have hsome {α : Type} {o : Option α} {a b : α} (hab : a ≠ b) (ho : o.getD a = o.getD b) :
      o.isSome := by
    cases o with
    | none => exact absurd ho hab
    | some a => rfl
  cases m with
  | subscribe l =>
    obtain ⟨-, huid, hoptions⟩ := ClientMessage.subscribe.inj h
    exact ⟨hgiven huid, hsome (by decide) (congrArg SubscriptionOptions.periodic hoptions)⟩
  | publish l =>
    obtain ⟨-, huid, htype, -⟩ := ClientMessage.publish.inj h
    exact ⟨hgiven huid, hsome (by decide) htype⟩
  | unsubscribe subuid => exact hgiven (ClientMessage.unsubscribe.inj h)
  | unpublish pubuid => exact hgiven (ClientMessage.unpublish.inj h)
  | closed message => trivial

/-- The messages of a payload are the same for any two contents of the variables exactly if none of
them leaves anything open. -/
theorem textMessages_same_iff (payload : Bytes) :
    (∀ init init' : Locals, textMessages init payload = textMessages init' payload) ↔
      ∀ m ∈ statedMessages payload, m.Complete := by
  constructor
  · intro h m hm
    have hmap := h ⟨0, 0, .bool, 0⟩ ⟨1, 1, .int, 1⟩
    rw [textMessages_eq, textMessages_eq] at hmap
    exact StatedMessage.complete_of_fill_eq (List.map_inj_left.mp hmap m hm)
  · intro h init init'
    rw [textMessages_eq, textMessages_eq]
    exact List.map_congr_left fun m hm ↦ (h m hm).fill_eq init init'

section Handlers

variable [FloatCodec] {env : Env} {guid : Guid} {st : Instance}

/-- The type of a topic that is there is not used. -/
theorem handlePublish_type {name : Str} (h : name ∈ st.topics) (pubuid : Int32)
    (type type' : NTDataType) (properties : TopicProperties) :
    handlePublish env guid name pubuid type properties st =
      handlePublish env guid name pubuid type' properties st := by
  obtain ⟨topic, htopic⟩ := Option.isSome_iff_exists.mp (AList.lookup_isSome.mpr h)
  have hanswer (st' : Instance) (htopics : st'.topics = st.topics) :
      publishOrAnswer env guid name pubuid type properties st' =
        publishOrAnswer env guid name pubuid type' properties st' := by
    rw [publishOrAnswer, publishOrAnswer, htopics, htopic]
    cases topic <;> rfl
  rw [handlePublish, handlePublish]
  refine bind_congr fun d ↦ ?_
  dsimp only
  rw [hanswer (st.setPublishers guid d _) (st.topics_setClient guid _)]

/-- One message is handled in the same way. -/
theorem handleMessage_settled {m : StatedMessage} (h : m.Settled st) (init init' : Locals) :
    handleMessage env guid (m.fill init) st = handleMessage env guid (m.fill init') st := by
  rcases h.complete_or with hcomplete | ⟨l, rfl, huid, htopic⟩
  · rw [hcomplete.fill_eq init init']
  · rw [StatedMessage.fill, StatedMessage.fill,
      l.pubuid.fill_eq huid init.pubuid init.i init'.pubuid init'.i]
    exact handlePublish_type htopic _ _ _ _

/-- Every message that comes to its handler is settled in the state in which it comes there. The
contents of the variables do not matter for these states, so any will do. -/
def Settled (env : Env) (guid : Guid) : List StatedMessage → Instance → Prop
  | [], _ => True
  | m :: messages, st =>
    if m = .closed .unknown then Settled env guid messages st
    else st.mutexFree → m.Settled st ∧
      ∀ st', st.withMutex (handleMessage env guid (m.fill ⟨0, 0, .bool, 0⟩)) = .ok st' →
        Settled env guid messages st'

/-- A message that is not of an unknown method, filled in. -/
theorem handleMessages_fill {m : StatedMessage} (hm : m ≠ .closed .unknown) (init : Locals)
    (messages : List ClientMessage) (st : Instance) :
    handleMessages env guid (m.fill init :: messages) st =
      if st.mutexFree then do
        let st ← st.withMutex (handleMessage env guid (m.fill init))
        handleMessages env guid messages st
      else .ok st := by
  cases m with
  | closed message =>
    cases message with
    | unknown => exact absurd rfl hm
    | _ => rfl
  | _ => rfl

/-- So are all of them, each in the state that the ones before it lead to. -/
theorem handleMessages_settled {messages : List StatedMessage}
    (h : Settled env guid messages st) (init init' : Locals) :
    handleMessages env guid (messages.map (StatedMessage.fill init)) st =
      handleMessages env guid (messages.map (StatedMessage.fill init')) st := by
  induction messages generalizing st with
  | nil => rfl
  | cons m messages ih =>
    rw [Settled] at h
    rw [List.map_cons, List.map_cons]
    by_cases hm : m = .closed .unknown
    · rw [if_pos hm] at h
      rw [hm]
      exact ih h
    · rw [if_neg hm] at h
      rw [handleMessages_fill hm, handleMessages_fill hm]
      by_cases hfree : st.mutexFree
      · obtain ⟨hsettled, hrest⟩ := h hfree
        -- the handler does what it would do with any contents
        have hany (init : Locals) : st.withMutex (handleMessage env guid (m.fill init)) =
            st.withMutex (handleMessage env guid (m.fill ⟨0, 0, .bool, 0⟩)) := by
          have htaken : m.Settled { st with mutexFree := false } := hsettled.of_topics rfl
          rw [Instance.withMutex, Instance.withMutex,
            handleMessage_settled htaken init ⟨0, 0, .bool, 0⟩]
        rw [if_pos hfree, if_pos hfree, hany init, hany init']
        cases hst' : st.withMutex (handleMessage env guid (m.fill ⟨0, 0, .bool, 0⟩)) with
        | error fault => rfl
        | ok st' => exact ih (hrest st' hst')
      · rw [if_neg hfree, if_neg hfree]

/-- The text case of `_handleFrame` does the same for any two contents of its variables, if every
message that comes to its handler states what is used of it. -/
theorem handleTextFrame_settled {payload : Bytes}
    (h : guid ∈ st.clients → Settled env guid (statedMessages payload) st) (init init' : Locals) :
    handleTextFrame env guid init payload st = handleTextFrame env guid init' payload st := by
  rw [handleTextFrame, handleTextFrame, textMessages_eq, textMessages_eq, handleText, handleText]
  split
  · next hclient => exact handleMessages_settled (h hclient) init init'
  · rfl

end Handlers

/-- A client takes back the subscription with the uid 3. -/
def unsubscribeText : Bytes :=
  ascii "[\x7b\"method\":\"unsubscribe\",\"params\":\x7b\"subuid\":3\x7d\x7d]"

/-- A frame that unsubscribes, with two contents of the variables. -/
theorem handleTextFrame_settled_sample :
    Ends (@run .fractional {} [({}, .connect (.sample 1 "a"))])
      (fun st ↦ @handleTextFrame .fractional {} 1 ⟨5, 5, .int, 5⟩ unsubscribeText st =
        @handleTextFrame .fractional {} 1 ⟨7, 7, .str, 7⟩ unsubscribeText st)
      fun _ ↦ True := by
  have hstated : statedMessages unsubscribeText = [.unsubscribe (.given 3)] := by
    decide +kernel
  refine Ends.of_forall (fun st ↦ ?_) fun _ ↦ trivial
  refine @handleTextFrame_settled .fractional {} 1 st _ (fun _ ↦ ?_) _ _
  rw [hstated]
  exact fun _ ↦ ⟨rfl, fun _ _ ↦ trivial⟩

/-- A client subscribes without a uid. -/
def subscribeText : Bytes :=
  ascii "[\x7b\"method\":\"subscribe\",\"params\":\x7b\"topics\":[\"/x\"]\x7d\x7d]"

/-- The uids of the subscriptions of a client, if all went well. -/
def subscribedUids (guid : Guid) (result : Except Fault Instance) : Option (List Int32) :=
  (result >>= fun st ↦ (fun d ↦ d.subscriptions.keys) <$> st.client guid .nullDeref).toOption

/-- The uid of the subscription is what the variable happens to hold. -/
theorem subuid_left_open :
    ¬Ends (@run .fractional {} [({}, .connect (.sample 1 "a"))])
      (fun st ↦ ∀ init init' : Locals,
        @handleTextFrame .fractional {} 1 init subscribeText st =
          @handleTextFrame .fractional {} 1 init' subscribeText st)
      fun _ ↦ True := by
  intro h
  have hdiffer : Ends (@run .fractional {} [({}, .connect (.sample 1 "a"))])
      (fun st ↦
        subscribedUids 1 (@handleTextFrame .fractional {} 1 ⟨5, 0, .bool, 0⟩ subscribeText st) ≠
          subscribedUids 1 (@handleTextFrame .fractional {} 1 ⟨7, 0, .bool, 0⟩ subscribeText st))
      fun _ ↦ False := by
    decide +kernel
  refine h.incompatible hdiffer (fun st hsame hne ↦ hne ?_) fun _ _ ↦ id
  exact congrArg (subscribedUids 1) (hsame ⟨5, 0, .bool, 0⟩ ⟨7, 0, .bool, 0⟩)

end NetworkTables
