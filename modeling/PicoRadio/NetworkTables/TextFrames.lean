import PicoRadio.Json.Scanning
import PicoRadio.NetworkTables.Handlers

/-!
# Text frames as bytes

The `do … while` loop of the text case of `_handleFrame`, over the bytes of the payload. A pass
searches for the method and the parameters of a message, reads the parameters its method has, and
searches for two closing braces. The messages it dispatches are those `handleText` is given.

The handlers' local variables hold something also where the message leaves a parameter out;
`Locals` says what. Reading is separate from handling here: a handler that cannot take the mutex
returns from the whole function, and what would have been read after it is then not used.
-/

open Json Json.Unpacker

namespace NetworkTables

/-! ### Names -/

inductive MessageMethod
  | unknown
  | publish
  | unPublish
  | setProperties
  | subscribe
  | unSubscribe
  | announce
  | unAnnounce
  | properties
  deriving DecidableEq

def parseMessageMethod (str : Str) : MessageMethod :=
  if str = ascii "publish" then .publish
  else if str = ascii "unpublish" then .unPublish
  else if str = ascii "setproperties" then .setProperties
  else if str = ascii "subscribe" then .subscribe
  else if str = ascii "unsubscribe" then .unSubscribe
  else if str = ascii "announce" then .announce
  else if str = ascii "unannounce" then .unAnnounce
  else if str = ascii "properties" then .properties
  else .unknown

/-- `parseDataType`. -/
def parseDataType (str : Str) : NTDataType :=
  if str = ascii "boolean" then .bool
  else if str = ascii "double" then .float64
  else if str = ascii "int" then .int
  else if str = ascii "float" then .float32
  else if str = ascii "string" then .str
  else if str = ascii "json" then .json
  else if str = ascii "raw" then .bin
  else if str = ascii "msgpack" then .msgpack
  else if str = ascii "protobuf" then .protobuf
  else if str = ascii "boolean[]" then .boolArray
  else if str = ascii "double[]" then .float64Array
  else if str = ascii "int[]" then .intArray
  else if str = ascii "float[]" then .float32Array
  else if str = ascii "string[]" then .strArray
  else .bin

/-! ### The local variables -/

/-- What the variables without an initial value hold. -/
structure Locals where
  subuid : Int32
  pubuid : Int32
  type : NTDataType
  /-- `i` in `unpack_int`. -/
  i : Int32
  deriving DecidableEq

/-- The variables of the case `Subscribe`. -/
structure SubscribeLocals where
  topics : List Str := []
  subuid : Int32
  options : SubscriptionOptions := .DEFAULT
  deriving DecidableEq

/-- The variables of the case `Publish`. -/
structure PublishLocals where
  topic : Str := []
  pubuid : Int32
  type : NTDataType
  properties : TopicProperties := .DEFAULT
  deriving DecidableEq

/-- The variables of the case `SetProperties`: a property is absent while its flag is not set. -/
structure SetPropertiesLocals where
  topic : Str := []
  persistent : Option Bool := none
  retained : Option Bool := none
  cached : Option Bool := none
  deriving DecidableEq

/-! ### Loops -/

/-- `while (peek_type(&type) != OutOfRange && type != stop) body`. -/
def whileNot {α : Type} (stop : DataType) (body : α → StateM Unpacker α) (a : α) :
    StateM Unpacker α :=
  whileDo remaining (fun u ↦ u.peekType.any (· ≠ stop)) body a

/-- The branches over the keys; nothing is read for a key that has none. -/
def readIf {α : Type} (read : Option (α → StateM Unpacker α)) (a : α) : StateM Unpacker α :=
  match read with
  | some read => read a
  | none => pure a

/-- `for (int i = 0; i < n; i++)`, with a key and what the handler does for it. -/
def readParams {α : Type} (param : Str → Option (α → StateM Unpacker α)) :
    ℕ → α → StateM Unpacker α
  | 0, a => pure a
  | n + 1, a => do
    let key ← unpackKey
    let a ← readIf (param key) a
    readParams param n a

/-- One pass of the loop over an object of options or properties. Nothing is read for a key the
handler does not know, or whose value has another type than it takes. -/
def readEntry {α : Type} (field : Str → DataType → Option (α → StateM Unpacker α)) (a : α) :
    StateM Unpacker α := do
  let mkey ← unpackKey
  let type ← peek
  readIf (field mkey type) a

/-- An object of options or properties. -/
def readEntries {α : Type} (field : Str → DataType → Option (α → StateM Unpacker α)) (a : α) :
    StateM Unpacker α := do
  unpackObject
  let a ← whileNot .objectEnd (readEntry field) a
  unpackObjectEnd
  return a

/-! ### The parameters of each method -/

/-- The array of topics. -/
def readTopics (topics : List Str) : StateM Unpacker (List Str) := do
  unpackArray
  let topics ← whileNot .arrayEnd (fun topics ↦ (topics ++ [·]) <$> unpackString) topics
  unpackArrayEnd
  return topics

def optionField (init : Locals) (mkey : Str) (type : DataType) :
    Option (SubscriptionOptions → StateM Unpacker SubscriptionOptions) :=
  if mkey = ascii "periodic" ∧ type = .int then
    some fun options ↦ (fun periodic ↦ { options with periodic }) <$> unpackInt init.i
  else if mkey = ascii "all" ∧ type.isBool then
    some fun options ↦ (fun all ↦ { options with all }) <$> unpackBool
  else if mkey = ascii "topicsonly" ∧ type.isBool then
    some fun options ↦ (fun topicsonly ↦ { options with topicsonly }) <$> unpackBool
  else if mkey = ascii "prefix" ∧ type.isBool then
    some fun options ↦ (fun prefixMatch ↦ { options with prefixMatch }) <$> unpackBool
  else none

def subscribeParam (init : Locals) (key : Str) :
    Option (SubscribeLocals → StateM Unpacker SubscribeLocals) :=
  if key = ascii "topics" then
    some fun l ↦ (fun topics ↦ { l with topics }) <$> readTopics l.topics
  else if key = ascii "subuid" then
    some fun l ↦ (fun subuid ↦ { l with subuid }) <$> unpackInt init.i
  else if key = ascii "options" then
    some fun l ↦ (fun options ↦ { l with options }) <$> readEntries (optionField init) l.options
  else none

def propertyField (mkey : Str) (type : DataType) :
    Option (TopicProperties → StateM Unpacker TopicProperties) :=
  if mkey = ascii "persistent" ∧ type.isBool then
    some fun properties ↦ (fun persistent ↦ { properties with persistent }) <$> unpackBool
  else if mkey = ascii "retained" ∧ type.isBool then
    some fun properties ↦ (fun retained ↦ { properties with retained }) <$> unpackBool
  else if mkey = ascii "cached" ∧ type.isBool then
    some fun properties ↦ (fun cached ↦ { properties with cached }) <$> unpackBool
  else none

def publishParam (init : Locals) (key : Str) :
    Option (PublishLocals → StateM Unpacker PublishLocals) :=
  if key = ascii "name" then
    some fun l ↦ (fun topic ↦ { l with topic }) <$> unpackString
  else if key = ascii "pubuid" then
    some fun l ↦ (fun pubuid ↦ { l with pubuid }) <$> unpackInt init.i
  else if key = ascii "type" then
    some fun l ↦ (fun type ↦ { l with type := parseDataType type }) <$> unpackString
  else if key = ascii "properties" then
    some fun l ↦
      (fun properties ↦ { l with properties }) <$> readEntries propertyField l.properties
  else none

def updateField (mkey : Str) (type : DataType) :
    Option (SetPropertiesLocals → StateM Unpacker SetPropertiesLocals) :=
  if mkey = ascii "persistent" ∧ type.isBoolOrNull then
    some fun l ↦ (fun persistent ↦ { l with persistent }) <$> unpackDefaultBool
  else if mkey = ascii "retained" ∧ type.isBoolOrNull then
    some fun l ↦ (fun retained ↦ { l with retained }) <$> unpackDefaultBool
  else if mkey = ascii "cached" ∧ type.isBoolOrNull then
    some fun l ↦ (fun cached ↦ { l with cached }) <$> unpackDefaultBool
  else none

def setPropertiesParam (key : Str) :
    Option (SetPropertiesLocals → StateM Unpacker SetPropertiesLocals) :=
  if key = ascii "name" then
    some fun l ↦ (fun topic ↦ { l with topic }) <$> unpackString
  else if key = ascii "update" then some (readEntries updateField)
  else none

/-- The only parameter of the cases `UnSubscribe` and `UnPublish`. -/
def uidParam (init : Locals) (name : Str) (key : Str) : Option (Int32 → StateM Unpacker Int32) :=
  if key = name then some fun _ ↦ unpackInt init.i else none

/-- The `switch` over the methods. -/
def readMessage (init : Locals) (method : MessageMethod) : StateM Unpacker ClientMessage :=
  match method with
  | .subscribe => do
    let l ← readParams (subscribeParam init) 3 { subuid := init.subuid }
    return .subscribe l.topics l.subuid l.options
  | .publish => do
    let l ← readParams (publishParam init) 4 { pubuid := init.pubuid, type := init.type }
    return .publish l.topic l.pubuid l.type l.properties
  | .unSubscribe =>
    .unsubscribe <$> readParams (uidParam init (ascii "subuid")) 1 init.subuid
  | .unPublish =>
    .unpublish <$> readParams (uidParam init (ascii "pubuid")) 1 init.pubuid
  | .setProperties => do
    let l ← readParams setPropertiesParam 2 {}
    return .setproperties l.topic l.persistent l.retained l.cached
  | .unknown | .announce | .unAnnounce | .properties => pure .unknown

/-! ### The message loop -/

/-- The body of the loop. -/
def readObject (init : Locals) : StateM Unpacker ClientMessage := do
  unpackObject
  let _ ← unpackKey
  let method ← unpackString
  let _ ← unpackKey
  unpackObject
  let message ← readMessage init (parseMessageMethod method)
  unpackObjectEnd
  unpackObjectEnd
  return message

/-- The condition of the loop. -/
def moreMessages (u : Unpacker) : Bool :=
  !u.outOfRange ∧ u.peekType.any (· ≠ .arrayEnd)

/-- The text case of `_handleFrame`, up to the end of the array. -/
def textLoop (init : Locals) : StateM Unpacker (List ClientMessage) := do
  unpackArray
  let message ← readObject init
  let messages ← whileDo remaining moreMessages
    (fun messages ↦ (messages ++ [·]) <$> readObject init) [message]
  unpackArrayEnd
  return messages

/-- The messages the text loop comes to, those of unknown methods included. -/
def textMessages (init : Locals) (payload : Bytes) : List ClientMessage :=
  (textLoop init (setData payload)).1

/-- The messages the text loop dispatches to a handler. -/
def dispatched (init : Locals) (payload : Bytes) : List ClientMessage :=
  (textMessages init payload).filter (· ≠ .unknown)

/-- The text case of `_handleFrame`. -/
def handleTextFrame [FloatCodec] (env : Env) (guid : Guid) (init : Locals) (payload : Bytes)
    (st : Instance) : Except Fault Instance :=
  handleText env guid (textMessages init payload) st

end NetworkTables
