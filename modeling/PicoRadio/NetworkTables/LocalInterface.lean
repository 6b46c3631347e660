import PicoRadio.NetworkTables.Handlers

/-!
# Publishers, subscribers and entries

The classes through which a program uses its own instance: `NTSubscriber`, `NTPublisher` and
`NTEntry`, which has one of each. A subscriber is an object with an address. It puts its address
into a queue when it is made; the callback for announcements gives the topic to all subscribers in
the queue of its name, whether they still exist or not. The callback for updates keeps the last
value of each id, and a subscriber reads the value of the id of its topic.

The callbacks are called while the instance works. They change nothing that the instance reads and
always return true, so a call of the instance is run first and the callbacks it has made, which the
history of the local client records, are carried out after it (`World.call`).

An assertion that the pointer to the instance is not null, a pointer to an object that is gone and a
counter that overflows end in a `LocalFault`.
-/

/-! ### Values of a C++ type -/

namespace NTDataValue

/-- The constructors from a value of each type: the tag and the one member. -/
def ofBool (b : Bool) : NTDataValue :=
  setB { type := .bool } b

@[inherit_doc ofBool]
def ofDouble (bits : UInt64) : NTDataValue where
  type := .float64
  bits := bits

@[inherit_doc ofBool]
def ofInt (i : Int64) : NTDataValue where
  type := .int
  bits := i.toUInt64

@[inherit_doc ofBool]
def ofFloat (f32 : UInt32) : NTDataValue :=
  setF32 { type := .float32 } f32

@[inherit_doc ofBool]
def ofString (str : Str) : NTDataValue where
  type := .str
  str := str

@[inherit_doc ofBool]
def ofRaw (bin : Bytes) : NTDataValue where
  type := .bin
  bin := bin

@[inherit_doc ofBool]
def ofUInt (ui : UInt64) : NTDataValue where
  type := .uint
  bits := ui

@[inherit_doc ofBool]
def ofBooleanArray (bArray : List Bool) : NTDataValue where
  type := .boolArray
  bArray := bArray

@[inherit_doc ofBool]
def ofDoubleArray (f64Array : List UInt64) : NTDataValue where
  type := .float64Array
  f64Array := f64Array

@[inherit_doc ofBool]
def ofIntArray (iArray : List Int64) : NTDataValue where
  type := .intArray
  iArray := iArray

@[inherit_doc ofBool]
def ofFloatArray (f32Array : List UInt32) : NTDataValue where
  type := .float32Array
  f32Array := f32Array

@[inherit_doc ofBool]
def ofStringArray (strArray : List Str) : NTDataValue where
  type := .strArray
  strArray := strArray

end NTDataValue

namespace NetworkTables

/-- How a program that uses the local classes can go wrong. -/
inductive LocalFault
  /-- The instance faults. -/
  | server (fault : Fault)
  /-- `assert(nt != nullptr)` fails. -/
  | noInstance
  /-- The object behind a pointer is gone. -/
  | dangling
  /-- `NEXT_SUBSCRIBER_ID` or `NEXT_PUBLISHER_ID` overflows. -/
  | overflow
  deriving DecidableEq

/-! ### The objects -/

/-- `NTTopic`, as it is before an announcement. -/
structure NTTopic where
  name : Str
  id : ℤ := -1
  type : NTDataType := .bool
  properties : TopicProperties := .DEFAULT
  deriving DecidableEq

/-- `NTTopic(nt, announcedTopic)`. -/
def NTTopic.ofAnnounced (t : AnnouncedTopic) : NTTopic :=
  ⟨t.name, t.id, t.type, t.properties⟩

/-- A subscriber: its subscription, and the topic it was told of. -/
structure NTSubscriber where
  topic : NTTopic
  subuid : Int32
  deriving DecidableEq

/-- A publisher: its id, and the topic that the publication returned. -/
structure NTPublisher where
  /-- Whether `nt` points to the instance. -/
  nt : Bool
  topic : NTTopic
  pubuid : Int32
  deriving DecidableEq

/-- `NTPublisher()`. Its `pubuid` is never read. -/
def NTPublisher.none : NTPublisher where
  nt := false
  topic := { name := [] }
  pubuid := 0

/-- A subscriber, and a publisher once there is something to publish. -/
structure NTEntry where
  publishing : Bool
  pubProperties : TopicProperties
  /-- The address of the member `sub`. -/
  sub : ℕ
  pub : NTPublisher
  deriving DecidableEq

/-- `TopicCallbackData::UpdateData`. -/
structure UpdateData where
  value : NTDataValue
  timestamp : UInt64
  deriving DecidableEq

/-- `TopicCallbackData`: the subscribers that wait for each topic, and the last update of
each id. -/
structure TopicCallbackData where
  announce : AList fun _ : Str ↦ List ℕ := ∅
  updates : AList fun _ : ℤ ↦ UpdateData := ∅
  deriving DecidableEq

/-- An instance with what the program has made on it. -/
structure World where
  inst : Instance
  /-- `NT_topicCallbacks[nt]`, if there is such an entry. -/
  callbacks : Option TopicCallbackData := .none
  /-- The callbacks of the instance are those a subscriber sets. -/
  installed : Bool := false
  /-- The subscribers that exist, by their addresses. -/
  subscribers : AList fun _ : ℕ ↦ NTSubscriber := ∅
  NEXT_SUBSCRIBER_ID : Int32 := 0
  NEXT_PUBLISHER_ID : Int32 := 0

/-! ### The callbacks -/

/-- The environment with the callbacks a subscriber sets. -/
def Env.install (env : Env) : Env :=
  { env with
    topicAnnouncedCallback := some fun _ _ ↦ true
    topicUpdateCallback := some fun _ _ _ _ ↦ true }

/-- Give the topic to the subscribers in a queue. -/
def assignTopic (t : AnnouncedTopic) (queue : List ℕ)
    (subscribers : AList fun _ : ℕ ↦ NTSubscriber) :
    Except LocalFault (AList fun _ : ℕ ↦ NTSubscriber) :=
  queue.foldlM (fun subscribers this ↦
    match subscribers.lookup this with
    | some s => .ok (subscribers.insert this { s with topic := .ofAnnounced t })
    | none => .error .dangling) subscribers

namespace World

/-- `NT_topicCallbacks[nt]`. -/
def data (w : World) : TopicCallbackData :=
  w.callbacks.getD {}

/-- `NT_topicAnnouncedCallback`. -/
def announced (w : World) (t : AnnouncedTopic) : Except LocalFault World := do
  let subscribers ← assignTopic t ((w.data.announce.lookup t.name).getD []) w.subscribers
  .ok { w with
    subscribers
    callbacks := some { w.data with announce := w.data.announce.insert t.name [] } }

/-- `NT_topicUpdateCallback`. -/
def updated (w : World) (id : ℤ) (timestamp : UInt64) (value : NTDataValue) : World :=
  { w with
    callbacks := some { w.data with updates := w.data.updates.insert id ⟨value, timestamp⟩ } }

/-- Carry out a callback. -/
def callback (w : World) : ClientEvent → Except LocalFault World
  | .announcedCallback t => w.announced t
  | .updateCallback id time value => .ok (w.updated id time value)
  | .propertiesCallback _ _ | .text _ | .update _ _ | .sentText _ | .sentBinary _ => .ok w

/-- The environment in which the instance works. -/
def env (w : World) (env : Env) : Env :=
  if w.installed then env.install else env

/-- What the instance has called since it was as it is in `w`. -/
def calls (w : World) (st : Instance) : List ClientEvent :=
  if w.installed then st.thisClient.history.drop w.inst.thisClient.history.length else []

/-- The instance has worked; carry out the callbacks it has made. -/
def after (w : World) (st : Instance) : Except LocalFault World :=
  (w.calls st).foldlM callback { w with inst := st }

/-- A member function of the instance. -/
def call {α : Type} (w : World) (x : Except Fault (Instance × α)) : Except LocalFault (World × α) :=
  match x with
  | .ok r => (·, r.2) <$> w.after r.1
  | .error fault => .error (.server fault)

/-- A member function of the instance without a result. -/
def run (w : World) (x : Except Fault Instance) : Except LocalFault World :=
  Prod.fst <$> w.call ((·, ()) <$> x)

/-- The subscriber at an address. -/
def subscriber (w : World) (this : ℕ) : Except LocalFault NTSubscriber :=
  match w.subscribers.lookup this with
  | some s => .ok s
  | none => .error .dangling

/-- `NEXT_SUBSCRIBER_ID++` and `NEXT_PUBLISHER_ID++` are used up at the end of the type. -/
def nextId (id : Int32) : Except LocalFault Int32 :=
  if id = Int32.maxValue then .error .overflow else .ok (id + 1)

end World

section

variable [FloatCodec]

/-! ### The instance -/

/-- `publish`. -/
def publish (env : Env) (name : Str) (pubuid : Int32) (type : NTDataType)
    (properties : TopicProperties) (st : Instance) : Except Fault (Instance × AnnouncedTopic) :=
  if st.mutexFree then do
    let r ← localPublish env name pubuid type properties { st with mutexFree := false }
    .ok ({ r.1 with mutexFree := true }, r.2)
  else .ok (st, .failed properties)

/-- Both overloads of `updateTopic`: without a time the server's is read. -/
def updateTopic (env : Env) (id : Int32) (value : NTDataValue) (time : Option UInt64)
    (st : Instance) : Except Fault Instance :=
  st.withMutex (localUpdateTopic env id value (time.getD (getServerTime env st)))

/-- With the mutex free, a publication is done and gives the mutex back. -/
theorem publish_of_free {st : Instance} (h : st.mutexFree = true) (env : Env) (name : Str)
    (pubuid : Int32) (type : NTDataType) (properties : TopicProperties) :
    publish env name pubuid type properties st =
      (fun r ↦ ({ r.1 with mutexFree := true }, r.2)) <$>
        localPublish env name pubuid type properties { st with mutexFree := false } := by
  rw [publish, if_pos h]
  cases localPublish env name pubuid type properties { st with mutexFree := false } <;> rfl

/-! ### `NTSubscriber` -/

namespace NTSubscriber

/-- The part of the constructor that sets the callbacks and enters the queue. -/
def register (this : ℕ) (topic : Str) (w : World) : World :=
  { w with
    callbacks := some { w.data with
      announce := w.data.announce.insert topic ((w.data.announce.lookup topic).getD [] ++ [this]) }
    -- they are set with the first subscriber of the instance
    installed := w.callbacks.isNone || w.installed }

/-- `NTSubscriber(nt, topic)`, at the address `this`. -/
def make (env : Env) (this : ℕ) (topic : Str) (w : World) : Except LocalFault World := do
  let subuid := w.NEXT_SUBSCRIBER_ID
  let next ← World.nextId subuid
  let w := register this topic w
  let w := { w with
    NEXT_SUBSCRIBER_ID := next
    subscribers := w.subscribers.insert this ⟨{ name := topic }, subuid⟩ }
  w.run (w.inst.withMutex (localSubscribe (w.env env) [topic] subuid .DEFAULT))

/-- `close`. -/
def close (env : Env) (this : ℕ) (w : World) : Except LocalFault World := do
  let s ← w.subscriber this
  w.run (w.inst.withMutex (localUnsubscribe (w.env env) s.subuid))

/-- `~NTSubscriber`. -/
def destroy (env : Env) (this : ℕ) (w : World) : Except LocalFault World := do
  let w ← close env this w
  .ok { w with subscribers := w.subscribers.erase this }

end NTSubscriber

namespace World

/-- `get`. -/
def get (w : World) (s : NTSubscriber) : NTDataValue :=
  match w.data.updates.lookup s.topic.id with
  | some data => data.value
  | none => { type := .unassigned }

/-- The typed getters: the member of a value that is valid and passes the test, or the default. -/
def getIf {α : Type} (w : World) (s : NTSubscriber) (test : NTDataValue → Bool)
    (member : NTDataValue → α) (defaultValue : α) : α :=
  let value := w.get s
  if !value.isValid || !test value then defaultValue else member value

def getBoolean (w : World) (s : NTSubscriber) (defaultValue : Bool) : Bool :=
  w.getIf s (·.getAPIType = .bool) (·.b) defaultValue

def getDouble (w : World) (s : NTSubscriber) (defaultValue : UInt64) : UInt64 :=
  w.getIf s (·.getAPIType = .float64) (·.bits) defaultValue

def getFloat (w : World) (s : NTSubscriber) (defaultValue : UInt32) : UInt32 :=
  w.getIf s (·.getAPIType = .float32) (·.f32) defaultValue

def getInt (w : World) (s : NTSubscriber) (defaultValue : Int64) : Int64 :=
  w.getIf s (·.type = .int) (·.i) defaultValue

def getUInt (w : World) (s : NTSubscriber) (defaultValue : UInt64) : UInt64 :=
  w.getIf s (·.type = .uint) (·.bits) defaultValue

def getString (w : World) (s : NTSubscriber) (defaultValue : Str) : Str :=
  w.getIf s (·.getAPIType = .str) (·.str) defaultValue

def getBooleanArray (w : World) (s : NTSubscriber) (defaultValue : List Bool) : List Bool :=
  w.getIf s (·.getAPIType = .boolArray) (·.bArray) defaultValue

def getDoubleArray (w : World) (s : NTSubscriber) (defaultValue : List UInt64) : List UInt64 :=
  w.getIf s (·.getAPIType = .float64Array) (·.f64Array) defaultValue

def getFloatArray (w : World) (s : NTSubscriber) (defaultValue : List UInt32) : List UInt32 :=
  w.getIf s (·.getAPIType = .float32Array) (·.f32Array) defaultValue

def getIntArray (w : World) (s : NTSubscriber) (defaultValue : List Int64) : List Int64 :=
  w.getIf s (·.getAPIType = .intArray) (·.iArray) defaultValue

def getStringArray (w : World) (s : NTSubscriber) (defaultValue : List Str) : List Str :=
  w.getIf s (·.getAPIType = .strArray) (·.strArray) defaultValue

def getRaw (w : World) (s : NTSubscriber) (defaultValue : Bytes) : Bytes :=
  w.getIf s (·.getAPIType = .bin) (·.bin) defaultValue

end World

/-! ### `NTPublisher` -/

namespace NTPublisher

/-- The setters: `updateTopic`, if the type of the topic passes the test. -/
def setIf (env : Env) (pub : NTPublisher) (test : Bool) (value : NTDataValue) (time : Option UInt64)
    (w : World) : Except LocalFault (World × Bool) :=
  if !pub.nt then .error .noInstance
  else if !test then .ok (w, false)
  else (·, true) <$> w.run (updateTopic (w.env env) pub.pubuid value time w.inst)

def set (env : Env) (pub : NTPublisher) (value : NTDataValue) (time : Option UInt64) (w : World) :
    Except LocalFault (World × Bool) :=
  setIf env pub (pub.topic.type = value.getAPIType) value time w

def setBoolean (env : Env) (pub : NTPublisher) (value : Bool) (time : Option UInt64) (w : World) :
    Except LocalFault (World × Bool) :=
  setIf env pub (pub.topic.type = .bool) (.ofBool value) time w

def setDouble (env : Env) (pub : NTPublisher) (value : UInt64) (time : Option UInt64) (w : World) :
    Except LocalFault (World × Bool) :=
  setIf env pub (pub.topic.type = .float64) (.ofDouble value) time w

def setFloat (env : Env) (pub : NTPublisher) (value : UInt32) (time : Option UInt64) (w : World) :
    Except LocalFault (World × Bool) :=
  setIf env pub (pub.topic.type = .float32) (.ofFloat value) time w

def setInt (env : Env) (pub : NTPublisher) (value : Int64) (time : Option UInt64) (w : World) :
    Except LocalFault (World × Bool) :=
  setIf env pub (pub.topic.type = .int) (.ofInt value) time w

def setUInt (env : Env) (pub : NTPublisher) (value : UInt64) (time : Option UInt64) (w : World) :
    Except LocalFault (World × Bool) :=
  setIf env pub (pub.topic.type = .int || pub.topic.type = .uint) (.ofUInt value) time w

def setString (env : Env) (pub : NTPublisher) (value : Str) (time : Option UInt64) (w : World) :
    Except LocalFault (World × Bool) :=
  setIf env pub (pub.topic.type = .str || pub.topic.type = .json) (.ofString value) time w

def setBooleanArray (env : Env) (pub : NTPublisher) (value : List Bool) (time : Option UInt64)
    (w : World) : Except LocalFault (World × Bool) :=
  setIf env pub (pub.topic.type = .boolArray) (.ofBooleanArray value) time w

def setDoubleArray (env : Env) (pub : NTPublisher) (value : List UInt64) (time : Option UInt64)
    (w : World) : Except LocalFault (World × Bool) :=
  setIf env pub (pub.topic.type = .float64Array) (.ofDoubleArray value) time w

def setFloatArray (env : Env) (pub : NTPublisher) (value : List UInt32) (time : Option UInt64)
    (w : World) : Except LocalFault (World × Bool) :=
  setIf env pub (pub.topic.type = .float32Array) (.ofFloatArray value) time w

def setIntArray (env : Env) (pub : NTPublisher) (value : List Int64) (time : Option UInt64)
    (w : World) : Except LocalFault (World × Bool) :=
  setIf env pub (pub.topic.type = .intArray) (.ofIntArray value) time w

def setStringArray (env : Env) (pub : NTPublisher) (value : List Str) (time : Option UInt64)
    (w : World) : Except LocalFault (World × Bool) :=
  setIf env pub (pub.topic.type = .strArray) (.ofStringArray value) time w

def setRaw (env : Env) (pub : NTPublisher) (value : Bytes) (time : Option UInt64) (w : World) :
    Except LocalFault (World × Bool) :=
  setIf env pub (pub.topic.type = .bin) (.ofRaw value) time w

/-- The four constructors that publish: `properties` are the default ones, and `time` is absent,
where the source has no argument for them. -/
def make (env : Env) (topic : Str) (defaultValue : NTDataValue) (time : Option UInt64)
    (properties : TopicProperties) (w : World) : Except LocalFault (World × NTPublisher) := do
  let pubuid := w.NEXT_PUBLISHER_ID
  let next ← World.nextId pubuid
  let w := { w with NEXT_PUBLISHER_ID := next }
  let r ← w.call (publish (w.env env) topic pubuid defaultValue.type properties w.inst)
  let pub : NTPublisher := ⟨true, .ofAnnounced r.2, pubuid⟩
  let s ← pub.set env defaultValue time r.1
  .ok (s.1, pub)

/-- `close`, and `~NTPublisher`, which calls it. -/
def close (env : Env) (pub : NTPublisher) (w : World) : Except LocalFault World :=
  if !pub.nt then .error .noInstance
  else w.run (w.inst.withMutex (localUnpublish (w.env env) pub.pubuid))

end NTPublisher

/-- A call of one of the setters. -/
inductive SetCall
  | set (value : NTDataValue)
  | setBoolean (value : Bool)
  | setDouble (value : UInt64)
  | setFloat (value : UInt32)
  | setInt (value : Int64)
  | setUInt (value : UInt64)
  | setString (value : Str)
  | setBooleanArray (value : List Bool)
  | setDoubleArray (value : List UInt64)
  | setFloatArray (value : List UInt32)
  | setIntArray (value : List Int64)
  | setStringArray (value : List Str)
  | setRaw (value : Bytes)
  deriving DecidableEq

namespace SetCall

/-- The value that is set: the argument, or what `{value}` makes of it. -/
def value : SetCall → NTDataValue
  | set value => value
  | setBoolean value => .ofBool value
  | setDouble value => .ofDouble value
  | setFloat value => .ofFloat value
  | setInt value => .ofInt value
  | setUInt value => .ofUInt value
  | setString value => .ofString value
  | setBooleanArray value => .ofBooleanArray value
  | setDoubleArray value => .ofDoubleArray value
  | setFloatArray value => .ofFloatArray value
  | setIntArray value => .ofIntArray value
  | setStringArray value => .ofStringArray value
  | setRaw value => .ofRaw value

/-- The setter, on a publisher. -/
def publisher (env : Env) (pub : NTPublisher) (time : Option UInt64) (w : World) :
    SetCall → Except LocalFault (World × Bool)
  | set value => pub.set env value time w
  | setBoolean value => pub.setBoolean env value time w
  | setDouble value => pub.setDouble env value time w
  | setFloat value => pub.setFloat env value time w
  | setInt value => pub.setInt env value time w
  | setUInt value => pub.setUInt env value time w
  | setString value => pub.setString env value time w
  | setBooleanArray value => pub.setBooleanArray env value time w
  | setDoubleArray value => pub.setDoubleArray env value time w
  | setFloatArray value => pub.setFloatArray env value time w
  | setIntArray value => pub.setIntArray env value time w
  | setStringArray value => pub.setStringArray env value time w
  | setRaw value => pub.setRaw env value time w

end SetCall

/-! ### `NTEntry` -/

namespace NTEntry

/-- The four constructors; `this` is the address of the member `sub`. A default value publishes. -/
def make (env : Env) (this : ℕ) (topic : Str) (defaultValue : Option NTDataValue)
    (properties : Option TopicProperties) (w : World) : Except LocalFault (World × NTEntry) := do
  let pubProperties := properties.getD .DEFAULT
  let w ← NTSubscriber.make env this topic w
  match defaultValue with
  | none => .ok (w, ⟨false, pubProperties, this, .none⟩)
  | some defaultValue =>
    let r ← NTPublisher.make env topic defaultValue .none pubProperties w
    .ok (r.1, ⟨true, pubProperties, this, r.2⟩)

/-- Every setter: the first one, and the first after `unpublish`, makes a publisher in the place of
the old one; the others are those of the publisher. -/
def set (env : Env) (entry : NTEntry) (call : SetCall) (time : Option UInt64) (w : World) :
    Except LocalFault (World × NTEntry × Bool) := do
  if entry.publishing then
    let r ← call.publisher env entry.pub time w
    .ok (r.1, entry, r.2)
  else
    let s ← w.subscriber entry.sub
    let r ← NTPublisher.make env s.topic.name call.value time entry.pubProperties w
    .ok (r.1, { entry with publishing := true, pub := r.2 }, true)

/-- `unpublish`. -/
def unpublish (env : Env) (entry : NTEntry) (w : World) : Except LocalFault (World × NTEntry) := do
  if entry.publishing then
    let w ← entry.pub.close env w
    .ok (w, { entry with publishing := false })
  else .ok (w, entry)

/-- `close`. -/
def close (env : Env) (entry : NTEntry) (w : World) : Except LocalFault (World × NTEntry) := do
  let r ← entry.unpublish env w
  let w ← NTSubscriber.close env r.2.sub r.1
  .ok (w, r.2)

/-- `~NTEntry`: its body, then the destructors of the members `pub` and `sub`. -/
def destroy (env : Env) (entry : NTEntry) (w : World) : Except LocalFault World := do
  let r ← entry.close env w
  let w ← r.2.pub.close env r.1
  NTSubscriber.destroy env r.2.sub w

end NTEntry

end

end NetworkTables
