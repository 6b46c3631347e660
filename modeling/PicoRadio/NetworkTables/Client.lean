import PicoRadio.Library.UnorderedMap
import PicoRadio.NetworkTables.DataValue

/-!
# One client of the server

The data the server keeps for a client, and everything it does to one client at a time: announcing
a topic, sending properties, sending a value, and handing the two caches over to the socket.

Text messages and value updates wait in two separate caches. A cache is handed to `server->send`
when the next message would not fit, or when the caller flushes it, and the two are flushed at
different moments. `history` records what happens to the client in order: what is put into a cache,
what is handed to `server->send`, and, for the local client, which callbacks are called. The source
keeps no such record; it is what a claim about a whole run of the server speaks of, and no function
of the source reads it.

`history` starts empty with the connection, as the rest of the client's data does.
-/

/-- A 128-bit identifier. `Guid()` is all zeros. -/
abbrev Guid := BitVec 128

namespace NetworkTables

/-! ### The data -/

/-- The properties of a topic. -/
structure TopicProperties where
  persistent : Bool := false
  retained : Bool := false
  cached : Bool := false
  deriving DecidableEq

/-- `TopicProperties_DEFAULT`. -/
def TopicProperties.DEFAULT : TopicProperties where
  cached := true

/-- `SubscriptionOptions`; `prefixMatch` is the source's `prefix`. -/
structure SubscriptionOptions where
  periodic : Int32
  all : Bool
  topicsonly : Bool
  prefixMatch : Bool
  deriving DecidableEq

/-- `SubscriptionOptions_DEFAULT`. -/
def SubscriptionOptions.DEFAULT : SubscriptionOptions where
  periodic := 100
  all := false
  topicsonly := false
  prefixMatch := false

/-- A topic and its present value. -/
structure Topic where
  name : Str
  value : NTDataValue
  properties : TopicProperties := .DEFAULT
  deriving DecidableEq

/-- What a client wants to hear of, under the uid it chose. -/
structure Subscription where
  uid : Int32
  topics : List Str
  options : SubscriptionOptions
  deriving DecidableEq

/-- What lets a client put values to a topic, under the uid it chose. -/
structure Publisher where
  uid : Int32
  topic : Str
  deriving DecidableEq

/-- What `topicAnnouncedCallback` is given. -/
structure AnnouncedTopic where
  name : Str
  id : ℤ
  type : NTDataType
  properties : TopicProperties
  deriving DecidableEq

/-- What a client knows of a topic. Its default, made by the subscript operator, has id `0`. -/
structure ClientTopicData where
  id : ℤ := 0
  initialPublish : Bool := false
  deriving DecidableEq

/-- A text message for a client. -/
inductive TextMessage
  | announce (name : Str) (id : ℤ) (type : NTDataType) (pubuid : Option Int32)
      (properties : TopicProperties)
  | unannounce (name : Str) (id : ℤ)
  | properties (name : Str) (ack : Bool) (update : TopicProperties)
  deriving DecidableEq

/-- A value update for a client: the four elements of its array, the value packed. -/
structure ValueUpdate where
  id : ℤ
  time : UInt64
  type : NTDataType
  value : Bytes
  deriving DecidableEq

/-- What happens to a client. -/
inductive ClientEvent
  /-- A text message is put into the text cache. -/
  | text (message : TextMessage)
  /-- A value update of a topic is put into the binary cache. The update itself does not name the
  topic. -/
  | update (topic : Str) (update : ValueUpdate)
  /-- The text cache is handed to `server->send`. -/
  | sentText (frame : Str)
  /-- The binary cache is handed to `server->send`. -/
  | sentBinary (frame : Bytes)
  /-- `topicAnnouncedCallback` is called; only for the local client. -/
  | announcedCallback (topic : AnnouncedTopic)
  /-- `topicUpdateCallback` is called; only for the local client. -/
  | updateCallback (id : ℤ) (time : UInt64) (value : NTDataValue)
  /-- `topicPropertiesUpdateCallback` is called; only for the local client. -/
  | propertiesCallback (name : Str) (properties : TopicProperties)
  deriving DecidableEq

/-- Who a client is and what it asked for. A null pointer in a map is `none`. -/
structure ClientInfo where
  guid : Guid
  name : Str
  subscriptions : AList fun _ : Int32 ↦ Option Subscription := ∅
  publishers : AList fun _ : Int32 ↦ Option Publisher := ∅
  deriving DecidableEq

/-- What has been told to a client. -/
structure ClientOutput where
  topicData : AList fun _ : Str ↦ ClientTopicData := ∅
  nextTopicIdAssigned : ℤ := 0
  textCache : Str := []
  binaryCache : Bytes := []
  history : List ClientEvent := []
  deriving DecidableEq

structure ClientData extends ClientInfo, ClientOutput
  deriving DecidableEq

/-! ### Message texts -/

/-- `b ? "true" : "false"`. -/
def boolText (b : Bool) : Str :=
  if b then ascii "true" else ascii "false"

/-- The properties object of an announcement or of a properties message. -/
def TopicProperties.text (p : TopicProperties) : Str :=
  ascii "\x7b\"persistent\":" ++ boolText p.persistent ++ ascii ",\"retained\":" ++
    boolText p.retained ++ ascii ",\"cached\":" ++ boolText p.cached ++ ascii "\x7d"

/-- The text the message builders concatenate. -/
def TextMessage.text : TextMessage → Str
  | announce name id type none props =>
    ascii "\x7b\"method\":\"announce\",\"params\":\x7b\"name\":\"" ++ name ++ ascii "\",\"id\":" ++
      decimalInt id ++ ascii ",\"type\":\"" ++ type.serialize ++ ascii "\",\"properties\":" ++
      props.text ++ ascii "\x7d\x7d"
  | announce name id type (some pubuid) props =>
    ascii "\x7b\"method\":\"announce\",\"params\":\x7b\"name\":\"" ++ name ++ ascii "\",\"id\":" ++
      decimalInt id ++ ascii ",\"type\":\"" ++ type.serialize ++ ascii "\",\"pubuid\":" ++
      decimalInt pubuid.toInt ++ ascii ",\"properties\":" ++ props.text ++ ascii "\x7d\x7d"
  | unannounce name id =>
    ascii "\x7b\"method\":\"unannounce\",\"params\":\x7b\"name\":\"" ++ name ++ ascii "\",\"id\":"
      ++
      decimalInt id ++ ascii "\x7d\x7d"
  | properties name ack update =>
    ascii "\x7b\"method\":\"properties\",\"params\":\x7b\"name\":\"" ++ name ++
      (if ack then ascii "\",\"ack\":true" else ascii "\"") ++ ascii ",\"update\":" ++
      update.text ++ ascii "\x7d\x7d"

/-- The bytes of an update, as `sendTopicUpdate` packs them. -/
def ValueUpdate.bytes (u : ValueUpdate) : Bytes :=
  Msgpack.packArrayHeader 4 ++ Msgpack.packInt64 (Int64.ofInt u.id) ++ Msgpack.packUInt64 u.time ++
    Msgpack.packUInt8 u.type.code ++ u.value

/-! ### What the server does to one client -/

/-- `MAX_CLIENT_TEXT_CACHE_LENGTH`. -/
def MAX_CLIENT_TEXT_CACHE_LENGTH : ℕ := 512

/-- `MAX_CLIENT_BINARY_CACHE_LENGTH`. -/
def MAX_CLIENT_BINARY_CACHE_LENGTH : ℕ := 512

namespace ClientData

/-- One more event in the history. -/
def record (d : ClientData) (e : ClientEvent) : ClientData :=
  { d with history := d.history ++ [e] }

/-- `flushText`: hand the text cache over if a message of `uncachedSize` bytes does not fit, with
the brackets of the JSON array around it. -/
def flushText (d : ClientData) (uncachedSize : ℕ) : ClientData :=
  if d.textCache.length > 0 ∧
      d.textCache.length + uncachedSize + 2 > MAX_CLIENT_TEXT_CACHE_LENGTH then
    { d.record (.sentText (ascii "[" ++ d.textCache ++ ascii "]")) with textCache := [] }
  else d

/-- `flushBinary`. -/
def flushBinary (d : ClientData) (uncachedSize : ℕ) : ClientData :=
  if d.binaryCache.length > 0 ∧
      d.binaryCache.length + uncachedSize > MAX_CLIENT_BINARY_CACHE_LENGTH then
    { d.record (.sentBinary d.binaryCache) with binaryCache := [] }
  else d

/-- The end of every text message builder: make room, then append the text after a comma. -/
def appendText (d : ClientData) (message : TextMessage) : ClientData :=
  let d := d.flushText message.text.length
  { d.record (.text message) with
    textCache := (if d.textCache.length > 0 then d.textCache ++ ascii "," else d.textCache) ++
      message.text }

/-- A topic the client does not know yet gets the client's next id. -/
def assignId (d : ClientData) (name : Str) : ClientData :=
  match d.topicData.lookup name with
  | some _ => d
  | none =>
    { d with
      topicData := d.topicData.insert name { id := d.nextTopicIdAssigned }
      nextTopicIdAssigned := d.nextTopicIdAssigned + 1 }

/-- `topicData[name].id`. -/
def topicId (d : ClientData) (name : Str) : ℤ :=
  ((d.topicData.lookup name).getD {}).id

/-- `announceTopic(guid, topic)`: a topic is announced once; later calls do nothing. -/
def announceTopic (d : ClientData) (topic : Topic) : ClientData :=
  match d.topicData.lookup topic.name with
  | some _ => d
  | none =>
    let d := d.assignId topic.name
    d.appendText
      (.announce topic.name (d.topicId topic.name) topic.value.type none topic.properties)

/-- `announceTopic(guid, topic, pubuid)`: the answer to a publisher, sent again for a topic the
client already knows. -/
def announceTopicToPublisher (d : ClientData) (topic : Topic) (pubuid : Int32) : ClientData :=
  let d := d.assignId topic.name
  d.appendText
    (.announce topic.name (d.topicId topic.name) topic.value.type (some pubuid) topic.properties)

/-- `unannounceTopic(guid, topic)`. The entry of the topic stays. -/
def unannounceTopic (d : ClientData) (topic : Topic) : ClientData :=
  match d.topicData.lookup topic.name with
  | some data => d.appendText (.unannounce topic.name data.id)
  | none => d

/-- `sendPropertyUpdate(guid, topic, ack)`. -/
def sendPropertyUpdate (d : ClientData) (topic : Topic) (ack : Bool) : ClientData :=
  d.appendText (.properties topic.name ack topic.properties)

/-- The update `sendTopicUpdate` builds for a client. -/
def topicUpdate [FloatCodec] (d : ClientData) (topic : Topic) (time : UInt64) : ValueUpdate where
  id := d.topicId topic.name
  time := time
  type := topic.value.getAPIType
  value := topic.value.pack

/-- `sendTopicUpdate(guid, topic, time)`. The subscript operator makes an entry for a topic the
client does not know. -/
def sendTopicUpdate [FloatCodec] (d : ClientData) (topic : Topic) (time : UInt64) : ClientData :=
  let u := d.topicUpdate topic time
  let d := { d with
    topicData := d.topicData.insert topic.name { id := u.id, initialPublish := true } }
  let d := d.flushBinary u.bytes.length
  { d.record (.update topic.name u) with binaryCache := d.binaryCache ++ u.bytes }

/-- `announceTopicSelfSync`, for the local client, whose announcements are not sent. -/
def announceTopicSelfSync (d : ClientData) (topic : Topic) : ClientData × AnnouncedTopic :=
  let d := d.assignId topic.name
  (d, ⟨topic.name, d.topicId topic.name, topic.value.type, topic.properties⟩)

end ClientData

/-! ### The updates of a client -/

/-- The value update an event puts into the binary cache. -/
@[simp]
def ClientEvent.asUpdate : ClientEvent → Option ValueUpdate
  | update _ u => some u
  | text _ | sentText _ | sentBinary _ | announcedCallback _ | updateCallback _ _ _
  | propertiesCallback _ _ => none

/-- The value updates put into the binary cache, in order. -/
def ClientOutput.updates (d : ClientOutput) : List ValueUpdate :=
  d.history.filterMap ClientEvent.asUpdate

namespace ClientData

/-- An event that is no update adds none. -/
@[simp]
theorem updates_record (d : ClientData) (e : ClientEvent) :
    (d.record e).updates = d.updates ++ e.asUpdate.toList := by
  show (d.history ++ [e]).filterMap _ = _
  rw [List.filterMap_append]
  cases e <;> rfl

@[simp]
theorem updates_flushText (d : ClientData) (n : ℕ) : (d.flushText n).updates = d.updates := by
  rw [flushText]
  split
  · exact (updates_record d _).trans (List.append_nil _)
  · rfl

@[simp]
theorem updates_flushBinary (d : ClientData) (n : ℕ) : (d.flushBinary n).updates = d.updates := by
  rw [flushBinary]
  split
  · exact (updates_record d _).trans (List.append_nil _)
  · rfl

@[simp]
theorem updates_appendText (d : ClientData) (m : TextMessage) :
    (d.appendText m).updates = d.updates := by
  show ((d.flushText m.text.length).record (.text m)).updates = d.updates
  rw [updates_record, updates_flushText]
  exact List.append_nil _

@[simp]
theorem updates_assignId (d : ClientData) (name : Str) :
    (d.assignId name).updates = d.updates := by
  rw [assignId]
  split <;> rfl

@[simp]
theorem updates_announceTopic (d : ClientData) (topic : Topic) :
    (d.announceTopic topic).updates = d.updates := by
  rw [announceTopic]
  split
  · rfl
  · exact (updates_appendText _ _).trans (updates_assignId d _)

@[simp]
theorem updates_announceTopicToPublisher (d : ClientData) (topic : Topic) (pubuid : Int32) :
    (d.announceTopicToPublisher topic pubuid).updates = d.updates :=
  (updates_appendText _ _).trans (updates_assignId d _)

@[simp]
theorem updates_sendPropertyUpdate (d : ClientData) (topic : Topic) (ack : Bool) :
    (d.sendPropertyUpdate topic ack).updates = d.updates :=
  updates_appendText d _

/-- Sending a value puts one update into the cache. -/
@[simp]
theorem updates_sendTopicUpdate [FloatCodec] (d : ClientData) (topic : Topic) (time : UInt64) :
    (d.sendTopicUpdate topic time).updates = d.updates ++ [d.topicUpdate topic time] := by
  refine (updates_record _ _).trans (congrArg (· ++ _) ?_)
  exact updates_flushBinary _ _

/-! ### What each of them leaves alone -/

@[simp]
theorem toClientInfo_record (d : ClientData) (e : ClientEvent) :
    (d.record e).toClientInfo = d.toClientInfo :=
  rfl

@[simp]
theorem topicData_record (d : ClientData) (e : ClientEvent) :
    (d.record e).topicData = d.topicData :=
  rfl

@[simp]
theorem textCache_record (d : ClientData) (e : ClientEvent) :
    (d.record e).textCache = d.textCache :=
  rfl

@[simp]
theorem binaryCache_record (d : ClientData) (e : ClientEvent) :
    (d.record e).binaryCache = d.binaryCache :=
  rfl

@[simp]
theorem nextTopicIdAssigned_record (d : ClientData) (e : ClientEvent) :
    (d.record e).nextTopicIdAssigned = d.nextTopicIdAssigned :=
  rfl

@[simp]
theorem toClientInfo_flushText (d : ClientData) (n : ℕ) :
    (d.flushText n).toClientInfo = d.toClientInfo := by
  unfold flushText
  split <;> rfl

@[simp]
theorem topicData_flushText (d : ClientData) (n : ℕ) : (d.flushText n).topicData = d.topicData := by
  unfold flushText
  split <;> rfl

@[simp]
theorem nextTopicIdAssigned_flushText (d : ClientData) (n : ℕ) :
    (d.flushText n).nextTopicIdAssigned = d.nextTopicIdAssigned := by
  unfold flushText
  split <;> rfl

@[simp]
theorem toClientInfo_flushBinary (d : ClientData) (n : ℕ) :
    (d.flushBinary n).toClientInfo = d.toClientInfo := by
  unfold flushBinary
  split <;> rfl

@[simp]
theorem topicData_flushBinary (d : ClientData) (n : ℕ) :
    (d.flushBinary n).topicData = d.topicData := by
  unfold flushBinary
  split <;> rfl

@[simp]
theorem nextTopicIdAssigned_flushBinary (d : ClientData) (n : ℕ) :
    (d.flushBinary n).nextTopicIdAssigned = d.nextTopicIdAssigned := by
  unfold flushBinary
  split <;> rfl

@[simp]
theorem toClientInfo_appendText (d : ClientData) (m : TextMessage) :
    (d.appendText m).toClientInfo = d.toClientInfo :=
  toClientInfo_flushText d _

@[simp]
theorem topicData_appendText (d : ClientData) (m : TextMessage) :
    (d.appendText m).topicData = d.topicData :=
  topicData_flushText d _

@[simp]
theorem nextTopicIdAssigned_appendText (d : ClientData) (m : TextMessage) :
    (d.appendText m).nextTopicIdAssigned = d.nextTopicIdAssigned :=
  nextTopicIdAssigned_flushText d _

/-- A topic that has an entry keeps it. -/
theorem assignId_of_mem {d : ClientData} {name : Str} (h : name ∈ d.topicData) :
    d.assignId name = d := by
  obtain ⟨t, ht⟩ := AList.exists_lookup_of_mem h
  rw [assignId, ht]

theorem assignId_of_not_mem {d : ClientData} {name : Str} (h : name ∉ d.topicData) :
    d.assignId name =
      { d with
        topicData := d.topicData.insert name { id := d.nextTopicIdAssigned }
        nextTopicIdAssigned := d.nextTopicIdAssigned + 1 } := by
  rw [assignId, AList.lookup_eq_none.2 h]

/-- Nothing but the entry of this name is added. -/
theorem mem_assignId {d : ClientData} {name name' : Str} :
    name' ∈ (d.assignId name).topicData ↔ name' ∈ d.topicData ∨ name' = name := by
  by_cases hname : name ∈ d.topicData
  · rw [assignId_of_mem hname, or_iff_left_of_imp]
    rintro rfl
    exact hname
  · rw [assignId_of_not_mem hname]
    exact (AList.mem_insert _).trans or_comm

/-- An entry stays as it is when another topic is numbered, and when the topic has a number. -/
theorem lookup_assignId {d : ClientData} {name name' : Str} {data : ClientTopicData}
    (h : d.topicData.lookup name' = some data) :
    (d.assignId name).topicData.lookup name' = some data := by
  by_cases hname : name ∈ d.topicData
  · rwa [assignId_of_mem hname]
  · rw [assignId_of_not_mem hname]
    refine (AList.lookup_insert_ne ?_).trans h
    rintro rfl
    exact hname (AList.mem_of_lookup h)

/-- The topic has the id under which it is announced. -/
theorem exists_lookup_assignId (d : ClientData) (name : Str) :
    ∃ data, (d.assignId name).topicData.lookup name = some data ∧
      data.id = (d.assignId name).topicId name := by
  obtain ⟨data, hdata⟩ := AList.exists_lookup_of_mem (mem_assignId (d := d).2 (.inr rfl))
  exact ⟨data, hdata, by rw [topicId, hdata]; rfl⟩

@[simp]
theorem toClientInfo_assignId (d : ClientData) (name : Str) :
    (d.assignId name).toClientInfo = d.toClientInfo := by
  unfold assignId
  split <;> rfl

@[simp]
theorem history_assignId (d : ClientData) (name : Str) : (d.assignId name).history = d.history := by
  unfold assignId
  split <;> rfl

/-- The text cache does not depend on the numbers of topics. -/
theorem history_flushText_assignId (d : ClientData) (name : Str) (n : ℕ) :
    ((d.assignId name).flushText n).history = (d.flushText n).history := by
  by_cases hname : name ∈ d.topicData
  · rw [assignId_of_mem hname]
  · rw [assignId_of_not_mem hname]
    unfold flushText
    split <;> rfl

/-- A topic that the client knows is not announced again. -/
theorem announceTopic_of_mem {d : ClientData} {topic : Topic} (h : topic.name ∈ d.topicData) :
    d.announceTopic topic = d := by
  obtain ⟨t, ht⟩ := AList.exists_lookup_of_mem h
  rw [announceTopic, ht]

/-- A new one gets the next id, and the message carries that id. -/
theorem announceTopic_of_not_mem {d : ClientData} {topic : Topic}
    (h : topic.name ∉ d.topicData) :
    d.announceTopic topic = (d.assignId topic.name).appendText (.announce topic.name
      ((d.assignId topic.name).topicId topic.name) topic.value.type none topic.properties) := by
  rw [announceTopic, AList.lookup_eq_none.2 h]

@[simp]
theorem toClientInfo_announceTopic (d : ClientData) (topic : Topic) :
    (d.announceTopic topic).toClientInfo = d.toClientInfo := by
  unfold announceTopic
  split <;> simp

@[simp]
theorem toClientInfo_announceTopicToPublisher (d : ClientData) (topic : Topic) (pubuid : Int32) :
    (d.announceTopicToPublisher topic pubuid).toClientInfo = d.toClientInfo := by
  simp [announceTopicToPublisher]

@[simp]
theorem toClientInfo_sendPropertyUpdate (d : ClientData) (topic : Topic) (ack : Bool) :
    (d.sendPropertyUpdate topic ack).toClientInfo = d.toClientInfo :=
  toClientInfo_appendText d _

@[simp]
theorem topicData_sendPropertyUpdate (d : ClientData) (topic : Topic) (ack : Bool) :
    (d.sendPropertyUpdate topic ack).topicData = d.topicData :=
  topicData_appendText d _

@[simp]
theorem nextTopicIdAssigned_sendPropertyUpdate (d : ClientData) (topic : Topic) (ack : Bool) :
    (d.sendPropertyUpdate topic ack).nextTopicIdAssigned = d.nextTopicIdAssigned :=
  nextTopicIdAssigned_appendText d _

/-- Both announcements give the client an entry for the topic, if it has none. -/
theorem topicData_announceTopic (d : ClientData) (topic : Topic) :
    (d.announceTopic topic).topicData = (d.assignId topic.name).topicData ∧
      (d.announceTopic topic).nextTopicIdAssigned =
        (d.assignId topic.name).nextTopicIdAssigned := by
  by_cases h : topic.name ∈ d.topicData
  · rw [announceTopic_of_mem h, assignId_of_mem h]
    exact ⟨rfl, rfl⟩
  · rw [announceTopic_of_not_mem h]
    simp

@[simp]
theorem topicData_announceTopicToPublisher (d : ClientData) (topic : Topic) (pubuid : Int32) :
    (d.announceTopicToPublisher topic pubuid).topicData = (d.assignId topic.name).topicData :=
  topicData_appendText _ _

@[simp]
theorem nextTopicIdAssigned_announceTopicToPublisher (d : ClientData) (topic : Topic)
    (pubuid : Int32) : (d.announceTopicToPublisher topic pubuid).nextTopicIdAssigned =
      (d.assignId topic.name).nextTopicIdAssigned :=
  nextTopicIdAssigned_appendText _ _

section Send

variable [FloatCodec]

@[simp]
theorem toClientInfo_sendTopicUpdate (d : ClientData) (topic : Topic) (time : UInt64) :
    (d.sendTopicUpdate topic time).toClientInfo = d.toClientInfo :=
  toClientInfo_flushBinary _ _

/-- The entry is written with the subscript operator: it comes into being if there was none, and the
value counts as sent from then on. -/
@[simp]
theorem topicData_sendTopicUpdate (d : ClientData) (topic : Topic) (time : UInt64) :
    (d.sendTopicUpdate topic time).topicData =
      d.topicData.insert topic.name { id := d.topicId topic.name, initialPublish := true } :=
  topicData_flushBinary _ _

@[simp]
theorem nextTopicIdAssigned_sendTopicUpdate (d : ClientData) (topic : Topic) (time : UInt64) :
    (d.sendTopicUpdate topic time).nextTopicIdAssigned = d.nextTopicIdAssigned :=
  nextTopicIdAssigned_flushBinary _ _

end Send

/-- The local client gets an id and no message. -/
@[simp]
theorem fst_announceTopicSelfSync (d : ClientData) (topic : Topic) :
    (d.announceTopicSelfSync topic).1 = d.assignId topic.name :=
  rfl

end ClientData

end NetworkTables
