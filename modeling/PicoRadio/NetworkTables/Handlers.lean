import PicoRadio.NetworkTables.MetaTopics

/-!
# The events of the server

What the server does on each event: a connection made or lost, a text or binary frame received, a
call of the local interface. An event is handled to its end before the next one begins; the events
of a run are folded with `step`, each in its own environment.

A frame is given by the messages in it, in order. `xSemaphoreTake` on a mutex that is not free times
out, since no other event can give it back meanwhile; the handler then returns.
-/

namespace NetworkTables

/-! ### Messages -/

/-- A message of a text frame, as its handler has read it. -/
inductive ClientMessage
  | subscribe (topics : List Str) (subuid : Int32) (options : SubscriptionOptions)
  | publish (name : Str) (pubuid : Int32) (type : NTDataType) (properties : TopicProperties)
  | unsubscribe (subuid : Int32)
  | unpublish (pubuid : Int32)
  /-- Each property is absent unless the update sets it to a boolean. -/
  | setproperties (name : Str) (persistent retained cached : Option Bool)
  /-- Any other method. -/
  | unknown
  deriving DecidableEq

/-- An array of four in a binary frame, as its handler has read it. -/
structure BinaryMessage where
  id : Int64
  timestamp : UInt64
  type : UInt8
  data : NTDataValue
  deriving DecidableEq

/-- What can happen to the server. -/
inductive Event
  /-- A connection is registered and its `clientConnected` handler runs. -/
  | connect (entry : ClientEntry)
  /-- The `clientDisconnected` handler runs. -/
  | disconnect (guid : Guid)
  /-- A connection is removed from the list of the WebSocket server. -/
  | removeConnection (guid : Guid)
  | text (guid : Guid) (messages : List ClientMessage)
  | binary (guid : Guid) (messages : List BinaryMessage)
  | subscribe (topics : List Str) (subuid : Int32) (options : SubscriptionOptions)
  | unsubscribe (subuid : Int32)
  | publish (name : Str) (pubuid : Int32) (type : NTDataType) (properties : TopicProperties)
  | unpublish (pubuid : Int32)
  | setProperties (name : Str) (update : TopicProperties)
  /-- `time` is absent when the server's time is used. -/
  | updateTopic (id : Int32) (value : NTDataValue) (time : Option UInt64)
  | flush
  deriving DecidableEq

namespace Instance

/-- Change what the client behind `clients[guid]` subscribes to or publishes. -/
def setSubscriptions (st : Instance) (guid : Guid) (d : ClientData)
    (subscriptions : AList fun _ : Int32 ↦ Option Subscription) : Instance :=
  st.setClient guid { d with subscriptions }

@[inherit_doc setSubscriptions]
def setPublishers (st : Instance) (guid : Guid) (d : ClientData)
    (publishers : AList fun _ : Int32 ↦ Option Publisher) : Instance :=
  st.setClient guid { d with publishers }

/-- Run a handler with the mutex taken and give it back; without the mutex it does nothing. -/
def withMutex (st : Instance) (handler : Instance → Except Fault Instance) :
    Except Fault Instance :=
  if st.mutexFree then do
    let st ← handler { st with mutexFree := false }
    .ok { st with mutexFree := true }
  else .ok st

end Instance

section Handlers

variable [FloatCodec]

/-! ### Text frames -/

/-- The loop of Subscribe and UnSubscribe over the topics: refresh the list of subscribers of
every topic the subscription matches, except of meta topics. -/
def updateTopicSubMetaTopics (env : Env) (st : Instance) (sub : Subscription) :
    Except Fault Instance :=
  (env.names.keys st.topics).foldlM (fun st name ↦
    if !name.isMeta && sub.isSubscribed name then updateTopicSubMetaTopic env st name
    else .ok st) st

/-- The Subscribe case, with the mutex taken. -/
def handleSubscribe (env : Env) (guid : Guid) (topics : List Str) (subuid : Int32)
    (options : SubscriptionOptions) (st : Instance) : Except Fault Instance := do
  let d ← st.client guid .nullDeref
  -- a new subscription, or the three fields of the old one overwritten
  let sub : Subscription := ⟨subuid, topics, options⟩
  let st := st.setSubscriptions guid d (d.subscriptions.insert subuid (some sub))
  let st ← updateClientSubMetaTopic env st guid
  let st ← updateTopicSubMetaTopics env st sub
  announceCachedTopics env st guid

/-- The Publish case: a topic that is new is published, else only the publisher is answered. The
result of `publishTopic` is not read. -/
def publishOrAnswer (env : Env) (guid : Guid) (name : Str) (pubuid : Int32) (type : NTDataType)
    (properties : TopicProperties) (st : Instance) : Except Fault Instance :=
  match st.topics.lookup name with
  | none => Prod.fst <$> publishTopicToPublisher env st name { type } guid pubuid properties
  | some none => .error .nullDeref
  | some (some topic) => do
    let d ← st.client guid .clientNull
    .ok (st.setClient guid (d.announceTopicToPublisher topic.1 pubuid))

/-- The Publish case, with the mutex taken. -/
def handlePublish (env : Env) (guid : Guid) (name : Str) (pubuid : Int32) (type : NTDataType)
    (properties : TopicProperties) (st : Instance) : Except Fault Instance := do
  let d ← st.client guid .nullDeref
  let st := st.setPublishers guid d (d.publishers.insert pubuid (some ⟨pubuid, name⟩))
  let st ← publishOrAnswer env guid name pubuid type properties st
  let st ← updateClientPubMetaTopic env st guid
  updateTopicPubMetaTopic env st name

/-- The UnSubscribe case, with the mutex taken. -/
def handleUnsubscribe (env : Env) (guid : Guid) (subuid : Int32) (st : Instance) :
    Except Fault Instance := do
  let d ← st.client guid .nullDeref
  match d.subscriptions.lookup subuid with
  | some (some sub) =>
    let st := st.setSubscriptions guid d (d.subscriptions.erase subuid)
    let st ← updateClientSubMetaTopic env st guid
    updateTopicSubMetaTopics env st sub
  -- the subscript operator has inserted a null pointer for an unknown uid
  | _ => .ok (st.setSubscriptions guid d (d.subscriptions.subscript subuid none))

/-- The UnPublish case, with the mutex taken. -/
def handleUnpublish (env : Env) (guid : Guid) (pubuid : Int32) (st : Instance) :
    Except Fault Instance := do
  let d ← st.client guid .nullDeref
  match d.publishers.lookup pubuid with
  | some (some pub) =>
    let st := st.setPublishers guid d (d.publishers.erase pubuid)
    let st ← updateClientPubMetaTopic env st guid
    updateTopicPubMetaTopic env st pub.topic
  | _ => .ok (st.setPublishers guid d (d.publishers.subscript pubuid none))

/-- The SetProperties case, with the mutex taken. -/
def handleSetProperties (env : Env) (guid : Guid) (name : Str)
    (persistent retained cached : Option Bool) (st : Instance) : Except Fault Instance :=
  match st.topics.lookup name with
  | some (some t) =>
    let old := t.1.properties
    let t := t.setProperties
      ⟨persistent.getD old.persistent, retained.getD old.retained, cached.getD old.cached⟩
    updateTopicProperties env (st.setTopic name t) t.1 (some guid)
  | some none => .ok st
  | none => .ok (st.insertNullTopic name)

/-- What one message does, with the mutex taken. -/
def handleMessage (env : Env) (guid : Guid) (message : ClientMessage) :
    Instance → Except Fault Instance :=
  match message with
  | .subscribe topics subuid options => handleSubscribe env guid topics subuid options
  | .publish name pubuid type properties => handlePublish env guid name pubuid type properties
  | .unsubscribe subuid => handleUnsubscribe env guid subuid
  | .unpublish pubuid => handleUnpublish env guid pubuid
  | .setproperties name persistent retained cached =>
    handleSetProperties env guid name persistent retained cached
  | .unknown => .ok

/-- What the end of a text frame does, with the mutex taken. -/
def handleTextEnd (env : Env) (guid : Guid) (st : Instance) : Except Fault Instance := do
  let st ← flushText env st
  let st ← publishInitialValues env st guid
  flushBinary env st

/-- The message loop of the text case. A message that cannot take the mutex returns from the whole
function; a message of an unknown method does not try. -/
def handleMessages (env : Env) (guid : Guid) : List ClientMessage → Instance →
    Except Fault Instance
  | [], st => st.withMutex (handleTextEnd env guid)
  | .unknown :: messages, st => handleMessages env guid messages st
  | message :: messages, st =>
    if st.mutexFree then do
      let st ← st.withMutex (handleMessage env guid message)
      handleMessages env guid messages st
    else .ok st

/-- The text case of `_handleFrame`. -/
def handleText (env : Env) (guid : Guid) (messages : List ClientMessage) (st : Instance) :
    Except Fault Instance :=
  if guid ∈ st.clients then handleMessages env guid messages st else .ok st

/-! ### Binary frames -/

/-- The answer to a round-trip measurement. -/
def rttReply (env : Env) (st : Instance) (m : BinaryMessage) : Bytes :=
  Msgpack.packArrayHeader 4 ++ Msgpack.packInt64 m.id ++
    Msgpack.packUInt64 (getServerTime env st) ++ Msgpack.packUInt8 m.type ++ m.data.pack

/-- Look the topic of a publisher up with the subscript operator, and change and send it if it is
there. -/
def updatePublished (env : Env) (pub : Publisher) (value : NTDataValue) (time : Instance → UInt64)
    (st : Instance) : Except Fault Instance :=
  match st.topics.lookup pub.topic with
  | some (some t) =>
    if value.isValid then
      let t := t.setValue (t.1.value.assign value)
      let st := st.setTopic pub.topic t
      Prod.fst <$> sendTopicUpdate env st t.1 (time st)
    else .error .invalidValue
  | some none => .ok st
  | none => .ok (st.insertNullTopic pub.topic)

/-- The value of a client: look the publisher up with the subscript operator. -/
def updateOf (env : Env) (guid : Guid) (d : ClientData) (m : BinaryMessage) (st : Instance) :
    Except Fault Instance :=
  match d.publishers.lookup m.id.toInt32 with
  | some (some pub) => updatePublished env pub m.data (getServerTime env) st
  | _ => .ok (st.setPublishers guid d (d.publishers.subscript m.id.toInt32 none))

/-- What a value update of a known client does, with the mutex taken. -/
def handleValue (env : Env) (guid : Guid) (m : BinaryMessage) (st : Instance) :
    Except Fault Instance := do
  let d ← st.client guid .nullDeref
  let st ← updateOf env guid d m st
  flushBinary env st

/-- The message loop of the binary case. A measurement is answered without the mutex. A value from
a guid that is no client leaves the `switch` with the mutex taken. -/
def handleBinary (env : Env) (guid : Guid) : List BinaryMessage → Instance →
    Except Fault Instance
  | [], st => .ok st
  | m :: messages, st =>
    if m.id = -1 then
      handleBinary env guid messages
        { st with rttReplies := st.rttReplies ++ [(guid, rttReply env st m)] }
    else if st.mutexFree then
      if guid ∈ st.clients then do
        let st ← st.withMutex (handleValue env guid m)
        handleBinary env guid messages st
      else handleBinary env guid messages { st with mutexFree := false }
    else .ok st

/-! ### Connections -/

/-- `NT_RTT_PROTOCOL`. -/
def NT_RTT_PROTOCOL : Str := ascii "rtt.networktables.first.wpi.edu"

/-- `find` of a string: the first position it occurs at. -/
def findStr (pattern : Str) : Str → Option ℕ
  | [] => if pattern = [] then some 0 else none
  | c :: s => if Str.startsWith (c :: s) pattern then some 0 else (findStr pattern s).map (· + 1)

/-- The result of `std::from_chars` for a `size_t`. -/
inductive FromChars
  | value (n : UInt32)
  | invalidArgument
  | outOfRange

/-- `std::from_chars` for a `size_t`: the longest run of digits. -/
def fromChars (s : Str) : FromChars :=
  let digits := s.takeWhile fun c ↦ 0x30 ≤ c ∧ c ≤ 0x39
  let n : ℕ := digits.foldl (fun n c ↦ 10 * n + (c.toNat - 0x30)) 0
  if digits = [] then .invalidArgument
  else if n < 2 ^ 32 then .value n.toUInt32
  else .outOfRange

/-- `nextClientWithName`. Out of range leaves the local as it was. -/
def nextClientWithName (env : Env) (st : Instance) (name : Str) : Except Fault UInt32 :=
  (env.guids.keys st.clients).foldlM (fun num guid ↦
    if st.isSelf guid then .ok num
    else do
      let d ← st.client guid .nullDeref
      if d.name.startsWith name && d.name.findIdx? (· = '@'.toNat.toUInt8) = some name.length then
        match fromChars (d.name.drop (name.length + 1)) with
        | .value i => .ok (max num (i + 1))
        | .outOfRange => .ok (max num (env.uninit guid + 1))
        | .invalidArgument => .ok num
      else .ok num) 1

/-- The name a client asks for: the path after `/nt/`. A path without it is cut at
`npos + 4 = 3`, and `substr` throws if it is shorter. -/
def requestedName (path : Str) : Except Fault Str :=
  let nameStart := match findStr (ascii "/nt/") path with
    | some i => i + 4
    | none => 3
  if nameStart ≤ path.length then .ok (path.drop nameStart) else .error .outOfRange

omit [FloatCodec] in
theorem requestedName_error {path : Str} {e : Fault} (h : requestedName path = .error e) :
    e = .outOfRange := by
  simp only [requestedName] at h
  split_ifs at h
  exact (Except.error.inj h).symm

/-- The `clientConnected` handler with the mutex taken. -/
def handleConnect (env : Env) (entry : ClientEntry) (name : Str) (st : Instance) :
    Except Fault Instance := do
  let num ← nextClientWithName env st name
  let d : ClientData :=
    { guid := entry.guid, name := name ++ ascii "@" ++ decimal num.toNat }
  let st := st.insertClient entry.guid d
  let r ← publishMetaTopic env st (clientSubName d.name)
  let r ← publishMetaTopic env r.1 (clientPubName d.name)
  let st ← updateClientsMetaTopic env r.1
  let st ← updateClientSubMetaTopic env st entry.guid
  let st ← updateClientPubMetaTopic env st entry.guid
  let d ← st.client entry.guid .nullDeref
  let st := st.setClient entry.guid (d.flushText MAX_CLIENT_TEXT_CACHE_LENGTH)
  let st ← publishInitialValues env st entry.guid
  let d ← st.client entry.guid .nullDeref
  .ok (st.setClient entry.guid (d.flushBinary MAX_CLIENT_BINARY_CACHE_LENGTH))

/-- The `clientConnected` handler. The name is cut out of the path before the mutex is taken. -/
def clientConnected (env : Env) (entry : ClientEntry) (st : Instance) : Except Fault Instance := do
  let st := { st with serverClients := st.serverClients ++ [entry] }
  if entry.serverProtocol = NT_RTT_PROTOCOL then .ok st
  else do
    let name ← requestedName entry.requestedPath
    st.withMutex (handleConnect env entry name)

/-- The `clientDisconnected` handler with the mutex taken. -/
def handleDisconnect (env : Env) (guid : Guid) (st : Instance) : Except Fault Instance :=
  match st.clients.lookup guid with
  | some .null | none => .error .nullDeref
  | some .self => .error .localDelete
  | some (.remote _) => do
    let st ← updateClientsMetaTopic env (st.eraseClient guid)
    flushBinary env st

/-- The `clientDisconnected` handler. A guid that is no client returns with the mutex taken. -/
def clientDisconnected (env : Env) (guid : Guid) (st : Instance) : Except Fault Instance :=
  if st.mutexFree then
    if guid ∈ st.clients then st.withMutex (handleDisconnect env guid)
    else .ok { st with mutexFree := false }
  else .ok st

/-! ### The local interface -/

/-- `subscribe`, with the mutex taken. -/
def localSubscribe (env : Env) (topics : List Str) (subuid : Int32) (options : SubscriptionOptions)
    (st : Instance) : Except Fault Instance := do
  let st := { st with thisClient := { st.thisClient with
    subscriptions := st.thisClient.subscriptions.insert subuid (some ⟨subuid, topics, options⟩) } }
  let st ← updateServerSubMetaTopic env st
  let st ← announceCachedTopicsSelf env st
  publishInitialValuesSelf env st

/-- `unsubscribe`, with the mutex taken. -/
def localUnsubscribe (env : Env) (subuid : Int32) (st : Instance) : Except Fault Instance :=
  match st.thisClient.subscriptions.lookup subuid with
  | some (some _) =>
    updateServerSubMetaTopic env { st with thisClient := { st.thisClient with
      subscriptions := st.thisClient.subscriptions.erase subuid } }
  | _ => .ok { st with thisClient := { st.thisClient with
      subscriptions := st.thisClient.subscriptions.subscript subuid none } }

/-- The topic a local publication returns: a new one is published, another has an id assigned. -/
def publishOrLookUp (env : Env) (name : Str) (type : NTDataType) (properties : TopicProperties)
    (st : Instance) : Except Fault (Instance × AnnouncedTopic) :=
  match st.topics.lookup name with
  | none => publishTopicSelfSync env st name { type } properties
  | some none => .error .nullDeref
  | some (some topic) =>
    let r := st.thisClient.announceTopicSelfSync topic.1
    .ok ({ st with thisClient := r.1 }, r.2)

/-- `publish`, with the mutex taken, and the topic it returns. -/
def localPublish (env : Env) (name : Str) (pubuid : Int32) (type : NTDataType)
    (properties : TopicProperties) (st : Instance) :
    Except Fault (Instance × AnnouncedTopic) := do
  let st := { st with thisClient := { st.thisClient with
    publishers := st.thisClient.publishers.insert pubuid (some ⟨pubuid, name⟩) } }
  let r ← publishOrLookUp env name type properties st
  let st ← updateServerPubMetaTopic env r.1
  .ok (st, r.2)

/-- `unpublish`, with the mutex taken. -/
def localUnpublish (env : Env) (pubuid : Int32) (st : Instance) : Except Fault Instance :=
  match st.thisClient.publishers.lookup pubuid with
  | some (some _) =>
    updateServerPubMetaTopic env { st with thisClient := { st.thisClient with
      publishers := st.thisClient.publishers.erase pubuid } }
  | _ => .ok { st with thisClient := { st.thisClient with
      publishers := st.thisClient.publishers.subscript pubuid none } }

/-- `setProperties`, with the mutex taken. -/
def localSetProperties (env : Env) (name : Str) (update : TopicProperties) (st : Instance) :
    Except Fault Instance :=
  match st.topics.lookup name with
  | some (some t) =>
    let t := t.setProperties update
    updateTopicProperties env (st.setTopic name t) t.1 none
  | some none => .ok st
  | none => .ok (st.insertNullTopic name)

/-- `updateTopic`, with the mutex taken. -/
def localUpdateTopic (env : Env) (id : Int32) (value : NTDataValue) (time : UInt64)
    (st : Instance) : Except Fault Instance :=
  match st.thisClient.publishers.lookup id with
  | some (some pub) => updatePublished env pub value (fun _ ↦ time) st
  | _ => .ok { st with thisClient := { st.thisClient with
      publishers := st.thisClient.publishers.subscript id none } }

/-! ### Runs -/

/-- One event. -/
def step (st : Instance) (e : Env × Event) : Except Fault Instance :=
  let env := e.1
  match e.2 with
  | .connect entry => clientConnected env entry st
  | .disconnect guid => clientDisconnected env guid st
  | .removeConnection guid =>
    .ok { st with serverClients := st.serverClients.filter (·.guid ≠ guid) }
  | .text guid messages => handleText env guid messages st
  | .binary guid messages => handleBinary env guid messages st
  | .subscribe topics subuid options => st.withMutex (localSubscribe env topics subuid options)
  | .unsubscribe subuid => st.withMutex (localUnsubscribe env subuid)
  | .publish name pubuid type properties =>
    st.withMutex fun st ↦ Prod.fst <$> localPublish env name pubuid type properties st
  | .unpublish pubuid => st.withMutex (localUnpublish env pubuid)
  | .setProperties name update => st.withMutex (localSetProperties env name update)
  | .updateTopic id value time =>
    -- without a time the server's is read before the mutex is taken
    st.withMutex (localUpdateTopic env id value (time.getD (getServerTime env st)))
  | .flush => st.withMutex (flushBinary env)

/-- The local client of a new server. -/
def fakeServer : ClientData where
  guid := 0
  name := ascii "fake_server"

/-- The state before `startServer`: no topics, and the local client alone. -/
def Instance.initial : Instance where
  thisClient := fakeServer
  clients := AList.insert fakeServer.guid ClientPtr.self ∅

/-- `startServer`. -/
def startServer (env : Env) : Except Fault Instance := do
  let r ← publishMetaTopic env Instance.initial clientsName
  let r ← publishMetaTopic env r.1 serverSubName
  let r ← publishMetaTopic env r.1 serverPubName
  let st ← updateClientsMetaTopic env r.1
  let st ← updateServerSubMetaTopic env st
  let st ← updateServerPubMetaTopic env st
  let st ← flushText env st
  flushBinary env st

/-- A run of the server: start it, then handle the events. -/
def run (start : Env) (events : List (Env × Event)) : Except Fault Instance := do
  let st ← startServer start
  events.foldlM step st

theorem run_singleton {start : Env} {e : Env × Event} {st s : Instance}
    (hst : startServer start = .ok st) (hs : step st e = .ok s) : run start [e] = .ok s := by
  rw [run, hst]
  show (step st e >>= pure) = _
  rw [hs]
  rfl

/-- A run with one event more. -/
theorem run_concat {start : Env} {events : List (Env × Event)} {e : Env × Event} {st s : Instance}
    (hst : run start events = .ok st) (hs : step st e = .ok s) :
    run start (events ++ [e]) = .ok s := by
  have hrun : run start (events ++ [e]) = run start events >>= (List.foldlM step · [e]) := by
    rw [run, run, bind_assoc]
    exact congrArg _ (funext fun _ ↦ List.foldlM_append)
  rw [hrun, hst]
  show (step st e >>= pure) = _
  rw [hs]
  rfl

end Handlers

/-- A connection for the examples: a client asks for a name. -/
def ClientEntry.sample (guid : Guid) (name : String) : ClientEntry where
  guid := guid
  requestedPath := ascii "/nt/" ++ ascii name
  serverProtocol := ascii "v4.1.networktables.first.wpi.edu"
  host := ascii "10.0.0.2"
  port := 5810

end NetworkTables
