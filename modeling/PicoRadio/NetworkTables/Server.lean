import PicoRadio.Library.Ends
import PicoRadio.NetworkTables.Client

/-!
# The server's state and its broadcasts

`NetworkTableInstance` in server mode: the topics, the clients, the local client `thisClient`, the
mutex, and the list of connections of the WebSocket server. The map of clients holds pointers; the
pointer to `thisClient` is told apart from the pointer to the data of a connection, and a null
pointer is a value too, since the source's subscript operators can put one into any of its maps.

The functions here tell clients things: they announce topics, send properties and values and flush
caches. None of them touches the topics, the subscriptions or the publishers.

A program of the source that fails an assertion or follows a null pointer ends in a `Fault`.

Traversals of the maps, the clock and the callbacks set by the user are the environment `Env`. An
environment may change from one event to the next, and the clock and the callbacks may depend on
the whole state, so no two readings or calls need agree.
-/

namespace NetworkTables

/-- How a program of the source can go wrong. -/
inductive Fault
  /-- A null pointer is followed. -/
  | nullDeref
  /-- `assert(client != nullptr)` fails. -/
  | clientNull
  /-- `assert(t != nullptr)` fails on the meta topic of this name. -/
  | metaTopicNull (name : Str)
  /-- `assert(other.isValid())` fails. -/
  | invalidValue
  /-- `substr` throws. -/
  | outOfRange
  /-- `delete` on the address of `thisClient`, which is no heap object. -/
  | localDelete
  deriving DecidableEq

/-- A topic with the name it is filed under. -/
abbrev TopicAt (name : Str) :=
  { topic : Topic // topic.name = name }

namespace TopicAt

variable {name : Str}

/-- The topic with another value. -/
def setValue (t : TopicAt name) (value : NTDataValue) : TopicAt name :=
  ⟨{ t.1 with value }, t.2⟩

/-- The topic with other properties. -/
def setProperties (t : TopicAt name) (properties : TopicProperties) : TopicAt name :=
  ⟨{ t.1 with properties }, t.2⟩

end TopicAt

/-- A pointer in the map of clients. -/
inductive ClientPtr
  | null
  /-- The address of `thisClient`. -/
  | self
  | remote (data : ClientData)
  deriving DecidableEq

/-- A connection of the WebSocket server: its guid and its socket address. RTT connections have
an entry here and none in the map of clients. -/
structure ClientEntry where
  guid : Guid
  requestedPath : Str
  serverProtocol : Str
  host : Str
  port : UInt16
  deriving DecidableEq

structure Instance where
  topics : AList fun name : Str ↦ Option (TopicAt name) := ∅
  clients : AList fun _ : Guid ↦ ClientPtr := ∅
  thisClient : ClientData
  /-- Whether `stateMutex` is free. -/
  mutexFree : Bool := true
  /-- `server->clients`. -/
  serverClients : List ClientEntry := []
  serverTimeOffset : Int64 := 0
  /-- The answers to round-trip measurements handed to `server->send`. -/
  rttReplies : List (Guid × Bytes) := []

/-- What the source leaves to the platform and to the user. -/
structure Env where
  /-- The traversal of the map of clients. -/
  guids : TraversalOrder Guid := .insertion Guid
  /-- The traversal of the maps keyed by topic names. -/
  names : TraversalOrder Str := .insertion Str
  /-- The traversal of the maps of subscriptions and publishers. -/
  uids : TraversalOrder Int32 := .insertion Int32
  /-- `get_absolute_time`. -/
  absoluteTime : Instance → UInt64 := fun _ ↦ 0
  topicAnnouncedCallback : Option (Instance → AnnouncedTopic → Bool) := none
  topicUpdateCallback : Option (Instance → ℤ → UInt64 → NTDataValue → Bool) := none
  /-- Whether `topicPropertiesUpdateCallback` is set; its result goes nowhere. -/
  topicPropertiesUpdateCallback : Bool := false
  /-- The content of the uninitialised local of `nextClientWithName`. -/
  uninit : Guid → UInt32 := fun _ ↦ 0

/-- `getServerTime`. -/
def getServerTime (env : Env) (st : Instance) : UInt64 :=
  if st.serverTimeOffset > 0 then env.absoluteTime st + st.serverTimeOffset.toUInt64
  else env.absoluteTime st - (-st.serverTimeOffset).toUInt64

namespace Instance

/-- Follow `clients[guid]`; `fault` is what happens on a null pointer. -/
def client (st : Instance) (guid : Guid) (fault : Fault) : Except Fault ClientData :=
  match st.clients.lookup guid with
  | some .self => .ok st.thisClient
  | some (.remote d) => .ok d
  | some .null | none => .error fault

/-- `isSelf(clients[guid])`. -/
def isSelf (st : Instance) (guid : Guid) : Bool :=
  st.clients.lookup guid = some .self

/-- Change the data behind the pointer `clients[guid]`. -/
def setClient (st : Instance) (guid : Guid) (d : ClientData) : Instance :=
  match st.clients.lookup guid with
  | some .self => { st with thisClient := d }
  | some (.remote _) => { st with clients := st.clients.insert guid (.remote d) }
  | some .null | none => st

/-- `clients[guid] = data`, the data of a new connection. -/
def insertClient (st : Instance) (guid : Guid) (d : ClientData) : Instance :=
  { st with clients := st.clients.insert guid (.remote d) }

/-- `clients.erase(guid)`. -/
def eraseClient (st : Instance) (guid : Guid) : Instance :=
  { st with clients := st.clients.erase guid }

/-- Change a topic. -/
def setTopic (st : Instance) (name : Str) (t : TopicAt name) : Instance :=
  { st with topics := st.topics.insert name (some t) }

/-- `topics[name]` for an absent name: a null pointer is inserted. -/
def insertNullTopic (st : Instance) (name : Str) : Instance :=
  { st with topics := st.topics.insert name none }

/-- A topic of this name exists. -/
def HasTopic (st : Instance) (name : Str) : Prop :=
  ∃ t, st.topics.lookup name = some (some t)

instance (st : Instance) (name : Str) : Decidable (st.HasTopic name) :=
  decidable_of_iff ((st.topics.lookup name).join.isSome = true)
    (by simp only [HasTopic, Option.isSome_iff_exists, Option.join_eq_some_iff])

/-- The data of a client with a connection. -/
def remote (st : Instance) (guid : Guid) : Option ClientData :=
  match st.clients.lookup guid with
  | some (.remote d) => some d
  | some .self | some .null | none => none

theorem remote_eq_some {st : Instance} {guid : Guid} {d : ClientData} :
    st.remote guid = some d ↔ st.clients.lookup guid = some (.remote d) := by
  rw [remote]
  split <;> simp_all

/-- The data behind the pointer `clients[guid]`. -/
def Behind (st : Instance) (guid : Guid) (d : ClientData) : Prop :=
  st.clients.lookup guid = some .self ∧ d = st.thisClient ∨
    st.clients.lookup guid = some (.remote d)

theorem client_ends (st : Instance) (guid : Guid) (fault : Fault) :
    Ends (st.client guid fault) (st.Behind guid) fun e ↦ e = fault ∧
      (st.clients.lookup guid = some .null ∨ st.clients.lookup guid = none) := by
  unfold client Behind
  split <;> simp_all

theorem Behind.client {st : Instance} {guid : Guid} {d : ClientData} (hd : st.Behind guid d)
    (fault : Fault) : st.client guid fault = .ok d := by
  rcases hd with ⟨hself, rfl⟩ | hd
  · rw [Instance.client, hself]
  · rw [Instance.client, hd]

theorem setClient_of_self {st : Instance} {guid : Guid}
    (h : st.clients.lookup guid = some .self) (d : ClientData) :
    st.setClient guid d = { st with thisClient := d } := by
  rw [setClient, h]

theorem setClient_of_remote {st : Instance} {guid : Guid} {d : ClientData}
    (h : st.clients.lookup guid = some (.remote d)) (d' : ClientData) :
    st.setClient guid d' = { st with clients := st.clients.insert guid (.remote d') } := by
  rw [setClient, h]

@[simp]
theorem topics_setClient (st : Instance) (guid : Guid) (d : ClientData) :
    (st.setClient guid d).topics = st.topics := by
  unfold setClient
  split <;> rfl

@[simp]
theorem topics_setTopic (st : Instance) (name : Str) (t : TopicAt name) :
    (st.setTopic name t).topics = st.topics.insert name (some t) :=
  rfl

@[simp]
theorem clients_setTopic (st : Instance) (name : Str) (t : TopicAt name) :
    (st.setTopic name t).clients = st.clients :=
  rfl

@[simp]
theorem thisClient_setTopic (st : Instance) (name : Str) (t : TopicAt name) :
    (st.setTopic name t).thisClient = st.thisClient :=
  rfl

/-- A change of a client's data that keeps its subscriptions keeps those of the local client. -/
theorem subscriptions_setClient {st : Instance} {guid : Guid} {d d' : ClientData}
    (hd : st.Behind guid d) (hsub : d'.subscriptions = d.subscriptions) :
    (st.setClient guid d').thisClient.subscriptions = st.thisClient.subscriptions := by
  rcases hd with ⟨hself, rfl⟩ | hd
  · rw [setClient_of_self hself, hsub]
  · rw [setClient_of_remote hd]

/-- Changing a topic does not change what is behind a pointer. -/
theorem Behind.setTopic {st : Instance} {guid : Guid} {d : ClientData} (hd : st.Behind guid d)
    (name : Str) (t : TopicAt name) : (st.setTopic name t).Behind guid d :=
  hd

/-- Changing a topic and changing a client do not interfere. -/
theorem setTopic_setClient (st : Instance) (guid : Guid) (d : ClientData) (name : Str)
    (t : TopicAt name) :
    (st.setClient guid d).setTopic name t = (st.setTopic name t).setClient guid d := by
  unfold setClient setTopic
  split <;> simp_all

end Instance

/-! ### Subscriptions -/

/-- `isSubscribed(subscription, name)`. -/
def Subscription.isSubscribed (sub : Subscription) (name : Str) : Bool :=
  sub.topics.any fun top ↦
    if sub.options.prefixMatch then
      if name.isMeta then top.isMeta && name.startsWith top
      else top.length == 0 || name.startsWith top
    else name == top

/-- The loops of `isSubscribed(subscriptions, name, requireNotTopicsOnly, out_subscription)` over
the subscriptions in the order they are visited. The test of a pattern is the source's second copy
of the one above. -/
def findSubscription (subscriptions : AList fun _ : Int32 ↦ Option Subscription) (name : Str)
    (requireNotTopicsOnly : Bool) : List Int32 → Except Fault (Option Subscription)
  | [] => .ok none
  | uid :: uids =>
    match subscriptions.lookup uid with
    | none => findSubscription subscriptions name requireNotTopicsOnly uids
    | some none => .error .nullDeref
    | some (some sub) =>
      if (!requireNotTopicsOnly || !sub.options.topicsonly) && sub.topics.any fun top ↦
          if sub.options.prefixMatch then
            if name.isMeta then top.isMeta && name.startsWith top
            else top.length == 0 || name.startsWith top
          else name == top then .ok (some sub)
      else findSubscription subscriptions name requireNotTopicsOnly uids

/-- `isSubscribed(subscriptions, name, requireNotTopicsOnly, out_subscription)`: the subscription
found, if any. -/
def isSubscribed (env : Env) (subscriptions : AList fun _ : Int32 ↦ Option Subscription)
    (name : Str) (requireNotTopicsOnly : Bool := false) : Except Fault (Option Subscription) :=
  findSubscription subscriptions name requireNotTopicsOnly (env.uids.keys subscriptions)

/-- Whether the loops of `isSubscribed` stop at this subscription. -/
def Subscription.covers (sub : Subscription) (name : Str) (requireNotTopicsOnly : Bool) : Bool :=
  (!requireNotTopicsOnly || !sub.options.topicsonly) && sub.isSubscribed name

/-- The search finds a subscription that covers the name if there is one among those visited, and
follows no null pointer if none is stored. -/
theorem findSubscription_ends (subscriptions : AList fun _ : Int32 ↦ Option Subscription)
    (name : Str) (requireNotTopicsOnly : Bool) (uids : List Int32) :
    Ends (findSubscription subscriptions name requireNotTopicsOnly uids)
      (fun r ↦ (∀ sub, r = some sub → (∃ uid ∈ uids, subscriptions.lookup uid = some (some sub)) ∧
          sub.covers name requireNotTopicsOnly) ∧
        (r = none → ∀ uid ∈ uids, ∀ sub, subscriptions.lookup uid = some (some sub) →
          ¬sub.covers name requireNotTopicsOnly))
      fun e ↦ e = .nullDeref ∧ ∃ uid, subscriptions.lookup uid = some none := by
  induction uids with
  | nil => simp [findSubscription]
  | cons uid uids ih =>
    unfold findSubscription
    cases h : subscriptions.lookup uid with
    | none =>
      refine ih.imp fun r hr ↦ ⟨fun sub hsub ↦ ?_, fun hnone uid' huid' sub hsub ↦ ?_⟩
      · obtain ⟨⟨uid', huid', hl⟩, hc⟩ := hr.1 sub hsub
        exact ⟨⟨uid', List.mem_cons_of_mem uid huid', hl⟩, hc⟩
      · rcases List.mem_cons.1 huid' with rfl | huid'
        · rw [h] at hsub
          cases hsub
        · exact hr.2 hnone uid' huid' sub hsub
    | some p =>
      cases p with
      | none => exact ⟨rfl, uid, h⟩
      | some sub =>
        -- the inlined test is the test of the other overload
        change Ends (if sub.covers name requireNotTopicsOnly then _ else _) _ _
        by_cases hc : sub.covers name requireNotTopicsOnly
        · rw [if_pos hc]
          refine ⟨fun sub' hsub' ↦ ?_, fun hnone ↦ by cases hnone⟩
          cases hsub'
          exact ⟨⟨uid, List.mem_cons_self, h⟩, hc⟩
        · rw [if_neg hc]
          refine ih.imp fun r hr ↦ ⟨fun sub' hsub' ↦ ?_, fun hnone uid' huid' sub' hsub' ↦ ?_⟩
          · obtain ⟨⟨uid', huid', hl⟩, hc'⟩ := hr.1 sub' hsub'
            exact ⟨⟨uid', List.mem_cons_of_mem uid huid', hl⟩, hc'⟩
          · rcases List.mem_cons.1 huid' with rfl | huid'
            · rw [h] at hsub'
              cases hsub'
              exact hc
            · exact hr.2 hnone uid' huid' sub' hsub'

theorem isSubscribed_ends (env : Env)
    (subscriptions : AList fun _ : Int32 ↦ Option Subscription) (name : Str)
    (requireNotTopicsOnly : Bool) :
    Ends (isSubscribed env subscriptions name requireNotTopicsOnly)
      (fun r ↦ (∀ sub, r = some sub → (∃ uid, subscriptions.lookup uid = some (some sub)) ∧
          sub.covers name requireNotTopicsOnly) ∧
        (r = none → ∀ uid sub, subscriptions.lookup uid = some (some sub) →
          ¬sub.covers name requireNotTopicsOnly))
      fun e ↦ e = .nullDeref ∧ ∃ uid, subscriptions.lookup uid = some none := by
  refine (findSubscription_ends subscriptions name requireNotTopicsOnly _).imp fun r hr ↦
    ⟨fun sub hsub ↦ ?_, fun hnone uid sub hsub ↦ ?_⟩
  · obtain ⟨⟨uid, -, hl⟩, hc⟩ := hr.1 sub hsub
    exact ⟨⟨uid, hl⟩, hc⟩
  · refine hr.2 hnone uid ?_ sub hsub
    rw [TraversalOrder.mem_keys, ← AList.lookup_isSome, hsub]
    rfl

/-! ### Announcements -/

/-- `announceTopicSelf`. -/
def announceTopicSelf (env : Env) (st : Instance) (topic : Topic) : Instance × Bool :=
  let r := st.thisClient.announceTopicSelfSync topic
  let st := { st with thisClient := r.1 }
  match env.topicAnnouncedCallback with
  | none => (st, true)
  | some callback =>
    ({ st with thisClient := st.thisClient.record (.announcedCallback r.2) }, callback st r.2)

/-- The body of the loop of `announceTopic(topic)`, with the flag `ok`. -/
def announceTopicBody (env : Env) (topic : Topic) (s : Instance × Bool) (guid : Guid) :
    Except Fault (Instance × Bool) := do
  let d ← s.1.client guid .clientNull
  let sub ← isSubscribed env d.subscriptions topic.name
  if sub.isNone then
    .ok s
  else if s.1.isSelf guid then
    let r := announceTopicSelf env s.1 topic
    .ok (r.1, s.2 && r.2)
  else
    .ok (s.1.setClient guid (d.announceTopic topic), s.2)

/-- `announceTopic(topic)`: announce to every subscriber. -/
def announceTopic (env : Env) (st : Instance) (topic : Topic) : Except Fault (Instance × Bool) :=
  (env.guids.keys st.clients).foldlM (announceTopicBody env topic) (st, true)

/-- The body of the loop of `announceTopic(topic, publisherGuid, pubuid)`. -/
def announceTopicToPublisherBody (env : Env) (topic : Topic) (publisherGuid : Guid)
    (pubuid : Int32) (s : Instance × Bool) (guid : Guid) : Except Fault (Instance × Bool) :=
  if guid = publisherGuid then do
    let d ← s.1.client guid .clientNull
    .ok (s.1.setClient guid (d.announceTopicToPublisher topic pubuid), s.2)
  else announceTopicBody env topic s guid

/-- `announceTopic(topic, publisherGuid, pubuid)`: the publisher is told whether it subscribes or
not. -/
def announceTopicToPublisher (env : Env) (publisherGuid : Guid) (pubuid : Int32) (st : Instance)
    (topic : Topic) : Except Fault (Instance × Bool) :=
  (env.guids.keys st.clients).foldlM (announceTopicToPublisherBody env topic publisherGuid pubuid)
    (st, true)

/-- `announceCachedTopicsSelf`. Nobody reads its result. -/
def announceCachedTopicsSelf (env : Env) (st : Instance) : Except Fault Instance :=
  (env.names.keys st.topics).foldlM (fun st name ↦
    match st.topics.lookup name with
    | none => .ok st
    | some none => .error .nullDeref
    | some (some topic) =>
      if topic.1.properties.cached then do
        let sub ← isSubscribed env st.thisClient.subscriptions topic.1.name
        .ok (if sub.isSome then (announceTopicSelf env st topic.1).1 else st)
      else .ok st) st

/-- `announceCachedTopics`. Nobody reads its result. -/
def announceCachedTopics (env : Env) (st : Instance) (guid : Guid) : Except Fault Instance := do
  let _ ← st.client guid .clientNull
  (env.names.keys st.topics).foldlM (fun st name ↦
    match st.topics.lookup name with
    | none => .ok st
    | some none => .error .nullDeref
    | some (some topic) =>
      if topic.1.properties.cached then do
        let d ← st.client guid .clientNull
        let sub ← isSubscribed env d.subscriptions topic.1.name
        .ok (if sub.isSome then st.setClient guid (d.announceTopic topic.1) else st)
      else .ok st) st

/-! ### Properties -/

/-- `sendPropertyUpdateSelf`. -/
def sendPropertyUpdateSelf (env : Env) (st : Instance) (topic : Topic) : Instance :=
  if env.topicPropertiesUpdateCallback then
    { st with
      thisClient := st.thisClient.record (.propertiesCallback topic.name topic.properties) }
  else st

/-- Both overloads of `updateTopicProperties`: the one with an updater acknowledges to it, and
does not assert that the pointers of the map are not null. Nobody reads their result. -/
def updateTopicProperties (env : Env) (st : Instance) (topic : Topic) (updaterGuid : Option Guid) :
    Except Fault Instance :=
  (env.guids.keys st.clients).foldlM (fun st guid ↦ do
    let d ← st.client guid (if updaterGuid.isSome then .nullDeref else .clientNull)
    let sub ← isSubscribed env d.subscriptions topic.name
    .ok (if sub.isNone then st
      else if st.isSelf guid then sendPropertyUpdateSelf env st topic
      else st.setClient guid (d.sendPropertyUpdate topic (updaterGuid = some guid)))) st

/-! ### Values -/

section Values

variable [FloatCodec]

/-- `sendTopicUpdateSelf`: the callback gets a value of the API type. -/
def sendTopicUpdateSelf (env : Env) (st : Instance) (topic : Topic) (time : UInt64) :
    Except Fault (Instance × Bool) :=
  match env.topicUpdateCallback with
  | none => .ok (st, true)
  | some callback =>
    let id := st.thisClient.topicId topic.name
    let st := { st with thisClient := { st.thisClient with
      topicData := st.thisClient.topicData.subscript topic.name {} } }
    if topic.value.isValid then
      let value := NTDataValue.assign { type := topic.value.getAPIType } topic.value
      .ok ({ st with thisClient := st.thisClient.record (.updateCallback id time value) },
        callback st id time value)
    else .error .invalidValue

/-- The condition of `sendTopicUpdate`: already published, or subscribed to more than the topic. -/
def receivesUpdate (env : Env) (d : ClientData) (name : Str) (t : ClientTopicData) :
    Except Fault Bool :=
  if t.initialPublish then .ok true
  else Option.isSome <$> isSubscribed env d.subscriptions name true

/-- The body of the loop of `sendTopicUpdate(topic, time)`, with its answer. -/
def sendTopicUpdateBody (env : Env) (topic : Topic) (time : UInt64) (st : Instance)
    (guid : Guid) : Except Fault (Instance × Bool) := do
  let d ← st.client guid .clientNull
  match d.topicData.lookup topic.name with
  | none => .ok (st, true)
  | some t =>
    let send ← receivesUpdate env d topic.name t
    if send then
      if st.isSelf guid then sendTopicUpdateSelf env st topic time
      else .ok (st.setClient guid (d.sendTopicUpdate topic time), true)
    else .ok (st, true)

/-- `sendTopicUpdate(topic, time)`: the loop returns as soon as one client's update fails. -/
def sendTopicUpdate (env : Env) (st : Instance) (topic : Topic) (time : UInt64) :
    Except Fault (Instance × Bool) :=
  foldUntil (sendTopicUpdateBody env topic time) st (env.guids.keys st.clients)

/-- `publishInitialValuesSelf`. The names of `topicData` are keys of `topics`, so the subscript
inserts nothing. -/
def publishInitialValuesSelf (env : Env) (st : Instance) : Except Fault Instance :=
  (env.names.keys st.thisClient.topicData).foldlM (fun st name ↦
    match st.thisClient.topicData.lookup name with
    | none => .ok st
    | some t =>
      if t.initialPublish then .ok st
      else do
        let sub ← isSubscribed env st.thisClient.subscriptions name true
        if sub.isNone then .ok st
        else match st.topics.lookup name with
          | some (some topic) =>
            Prod.fst <$> sendTopicUpdateSelf env st topic.1 (getServerTime env st)
          | some none | none => .error .nullDeref) st

/-- `publishInitialValues`. -/
def publishInitialValues (env : Env) (st : Instance) (guid : Guid) : Except Fault Instance := do
  let d ← st.client guid .clientNull
  (env.names.keys d.topicData).foldlM (fun st name ↦ do
    let d ← st.client guid .clientNull
    match d.topicData.lookup name with
    | none => .ok st
    | some t =>
      if t.initialPublish then .ok st
      else do
        let sub ← isSubscribed env d.subscriptions name true
        if sub.isNone then .ok st
        else match st.topics.lookup name with
          | some (some topic) =>
            .ok (st.setClient guid (d.sendTopicUpdate topic.1 (getServerTime env st)))
          | some none | none => .error .nullDeref) st

end Values

/-! ### Flushing every client -/

/-- `flushText()` and `flushBinary()`: the loop over the clients other than the local one. -/
def flushAll (env : Env) (flush : ClientData → ClientData) (st : Instance) :
    Except Fault Instance :=
  (env.guids.keys st.clients).foldlM (fun st guid ↦
    if st.isSelf guid then .ok st
    else do
      let d ← st.client guid .nullDeref
      .ok (st.setClient guid (flush d))) st

/-- `flushText()`. -/
def flushText (env : Env) (st : Instance) : Except Fault Instance :=
  flushAll env (·.flushText MAX_CLIENT_TEXT_CACHE_LENGTH) st

/-- `flushBinary()`. -/
def flushBinary (env : Env) (st : Instance) : Except Fault Instance :=
  flushAll env (·.flushBinary MAX_CLIENT_BINARY_CACHE_LENGTH) st

end NetworkTables
