import PicoRadio.NetworkTables.Server

/-!
# Meta topics and the creation of topics

The server publishes its own state under names that start with `$`: who is connected
(`$clients`), what each client subscribes to and publishes (`$clientsub$…`, `$clientpub$…`, and
`$serversub`, `$serverpub` for the local client), and for every topic who subscribes to it and who
publishes it (`$sub$…`, `$pub$…`). Each is refreshed by packing a list, storing the bytes in `bin`
of the topic's value and sending the topic: `storeMetaTopic`.

`publishTopic` makes a topic together with its two meta topics. Its recursion is one level deep,
because the names it recurses on start with `$`; `publishMetaTopic` is that second level.
-/

namespace NetworkTables

/-! ### Names -/

def clientsName : Str := ascii "$clients"

def serverSubName : Str := ascii "$serversub"

def serverPubName : Str := ascii "$serverpub"

def clientSubName (client : Str) : Str := ascii "$clientsub$" ++ client

def clientPubName (client : Str) : Str := ascii "$clientpub$" ++ client

def topicSubName (topic : Str) : Str := ascii "$sub$" ++ topic

def topicPubName (topic : Str) : Str := ascii "$pub$" ++ topic

/-! ### Packed records -/

/-- The options, as a map with a name for each. -/
def SubscriptionOptions.pack (o : SubscriptionOptions) : Bytes :=
  Msgpack.packNvp
    [(ascii "periodic", Msgpack.packInt32 o.periodic), (ascii "all", Msgpack.packBool o.all),
      (ascii "topicsonly", Msgpack.packBool o.topicsonly),
      (ascii "prefix", Msgpack.packBool o.prefixMatch)]

/-- A subscription in the list of a client. -/
def Subscription.pack (s : Subscription) : Bytes :=
  Msgpack.packNvp
    [(ascii "uid", Msgpack.packInt32 s.uid),
      (ascii "topics", Msgpack.packArray Msgpack.packString s.topics),
      (ascii "options", s.options.pack)]

/-- A publisher in the list of a client. -/
def Publisher.pack (p : Publisher) : Bytes :=
  Msgpack.packNvp
    [(ascii "uid", Msgpack.packInt32 p.uid), (ascii "topic", Msgpack.packString p.topic)]

/-- An entry of the list in `$sub$…`. -/
structure TopicSubscription where
  client : Str
  subuid : Int32
  options : SubscriptionOptions
  deriving DecidableEq

/-- A subscriber in the list of a topic. -/
def TopicSubscription.pack (s : TopicSubscription) : Bytes :=
  Msgpack.packNvp
    [(ascii "client", Msgpack.packString s.client), (ascii "subuid", Msgpack.packInt32 s.subuid),
      (ascii "options", s.options.pack)]

/-- An entry of the list in `$pub$…`. -/
structure TopicPublisher where
  client : Str
  pubuid : Int32
  deriving DecidableEq

/-- A publisher in the list of a topic. -/
def TopicPublisher.pack (p : TopicPublisher) : Bytes :=
  Msgpack.packNvp
    [(ascii "client", Msgpack.packString p.client), (ascii "pubuid", Msgpack.packInt32 p.pubuid)]

/-- An entry of the list in `$clients`. -/
structure ClientsMetaTopic where
  id : Str
  conn : Str
  deriving DecidableEq

/-- A client in the list of clients. -/
def ClientsMetaTopic.pack (c : ClientsMetaTopic) : Bytes :=
  Msgpack.packNvp
    [(ascii "id", Msgpack.packString c.id), (ascii "conn", Msgpack.packString c.conn)]

/-! ### Refreshing -/

section Refresh

variable [FloatCodec]

/-- The last lines of every `update…MetaTopic`: look the topic up, assert that it is there, store
the packed list in its value and send it. -/
def storeMetaTopic (env : Env) (st : Instance) (name : Str) (packed : Bytes) :
    Except Fault Instance :=
  match st.topics.lookup name with
  | some (some t) =>
    let t := t.setValue { t.1.value with bin := packed }
    let st := st.setTopic name t
    Prod.fst <$> sendTopicUpdate env st t.1 (getServerTime env st)
  | some none | none => .error (.metaTopicNull name)

/-- The loop of `updateClientsMetaTopic`: the connections that have an entry in the map of
clients. -/
def listedClients (st : Instance) : Except Fault (List ClientsMetaTopic) :=
  st.serverClients.foldlM (fun listed entry ↦
    match st.clients.lookup entry.guid with
    | none => .ok listed
    | some _ => do
      let d ← st.client entry.guid .nullDeref
      .ok (listed ++ [⟨d.name, entry.host ++ ascii ":" ++ decimal entry.port.toNat⟩])) []

/-- `updateClientsMetaTopic`. -/
def updateClientsMetaTopic (env : Env) (st : Instance) : Except Fault Instance := do
  let listed ← listedClients st
  storeMetaTopic env st clientsName (Msgpack.packArray ClientsMetaTopic.pack listed)

/-- Pack every record of a map of subscriptions or publishers. -/
def packAll {α : Type} (env : Env) (pack : α → Bytes) (m : AList fun _ : Int32 ↦ Option α) :
    Except Fault Bytes := do
  let packed ← (env.uids.keys m).foldlM (fun packed uid ↦
    match m.lookup uid with
    | none => .ok packed
    | some none => .error .nullDeref
    | some (some a) => .ok (packed ++ pack a)) []
  .ok (Msgpack.packArrayHeader m.keys.length ++ packed)

/-- `updateServerSubMetaTopic`. -/
def updateServerSubMetaTopic (env : Env) (st : Instance) : Except Fault Instance := do
  let packed ← packAll env Subscription.pack st.thisClient.subscriptions
  storeMetaTopic env st serverSubName packed

/-- `updateServerPubMetaTopic`. -/
def updateServerPubMetaTopic (env : Env) (st : Instance) : Except Fault Instance := do
  let packed ← packAll env Publisher.pack st.thisClient.publishers
  storeMetaTopic env st serverPubName packed

/-- `updateClientSubMetaTopic`. -/
def updateClientSubMetaTopic (env : Env) (st : Instance) (guid : Guid) :
    Except Fault Instance := do
  let d ← st.client guid .nullDeref
  let packed ← packAll env Subscription.pack d.subscriptions
  storeMetaTopic env st (clientSubName d.name) packed

/-- `updateClientPubMetaTopic`. -/
def updateClientPubMetaTopic (env : Env) (st : Instance) (guid : Guid) :
    Except Fault Instance := do
  let d ← st.client guid .nullDeref
  let packed ← packAll env Publisher.pack d.publishers
  storeMetaTopic env st (clientPubName d.name) packed

/-- The first loop of `updateTopicSubMetaTopic`: one entry for each subscribed client. -/
def topicSubscriptions (env : Env) (st : Instance) (name : Str) :
    Except Fault (List TopicSubscription) :=
  (env.guids.keys st.clients).foldlM (fun subs guid ↦
    if st.isSelf guid then .ok subs
    else do
      let d ← st.client guid .nullDeref
      let sub ← isSubscribed env d.subscriptions name
      match sub with
      | none => .ok subs
      | some sub => .ok (subs ++ [⟨d.name, sub.uid, sub.options⟩])) []

/-- `updateTopicSubMetaTopic`. -/
def updateTopicSubMetaTopic (env : Env) (st : Instance) (name : Str) : Except Fault Instance := do
  let subs ← topicSubscriptions env st name
  storeMetaTopic env st (topicSubName name) (Msgpack.packArray TopicSubscription.pack subs)

/-- The inner loop of `updateTopicPubMetaTopic`: the publishers of one client. -/
def clientTopicPublishers (env : Env) (d : ClientData) (name : Str)
    (pubs : List TopicPublisher) : Except Fault (List TopicPublisher) :=
  (env.uids.keys d.publishers).foldlM (fun pubs uid ↦
    match d.publishers.lookup uid with
    | none => .ok pubs
    | some none => .error .nullDeref
    | some (some pub) =>
      .ok (if pub.topic = name then pubs ++ [⟨d.name, pub.uid⟩] else pubs)) pubs

/-- The first loop of `updateTopicPubMetaTopic`. -/
def topicPublishers (env : Env) (st : Instance) (name : Str) :
    Except Fault (List TopicPublisher) :=
  (env.guids.keys st.clients).foldlM (fun pubs guid ↦
    if st.isSelf guid then .ok pubs
    else do
      let d ← st.client guid .nullDeref
      clientTopicPublishers env d name pubs) []

/-- `updateTopicPubMetaTopic`. -/
def updateTopicPubMetaTopic (env : Env) (st : Instance) (name : Str) : Except Fault Instance := do
  let pubs ← topicPublishers env st name
  storeMetaTopic env st (topicPubName name) (Msgpack.packArray TopicPublisher.pack pubs)

/-! ### Creating topics -/

/-- `getOrCreateTopic`. The pointer of an existing entry is returned as it is. -/
def getOrCreateTopic (st : Instance) (name : Str) (value : NTDataValue)
    (properties : TopicProperties) : Instance × Option (TopicAt name) :=
  match st.topics.lookup name with
  | some pointer => (st, pointer)
  | none =>
    let t : TopicAt name := ⟨{ name, value, properties }, rfl⟩
    (st.setTopic name t, some t)

/-- The empty value a meta topic is published with. -/
def metaValue : NTDataValue where
  type := .msgpack

/-- The properties a meta topic is published with. -/
def metaProperties : TopicProperties where
  retained := true
  cached := true

/-- `publishTopic(name, value, properties)` for a name that starts with `$`. -/
def publishMetaTopic (env : Env) (st : Instance) (name : Str) : Except Fault (Instance × Bool) :=
  let r := getOrCreateTopic st name metaValue metaProperties
  match r.2 with
  | some t => announceTopic env r.1 t.1
  | none => .error .nullDeref

/-- The block of `publishTopic` for a name that does not start with `$`. -/
def publishMetaTopicsOf (env : Env) (st : Instance) (name : Str) :
    Except Fault (Instance × Bool) := do
  let r ← publishMetaTopic env st (topicSubName name)
  if r.2 then
    let r ← publishMetaTopic env r.1 (topicPubName name)
    if r.2 then
      let st ← updateTopicSubMetaTopic env r.1 name
      let st ← updateTopicPubMetaTopic env st name
      .ok (st, true)
    else .ok (r.1, false)
  else .ok (r.1, false)

/-- The three functions that publish a topic: make it, announce it, and make its meta topics. They
differ in how the topic is announced. -/
def publishTopicWith (env : Env) (announce : Instance → Topic → Except Fault (Instance × Bool))
    (st : Instance) (name : Str) (value : NTDataValue) (properties : TopicProperties) :
    Except Fault (Instance × Bool) :=
  let r := getOrCreateTopic st name value properties
  match r.2 with
  | none => .error .nullDeref
  | some t => do
    let r ← announce r.1 t.1
    if r.2 then
      if name.isMeta then .ok (r.1, true)
      else publishMetaTopicsOf env r.1 name
    else .ok (r.1, false)

/-- `publishTopic(name, value, publisherGuid, pubuid, properties)`. -/
def publishTopicToPublisher (env : Env) (st : Instance) (name : Str) (value : NTDataValue)
    (publisherGuid : Guid) (pubuid : Int32) (properties : TopicProperties) :
    Except Fault (Instance × Bool) :=
  publishTopicWith env (announceTopicToPublisher env publisherGuid pubuid) st name value properties

/-- The result of a publication that failed. -/
def AnnouncedTopic.failed (properties : TopicProperties) : AnnouncedTopic :=
  ⟨[], -1, .bool, properties⟩

/-- `publishTopicSelfSync`: the id is read with the subscript operator, which makes an entry with
id `0` for a topic the local client has not been announced. -/
def publishTopicSelfSync (env : Env) (st : Instance) (name : Str) (value : NTDataValue)
    (properties : TopicProperties) : Except Fault (Instance × AnnouncedTopic) := do
  let r ← publishTopicWith env (announceTopic env) st name value properties
  if r.2 then
    match r.1.topics.lookup name with
    | some (some t) =>
      let id := r.1.thisClient.topicId name
      let st := { r.1 with thisClient := { r.1.thisClient with
        topicData := r.1.thisClient.topicData.subscript name {} } }
      .ok (st, ⟨name, id, t.1.value.type, t.1.properties⟩)
    | some none | none => .error .nullDeref
  else .ok (r.1, .failed {})

end Refresh

end NetworkTables
