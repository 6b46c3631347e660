import PicoRadio.NetworkTables.Operations

/-!
# Refreshing meta topics

Seven functions refresh a meta topic each. They differ in what they pack and in the name of the
topic that it goes to (`Refresh.content`); then all of them store it there and broadcast the topic
(`Refresh.run_stores`). The handlers refresh a few meta topics one after the other.
-/

namespace NetworkTables

/-- A meta topic that is refreshed. -/
inductive Refresh
  | clients
  | serverSub
  | serverPub
  | clientSub (guid : Guid)
  | clientPub (guid : Guid)
  | topicSub (name : Str)
  | topicPub (name : Str)

namespace Refresh

variable [FloatCodec] {env : Env} {st : Instance}

/-- Call the function that refreshes it. -/
def run (env : Env) (st : Instance) : Refresh → Except Fault Instance
  | clients => updateClientsMetaTopic env st
  | serverSub => updateServerSubMetaTopic env st
  | serverPub => updateServerPubMetaTopic env st
  | clientSub guid => updateClientSubMetaTopic env st guid
  | clientPub guid => updateClientPubMetaTopic env st guid
  | topicSub name => updateTopicSubMetaTopic env st name
  | topicPub name => updateTopicPubMetaTopic env st name

omit [FloatCodec] in
/-- The name of the meta topic, and the bytes that are stored in it. -/
def content (env : Env) (st : Instance) : Refresh → Except Fault (Str × Bytes)
  | clients => do
    let listed ← listedClients st
    .ok (clientsName, Msgpack.packArray ClientsMetaTopic.pack listed)
  | serverSub => do
    let packed ← packAll env Subscription.pack st.thisClient.subscriptions
    .ok (serverSubName, packed)
  | serverPub => do
    let packed ← packAll env Publisher.pack st.thisClient.publishers
    .ok (serverPubName, packed)
  | clientSub guid => do
    let d ← st.client guid .nullDeref
    let packed ← packAll env Subscription.pack d.subscriptions
    .ok (clientSubName d.name, packed)
  | clientPub guid => do
    let d ← st.client guid .nullDeref
    let packed ← packAll env Publisher.pack d.publishers
    .ok (clientPubName d.name, packed)
  | topicSub name => do
    let subs ← topicSubscriptions env st name
    .ok (topicSubName name, Msgpack.packArray TopicSubscription.pack subs)
  | topicPub name => do
    let pubs ← topicPublishers env st name
    .ok (topicPubName name, Msgpack.packArray TopicPublisher.pack pubs)

/-- What they have in common. -/
theorem run_stores (r : Refresh) :
    r.run env st = r.content env st >>= fun c ↦ storeMetaTopic env st c.1 c.2 := by
  cases r with
  | clients | serverSub | serverPub | topicSub | topicPub =>
    rw [content, bind_assoc]
    rfl
  | clientSub | clientPub =>
    simp only [content, bind_assoc]
    rfl

/-- A refresh is a sequence of moves. -/
theorem run_moves (r : Refresh) : Ends (r.run env st) (Moves .all st) fun _ ↦ True := by
  rw [run_stores]
  refine .bind_any fun c ↦ ?_
  exact Ends.mono (storeMetaTopic_follows (K := .all) (.inl trivial) trivial (.inl trivial))
    (fun _ h ↦ h.1) fun _ _ ↦ trivial

end Refresh

variable [FloatCodec] {env : Env} {st : Instance}

omit [FloatCodec] in
/-- The lists of subscribers that a new or lost subscription changes. -/
def subscriptionRefreshes (env : Env) (st : Instance) (sub : Subscription) : List Refresh :=
  ((env.names.keys st.topics).filter fun name ↦ !name.isMeta && sub.isSubscribed name).map .topicSub

/-- The loop over the topics, over those that it refreshes. -/
theorem updateTopicSubMetaTopics_eq (sub : Subscription) :
    updateTopicSubMetaTopics env st sub =
      (subscriptionRefreshes env st sub).foldlM (Refresh.run env) st := by
  rw [updateTopicSubMetaTopics, subscriptionRefreshes, List.foldlM_map, List.foldlM_filter]
  rfl

end NetworkTables
