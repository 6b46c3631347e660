import PicoRadio.NetworkTables.Operations

/-!
# The lists of subscribers and publishers

`$sub$…` and `$pub$…` hold what the server knows of a topic in packed form: who subscribes to it,
and who publishes it. What these lists should be is read off the state here (`subscribersOf`,
`publishersOf`), in no particular order, and `MirrorsSubscribers` and `MirrorsPublishers` say that
the values of the two meta topics are such lists.

A refresh brings this about. Moves keep it, as long as they neither give the meta topic a value nor
change what a client with a connection asks for.

## Up to order

The source goes through unordered maps to fill a list, and the order is the map's own. So a list is
right if what is stored packs a permutation of the one that is read off the state. Two states in
which the clients ask for the same have the same lists in this sense (`Moves.subscribersOf`,
`Moves.publishersOf`).
-/

namespace NetworkTables

open Relation

/-! ### What the lists should say -/

/-- The client holds a subscription that matches the topic. -/
def ClientInfo.SubscribesTo (d : ClientInfo) (topic : Str) : Prop :=
  ∃ uid ∈ d.subscriptions.keys, ∃ sub ∈ (d.subscriptions.lookup uid).join, sub.isSubscribed topic

instance (d : ClientInfo) (topic : Str) : Decidable (d.SubscribesTo topic) :=
  inferInstanceAs (Decidable (∃ uid ∈ _, ∃ sub ∈ _, _))

/-- The entry of the client's publisher under this uid, if it is one of the topic. -/
def ClientInfo.publisherEntries (d : ClientInfo) (topic : Str) (uid : Int32) :
    List TopicPublisher :=
  match d.publishers.lookup uid with
  | some (some pub) => if pub.topic = topic then [⟨d.name, pub.uid⟩] else []
  | some none | none => []

/-- An entry for each of the client's publishers of the topic. -/
def ClientInfo.publishersOf (d : ClientInfo) (topic : Str) : List TopicPublisher :=
  d.publishers.keys.flatMap (d.publisherEntries topic)

namespace Instance

/-- The name of the client with this guid, if it has a connection and subscribes to the topic. -/
def subscriberNames (st : Instance) (topic : Str) (guid : Guid) : List Str :=
  match st.clients.lookup guid with
  | some (.remote d) => if d.SubscribesTo topic then [d.name] else []
  | some .self | some .null | none => []

/-- The names of the clients with a connection that subscribe to the topic. -/
def subscribersOf (st : Instance) (topic : Str) : List Str :=
  st.clients.keys.flatMap (st.subscriberNames topic)

/-- The publishers that the client with this guid has of the topic, if it has a connection. -/
def publisherEntries (st : Instance) (topic : Str) (guid : Guid) : List TopicPublisher :=
  match st.clients.lookup guid with
  | some (.remote d) => d.publishersOf topic
  | some .self | some .null | none => []

/-- An entry for each publisher of the topic that a client with a connection has. -/
def publishersOf (st : Instance) (topic : Str) : List TopicPublisher :=
  st.clients.keys.flatMap (st.publisherEntries topic)

/-- The value of the topic of this name is of type msgpack and holds these bytes. -/
def Stores (st : Instance) (name : Str) (packed : Bytes) : Prop :=
  ∃ t, st.topics.lookup name = some (some t) ∧ t.1.value.type = .msgpack ∧ t.1.value.bin = packed

/-- The topic of this name, if there is one, is of the type that lists are packed in. -/
def TakesLists (st : Instance) (name : Str) : Prop :=
  ∀ t, st.topics.lookup name = some (some t) → t.1.value.type = .msgpack

/-- There is a topic of this name, and it is of that type. -/
def HasList (st : Instance) (name : Str) : Prop :=
  ∃ t, st.topics.lookup name = some (some t) ∧ t.1.value.type = .msgpack

/-- The list in `$sub$…` names the clients that subscribe to the topic, each once. -/
def MirrorsSubscribers (st : Instance) (topic : Str) : Prop :=
  ∃ subs, st.Stores (topicSubName topic) (Msgpack.packArray TopicSubscription.pack subs) ∧
    (subs.map (·.client)).Perm (st.subscribersOf topic)

/-- The list in `$pub$…` has one entry for each publisher of the topic. -/
def MirrorsPublishers (st : Instance) (topic : Str) : Prop :=
  ∃ pubs, st.Stores (topicPubName topic) (Msgpack.packArray TopicPublisher.pack pubs) ∧
    pubs.Perm (st.publishersOf topic)

/-- Both lists of every topic that is no meta topic say what they should. -/
def Mirrored (st : Instance) : Prop :=
  ∀ topic ∈ st.topics, topic.isMeta = false →
    st.MirrorsSubscribers topic ∧ st.MirrorsPublishers topic

end Instance

/-- Some subscription matches; null pointers match nothing. -/
theorem ClientInfo.subscribesTo_iff {d : ClientInfo} {topic : Str} : d.SubscribesTo topic ↔
    ∃ uid sub, d.subscriptions.lookup uid = some (some sub) ∧ sub.isSubscribed topic := by
  constructor
  · rintro ⟨uid, -, sub, hsub, hmatch⟩
    exact ⟨uid, sub, Option.join_eq_some_iff.1 hsub, hmatch⟩
  · rintro ⟨uid, sub, hsub, hmatch⟩
    exact ⟨uid, AList.mem_of_lookup hsub, sub, Option.join_eq_some_iff.2 hsub, hmatch⟩

/-- Only the uids of publishers have entries. -/
theorem ClientInfo.mem_of_publisherEntries {d : ClientInfo} {topic : Str} {uid : Int32}
    (h : d.publisherEntries topic uid ≠ []) : uid ∈ d.publishers := by
  by_contra huid
  rw [publisherEntries, AList.lookup_eq_none.2 huid] at h
  exact h rfl

/-- The publishers depend on what each uid adds to them only. -/
theorem ClientInfo.publishersOf_perm {d d' : ClientInfo} {topic : Str}
    (h : ∀ uid, d'.publisherEntries topic uid = d.publisherEntries topic uid) :
    (d'.publishersOf topic).Perm (d.publishersOf topic) := by
  refine TraversalOrder.flatMap_perm d'.publishers.keys_nodup d.publishers.keys_nodup
    (fun uid ↦ by rw [h uid]) fun uid hne ↦ ?_
  exact iff_of_true (mem_of_publisherEntries hne) (mem_of_publisherEntries (h uid ▸ hne))

namespace Instance

variable {st s : Instance} {topic : Str} {guid : Guid}

/-- A client stands in the list under its name, once at most. -/
theorem subscriberNames_of_remote {d : ClientData}
    (hd : st.clients.lookup guid = some (.remote d)) :
    st.subscriberNames topic guid = if d.SubscribesTo topic then [d.name] else [] := by
  rw [subscriberNames, hd]

/-- A client stands in the list once for every publisher of the topic. -/
theorem publisherEntries_of_remote {d : ClientData}
    (hd : st.clients.lookup guid = some (.remote d)) :
    st.publisherEntries topic guid = d.publishersOf topic := by
  rw [publisherEntries, hd]

/-- What is not the data of a connection adds nothing to the lists. -/
theorem entries_of_not_remote (hd : ∀ d, st.clients.lookup guid ≠ some (.remote d)) :
    st.subscriberNames topic guid = [] ∧ st.publisherEntries topic guid = [] := by
  rw [subscriberNames, publisherEntries]
  split
  · next d h => exact absurd h (hd d)
  · exact ⟨rfl, rfl⟩
  · exact ⟨rfl, rfl⟩
  · exact ⟨rfl, rfl⟩

/-- Only who has a connection stands in a list. -/
theorem mem_of_entries
    (h : st.subscriberNames topic guid ≠ [] ∨ st.publisherEntries topic guid ≠ []) :
    guid ∈ st.clients := by
  by_contra hguid
  have hnone := AList.lookup_eq_none.2 hguid
  obtain ⟨hsub, hpub⟩ := @entries_of_not_remote st topic guid
    fun d ↦ by rw [hnone]; exact fun h ↦ Option.some_ne_none _ h.symm
  exact h.elim (absurd hsub) (absurd hpub)

/-- The lists depend on what each guid adds to them only. -/
theorem subscribersOf_perm
    (h : ∀ guid, s.subscriberNames topic guid = st.subscriberNames topic guid) :
    (s.subscribersOf topic).Perm (st.subscribersOf topic) := by
  refine TraversalOrder.flatMap_perm s.clients.keys_nodup st.clients.keys_nodup
    (fun guid ↦ by rw [h guid]) fun guid hne ↦ ?_
  exact iff_of_true (mem_of_entries (.inl hne)) (mem_of_entries (.inl (h guid ▸ hne)))

@[inherit_doc subscribersOf_perm]
theorem publishersOf_perm
    (h : ∀ guid, (s.publisherEntries topic guid).Perm (st.publisherEntries topic guid)) :
    (s.publishersOf topic).Perm (st.publishersOf topic) := by
  refine TraversalOrder.flatMap_perm s.clients.keys_nodup st.clients.keys_nodup h
    fun guid hne ↦ ?_
  have hne' : st.publisherEntries topic guid ≠ [] :=
    fun hnil ↦ hne (List.perm_nil.1 (hnil ▸ h guid))
  exact iff_of_true (mem_of_entries (.inr hne)) (mem_of_entries (.inr hne'))

end Instance

/-! ### Moves -/

/-- Both clients ask for the same of the topic. -/
structure ClientInfo.AsksAlike (topic : Str) (d d' : ClientInfo) : Prop where
  name : d'.name = d.name
  subscribes : d'.SubscribesTo topic ↔ d.SubscribesTo topic
  publishers : (d'.publishersOf topic).Perm (d.publishersOf topic)

/-- Nothing has changed. -/
theorem ClientInfo.AsksAlike.of_eq {topic : Str} {d d' : ClientInfo} (h : d' = d) :
    AsksAlike topic d d' := by
  rw [h]
  exact ⟨rfl, Iff.rfl, .refl _⟩

section

variable [FloatCodec] {K : Allow} {st s : Instance} {topic : Str}

/-- A client that asks for nothing asks for what it did. -/
theorem ClientMove.asksAlike {topics : Topics} {d d' : ClientData} (hK : ¬K.asks false)
    (h : ClientMove K topics false d d') : d.AsksAlike topic d'.toClientInfo := by
  cases h with
  | announce => exact .of_eq (ClientData.toClientInfo_announceTopic d _)
  | announceToPublisher => exact .of_eq (ClientData.toClientInfo_announceTopicToPublisher d _ _)
  | properties => exact .of_eq (ClientData.toClientInfo_sendPropertyUpdate d _ _)
  | update => exact .of_eq (ClientData.toClientInfo_sendTopicUpdate d _ _)
  | flushText => exact .of_eq (ClientData.toClientInfo_flushText d _)
  | flushBinary => exact .of_eq (ClientData.toClientInfo_flushBinary d _)
  | subscribe hasks => exact absurd hasks.1 hK
  | unsubscribe hasks => exact absurd hasks hK
  | publish hasks => exact absurd hasks hK
  | unpublish hasks => exact absurd hasks hK
  | nullSubscription _ uid =>
    refine ⟨rfl, ?_, .refl _⟩
    rw [ClientInfo.subscribesTo_iff, ClientInfo.subscribesTo_iff]
    refine exists_congr fun uid' ↦ exists_congr fun sub ↦ and_congr_left fun _ ↦ ?_
    rw [AList.lookup_subscript]
    split
    · next heq =>
      rw [heq]
      cases d.subscriptions.lookup uid <;> simp
    · exact Iff.rfl
  | nullPublisher _ uid =>
    refine ⟨rfl, Iff.rfl, ClientInfo.publishersOf_perm fun uid' ↦ ?_⟩
    rw [ClientInfo.publisherEntries, ClientInfo.publisherEntries, AList.lookup_subscript]
    by_cases heq : uid' = uid
    · rw [if_pos heq, heq]
      cases d.publishers.lookup uid <;> rfl
    · rw [if_neg heq]

/-- A client with a connection keeps it, and asks for the same. -/
theorem Move.asksAlike (hK : ¬K.asks false) (h : Move K st s) {guid : Guid} {d : ClientData}
    (hd : st.clients.lookup guid = some (.remote d)) :
    ∃ d', s.clients.lookup guid = some (.remote d') ∧ d.AsksAlike topic d'.toClientInfo := by
  cases h with
  | @remote guid' d₀ d' hd' hm =>
    rw [AList.lookup_insert_ite]
    split
    · next heq =>
      rw [heq, hd'] at hd
      cases hd
      exact ⟨d', rfl, hm.asksAlike hK⟩
    · exact ⟨d, hd, .of_eq rfl⟩
  | self | create | properties | nullTopic => exact ⟨d, hd, .of_eq rfl⟩
  | assign _ ht value htype time complete _ h =>
    rcases h.remote guid d hd with ⟨-, h'⟩ | ⟨-, h'⟩
    · exact ⟨_, h', .of_eq (ClientData.toClientInfo_sendTopicUpdate d _ _)⟩
    · exact ⟨d, h', .of_eq rfl⟩

/-- The entries of each client are as before, up to order. -/
theorem Move.entries (hK : ¬K.asks false) (h : Move K st s) (guid : Guid) :
    s.subscriberNames topic guid = st.subscriberNames topic guid ∧
      (s.publisherEntries topic guid).Perm (st.publisherEntries topic guid) := by
  by_cases hd : ∃ d, st.clients.lookup guid = some (.remote d)
  · obtain ⟨d, hd⟩ := hd
    obtain ⟨d', hd', halike⟩ : ∃ d', s.clients.lookup guid = some (.remote d') ∧
        d.AsksAlike topic d'.toClientInfo := h.asksAlike hK hd
    rw [Instance.subscriberNames_of_remote hd, Instance.subscriberNames_of_remote hd',
      Instance.publisherEntries_of_remote hd, Instance.publisherEntries_of_remote hd']
    exact ⟨by simp only [halike.subscribes, halike.name], halike.publishers⟩
  · have hlookup := h.lookup_of_not_remote fun d hd' ↦ hd ⟨d, hd'⟩
    unfold Instance.subscriberNames Instance.publisherEntries
    rw [hlookup]
    exact ⟨rfl, .refl _⟩

/-- The list of subscribers that should be. -/
theorem Moves.subscribersOf (hK : ¬K.asks false) (h : Moves K st s) :
    (s.subscribersOf topic).Perm (st.subscribersOf topic) := by
  induction h with
  | refl => exact .refl _
  | tail _ h ih => exact (Instance.subscribersOf_perm fun guid ↦ (h.entries hK guid).1).trans ih

/-- The list of publishers that should be. -/
theorem Moves.publishersOf (hK : ¬K.asks false) (h : Moves K st s) :
    (s.publishersOf topic).Perm (st.publishersOf topic) := by
  induction h with
  | refl => exact .refl _
  | tail _ h ih => exact (Instance.publishersOf_perm fun guid ↦ (h.entries hK guid).2).trans ih

/-- A topic keeps its value if it is not among those that may get another. -/
theorem Move.stores {name : Str} {packed : Bytes} (hK : ¬K.assigns name) (h : Move K st s)
    (hst : st.Stores name packed) : s.Stores name packed := by
  obtain ⟨t, ht, hvalue⟩ := hst
  have hkept {name' : Str} (hne : name ≠ name') (p : Option (TopicAt name')) :
      (st.topics.insert name' p).lookup name = some (some t) := by
    rw [AList.lookup_insert_ne hne, ht]
  have hnew {name' : Str} (hname' : name' ∉ st.topics) : name ≠ name' := by
    rintro rfl
    exact hname' (AList.mem_of_lookup ht)
  cases h with
  | remote | self => exact ⟨t, ht, hvalue⟩
  | @create name' _ hname' value properties =>
    exact ⟨t, hkept (hnew hname') _, hvalue⟩
  | @nullTopic name' _ hname' =>
    exact ⟨t, hkept (hnew hname') _, hvalue⟩
  | @properties name' t' _ ht' properties =>
    by_cases heq : name = name'
    · subst heq
      rw [ht'] at ht
      cases ht
      exact ⟨_, AList.lookup_insert _, hvalue⟩
    · exact ⟨t, hkept heq _, hvalue⟩
  | @assign _ name' t' hK' ht' value htype time complete _ h =>
    refine ⟨t, ?_, hvalue⟩
    rw [h.frame]
    exact hkept (fun heq ↦ hK (heq ▸ hK')) _

/-- A topic that gets no value keeps what it stores. -/
theorem Moves.stores {name : Str} {packed : Bytes} (hK : ¬K.assigns name) (h : Moves K st s)
    (hst : st.Stores name packed) : s.Stores name packed := by
  induction h with
  | refl => exact hst
  | tail _ h ih => exact h.stores hK ih

/-- A topic that holds a list can take another one later on. -/
theorem Moves.hasList {name : Str} (h : Moves K st s) (hst : st.HasList name) : s.HasList name := by
  obtain ⟨t, ht, htype⟩ := hst
  obtain ⟨t', ht', hkept⟩ := h.topicsLater.type name t ht
  refine ⟨t', ht', (hkept ?_).trans htype⟩
  rw [NTDataValue.isValid, htype]
  rfl

/-- A list that was right is right still, if nobody asks for anything and nobody writes to it. -/
theorem Moves.mirrorsSubscribers (h : Moves K st s) (hasks : ¬K.asks false)
    (hassigns : ¬K.assigns (topicSubName topic)) (hst : st.MirrorsSubscribers topic) :
    s.MirrorsSubscribers topic := by
  obtain ⟨subs, hstores, hnames⟩ := hst
  exact ⟨subs, h.stores hassigns hstores, hnames.trans (h.subscribersOf hasks).symm⟩

/-- The same of the publishers. -/
theorem Moves.mirrorsPublishers (h : Moves K st s) (hasks : ¬K.asks false)
    (hassigns : ¬K.assigns (topicPubName topic)) (hst : st.MirrorsPublishers topic) :
    s.MirrorsPublishers topic := by
  obtain ⟨pubs, hstores, hentries⟩ := hst
  exact ⟨pubs, h.stores hassigns hstores, hentries.trans (h.publishersOf hasks).symm⟩

/-! ### Refreshing -/

/-- Topics with these names may be made and get a value, and the local client may ask for something
else, but no client with a connection does. -/
def Allow.giving (creates assigns : Str → Prop) : Allow :=
  { Allow.all with asks := fun self ↦ self = true, creates, assigns }

omit [FloatCodec] in
/-- Moves that give values let nobody ask. -/
theorem Allow.not_asks_giving (creates assigns : Str → Prop) :
    ¬(giving creates assigns).asks false :=
  Bool.false_ne_true

variable {env : Env}

omit [FloatCodec] in
/-- The loop over the clients finds the subscribers. -/
theorem topicSubscriptions_names (env : Env) (st : Instance) (topic : Str) :
    Ends (topicSubscriptions env st topic)
      (fun subs ↦ (subs.map (·.client)).Perm (st.subscribersOf topic)) fun _ ↦ True := by
  refine (Ends.foldlM_visited (E := fun _ ↦ True)
    (I := fun done subs ↦ subs.map (·.client) = done.flatMap (st.subscriberNames topic))
    (fun done guid rest _ subs hI ↦ ?_) rfl).imp fun subs hsubs ↦ ?_
  · rw [List.flatMap_append, List.flatMap_singleton, ← hI]
    split
    · next hself =>
      have hself : st.clients.lookup guid = some .self := of_decide_eq_true hself
      rw [(st.entries_of_not_remote fun d h ↦ ?_).1, List.append_nil]
      · exact rfl
      · rw [hself] at h
        cases h
    · next hself =>
      refine ((st.client_ends guid .nullDeref).mono (fun _ ↦ id) fun _ _ ↦ trivial).bind
        fun d hd ↦ ?_
      have hd : st.clients.lookup guid = some (.remote d) :=
        hd.resolve_left fun h ↦ hself (decide_eq_true h.1)
      rw [Instance.subscriberNames_of_remote hd]
      refine ((isSubscribed_ends env d.subscriptions topic false).mono (fun _ ↦ id)
        fun _ _ ↦ trivial).bind fun found hfound ↦ ?_
      cases found with
      | none =>
        rw [if_neg, List.append_nil]
        · exact rfl
        · intro h
          obtain ⟨uid, sub, hsub, hmatch⟩ := ClientInfo.subscribesTo_iff.1 h
          exact hfound.2 rfl uid sub hsub hmatch
      | some sub =>
        obtain ⟨⟨uid, hsub⟩, hmatch⟩ := hfound.1 sub rfl
        rw [if_pos (ClientInfo.subscribesTo_iff.2 ⟨uid, sub, hsub, hmatch⟩)]
        exact List.map_append
  · rw [hsubs]
    exact (env.guids.perm _).flatMap_right _

omit [FloatCodec] in
/-- The loop over the clients finds the publishers. -/
theorem topicPublishers_entries (env : Env) (st : Instance) (topic : Str) :
    Ends (topicPublishers env st topic) (fun pubs ↦ pubs.Perm (st.publishersOf topic))
      fun _ ↦ True := by
  refine (Ends.foldlM_visited (E := fun _ ↦ True)
    (I := fun done pubs ↦ pubs.Perm (done.flatMap (st.publisherEntries topic)))
    (fun done guid rest _ pubs hI ↦ ?_) .nil).imp fun pubs hpubs ↦
      hpubs.trans ((env.guids.perm _).flatMap_right _)
  rw [List.flatMap_append, List.flatMap_singleton]
  split
  · next hself =>
    have hself : st.clients.lookup guid = some .self := of_decide_eq_true hself
    rw [(st.entries_of_not_remote fun d h ↦ ?_).2, List.append_nil]
    · exact hI
    · rw [hself] at h
      cases h
  · next hself =>
    refine ((st.client_ends guid .nullDeref).mono (fun _ ↦ id) fun _ _ ↦ trivial).bind
      fun d hd ↦ ?_
    have hd : st.clients.lookup guid = some (.remote d) :=
      hd.resolve_left fun h ↦ hself (decide_eq_true h.1)
    rw [Instance.publisherEntries_of_remote hd]
    -- the publishers of one client, in the order of the traversal
    refine (Ends.foldlM_visited (E := fun _ ↦ True)
      (I := fun done pubs' ↦ pubs' = pubs ++ done.flatMap (d.publisherEntries topic))
      (fun done uid rest _ pubs' hI' ↦ ?_) (List.append_nil _).symm).imp fun pubs' hpubs' ↦ ?_
    · rw [List.flatMap_append, List.flatMap_singleton, ← List.append_assoc, ← hI',
        ClientInfo.publisherEntries]
      rcases d.publishers.lookup uid with _ | _ | pub
      · exact (List.append_nil _).symm
      · trivial
      · show (if pub.topic = topic then _ else _) = pubs' ++ if pub.topic = topic then _ else _
        split
        · rfl
        · exact (List.append_nil _).symm
    · rw [hpubs']
      exact hI.append ((env.uids.perm _).flatMap_right _)

/-- What is stored is found there, as long as the topic is not of another type. -/
theorem storeMetaTopic_stores {name : Str} {packed : Bytes}
    (htype : st.TakesLists name) :
    Ends (storeMetaTopic env st name packed) (·.Stores name packed) fun _ ↦ True := by
  unfold storeMetaTopic
  split
  · next t ht =>
    refine .map ((sendTopicUpdate_ends (K := .all) _ _).mono ?_ fun _ _ ↦ trivial)
    rintro r ⟨hr, -⟩
    refine ⟨t.setValue { t.1.value with bin := packed }, ?_, htype t ht, rfl⟩
    rw [hr.frame]
    exact AList.lookup_insert _
  · trivial
  · trivial

/-- A refresh makes the list of subscribers right. -/
theorem updateTopicSubMetaTopic_mirrors
    (htype : st.TakesLists (topicSubName topic)) :
    Ends (updateTopicSubMetaTopic env st topic) (·.MirrorsSubscribers topic) fun _ ↦ True := by
  refine (topicSubscriptions_names env st topic).bind fun subs hsubs ↦ ?_
  refine ((storeMetaTopic_stores htype).and (storeMetaTopic_follows
    (K := .giving (fun _ ↦ True) fun _ ↦ True) (.inl trivial) trivial (.inl trivial))).mono
    (fun s hs ↦ ⟨subs, hs.1, hsubs.trans ?_⟩) fun _ _ ↦ trivial
  exact (hs.2.1.subscribersOf (Allow.not_asks_giving _ _)).symm

/-- A refresh makes the list of publishers right. -/
theorem updateTopicPubMetaTopic_mirrors
    (htype : st.TakesLists (topicPubName topic)) :
    Ends (updateTopicPubMetaTopic env st topic) (·.MirrorsPublishers topic) fun _ ↦ True := by
  refine (topicPublishers_entries env st topic).bind fun pubs hpubs ↦ ?_
  refine ((storeMetaTopic_stores htype).and (storeMetaTopic_follows
    (K := .giving (fun _ ↦ True) fun _ ↦ True) (.inl trivial) trivial (.inl trivial))).mono
    (fun s hs ↦ ⟨pubs, hs.1, hpubs.trans ?_⟩) fun _ _ ↦ trivial
  exact (hs.2.1.publishersOf (Allow.not_asks_giving _ _)).symm

end

end NetworkTables
