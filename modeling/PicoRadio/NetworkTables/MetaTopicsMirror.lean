import PicoRadio.NetworkTables.StaleLists

/-!
# The lists mirror the state

Every operation refreshes by hand the lists of the topics it believes to be concerned. It forgets
some: a subscription or a publisher that is replaced concerns the topics of the old one too, and a
client that leaves concerns every topic it asked for. Besides, a list is a topic like any other, so
that a client can publish it and write what it likes.

`Operation.Refreshes` tells the operations that forget nothing, by what they are given and the state
they start in. In a run of those the lists of every topic say what they should (`run_mirrored`).
-/

namespace NetworkTables

open Relation

/-! ### What each operation must not forget -/

namespace Instance

/-- No list has an entry of the client with this guid. -/
def Unlisted (st : Instance) (guid : Guid) : Prop :=
  ∀ topic, st.Lists topic → st.subscriberNames topic guid = [] ∧ st.publisherEntries topic guid = []

/-- If the topic is new and no meta topic, then the local client turns down neither its announcement
nor those of its lists, and what there may be under their names can hold a list. -/
def ListsBegin (env : Env) (st : Instance) (name : Str) : Prop :=
  name ∉ st.topics → name.isMeta = false →
    env.AcceptsTopic st.thisClient.subscriptions name ∧
      (env.AcceptsTopic st.thisClient.subscriptions (topicSubName name) ∧
        st.TakesLists (topicSubName name)) ∧
      env.AcceptsTopic st.thisClient.subscriptions (topicPubName name) ∧
        st.TakesLists (topicPubName name)

end Instance

/-- The operation refreshes the list of every topic it concerns: a subscription that is replaced
matched no topic that neither the new one nor another one matches, a publisher that is replaced was
one of the same topic, a client that goes, or whose guid is given to a new one, is in no list; a
topic that comes into being gets its lists, and no publisher writes to a list. -/
def Operation.Refreshes (env : Env) (st : Instance) : Operation → Prop
  | message guid (.subscribe topics subuid options) =>
    ∀ d old, st.clients.lookup guid = some (.remote d) →
      d.subscriptions.lookup subuid = some (some old) →
      ∀ topic, st.Lists topic → old.isSubscribed topic →
        Subscription.isSubscribed ⟨subuid, topics, options⟩ topic ∨ d.SubscribesBeside subuid topic
  | message guid (.publish name pubuid _ _) => st.ListsBegin env name ∧
    ∀ d old, st.clients.lookup guid = some (.remote d) →
      d.publishers.lookup pubuid = some (some old) → st.Lists old.topic → old.topic = name
  | connect entry _ => st.Unlisted entry.guid
  | disconnect guid => st.Unlisted guid
  | publish name _ _ _ => st.ListsBegin env name
  | message _ (.setproperties name _ _ _) | setProperties name _ => name.isMeta ∨ name ∈ st.topics
  | valueUpdate guid m => ∀ d pub, st.Behind guid d →
    d.publishers.lookup m.id.toInt32 = some (some pub) → ¬st.IsList pub.topic
  | updateTopic id _ _ => ∀ pub, st.thisClient.publishers.lookup id = some (some pub) →
    ¬st.IsList pub.topic
  | message _ (.unsubscribe _) | message _ (.unpublish _) | message _ .unknown | textEnd _
  | subscribe _ _ _ | unsubscribe _ | unpublish _ | flush => True

/-- The mutex has no part in it. -/
theorem Operation.Refreshes.taken {env : Env} {st : Instance} {op : Operation}
    (h : op.Refreshes env st) (mutexFree : Bool) : op.Refreshes env { st with mutexFree } := by
  cases op with
  | message guid m => cases m <;> exact h
  | connect | disconnect | textEnd | valueUpdate | subscribe | unsubscribe | publish | unpublish
  | setProperties | updateTopic | flush => exact h

/-! ### Subscriptions -/

section

variable [FloatCodec] {env : Env} {st : Instance} {subs pubs : Str → Prop} {guid : Guid}

/-- Only the topics that the new subscription matches are refreshed, so the one it replaces must not
have matched others. -/
theorem handleSubscribe_mirrored {topics : List Str} {subuid : Int32}
    {options : SubscriptionOptions} (hst : st.Mirrored)
    (h : (Operation.message guid (.subscribe topics subuid options)).Refreshes env st) :
    Ends (handleSubscribe env guid topics subuid options st) Instance.Mirrored fun _ ↦ True := by
  unfold handleSubscribe
  refine ((st.client_ends guid .nullDeref).mono (fun _ ↦ id) fun _ _ ↦ trivial).bind fun d hd ↦ ?_
  have hstale : (st.setSubscriptions guid d
      (d.subscriptions.insert subuid (some ⟨subuid, topics, options⟩))).MirroredBut
      (fun topic ↦ Subscription.isSubscribed ⟨subuid, topics, options⟩ topic) fun _ ↦ False := by
    refine hst.stale (Instance.topics_setClient _ _ _) (fun topic hlists ↦ ?_) fun topic _ ↦ .inr ?_
    · refine or_iff_not_imp_left.2 fun hnew ↦ Instance.subscriberNames_setClient hd rfl fun hd ↦ ?_
      refine ClientInfo.subscribesTo_insert hnew fun old hold hmatch ↦ ?_
      exact (h d old hd hold topic hlists hmatch).resolve_left hnew
    · exact Instance.publisherEntries_setClient hd fun _ ↦ .refl _
  -- the client's own list is no list of a topic
  refine (updateClientSubMetaTopic_mirroredBut guid hstale).bind fun st₂ hst₂ ↦ ?_
  refine (updateTopicSubMetaTopics_mirrored hst₂).bind fun st₃ hst₃ ↦ Ends.of_client fun hguid ↦ ?_
  have hemits : Emits (.giving (fun _ ↦ False) fun _ ↦ False) st₃
      (announceCachedTopics env st₃ guid) id := announceCachedTopics_emits hguid
  exact (hemits.mirroredBut (fun _ h ↦ h.elim) (hst₃.idle rfl rfl)).imp fun _ hs ↦ hs.mirrored

/-- The topics of the subscription that goes are refreshed, and a subscription that is not there
leaves a null pointer and no trace in the lists. -/
theorem handleUnsubscribe_mirrored {subuid : Int32} (hst : st.Mirrored) :
    Ends (handleUnsubscribe env guid subuid st) Instance.Mirrored fun _ ↦ True := by
  unfold handleUnsubscribe
  refine ((st.client_ends guid .nullDeref).mono (fun _ ↦ id) fun _ _ ↦ trivial).bind fun d hd ↦ ?_
  split
  · next sub hsub =>
    have hstale : (st.setSubscriptions guid d (d.subscriptions.erase subuid)).MirroredBut
        (fun topic ↦ sub.isSubscribed topic) fun _ ↦ False := by
      refine hst.stale (Instance.topics_setClient _ _ _) (fun topic _ ↦ ?_) fun topic _ ↦ .inr ?_
      · refine or_iff_not_imp_left.2 fun hold ↦ ?_
        exact Instance.subscriberNames_setClient hd rfl fun _ ↦
          ClientInfo.subscribesTo_erase hsub hold
      · exact Instance.publisherEntries_setClient hd fun _ ↦ .refl _
    refine (updateClientSubMetaTopic_mirroredBut guid hstale).bind fun st₂ hst₂ ↦ ?_
    exact updateTopicSubMetaTopics_mirrored hst₂
  -- a null pointer is inserted, and no client subscribes to anything else
  · have hm : Moves (.giving (fun _ ↦ False) fun _ ↦ False) st
        (st.setSubscriptions guid d (d.subscriptions.subscript subuid none)) :=
      .single (.setClient hd fun _ ↦ .nullSubscription trivial subuid)
    exact (hm.mirroredBut (fun _ h ↦ h.elim) (fun _ _ h ↦ h.elim) (hst.idle rfl rfl)).mirrored

/-! ### Publishers -/

/-- The one topic of the publisher that goes is refreshed. -/
theorem handleUnpublish_mirrored {pubuid : Int32} (hst : st.Mirrored) :
    Ends (handleUnpublish env guid pubuid st) Instance.Mirrored fun _ ↦ True := by
  unfold handleUnpublish
  refine ((st.client_ends guid .nullDeref).mono (fun _ ↦ id) fun _ _ ↦ trivial).bind fun d hd ↦ ?_
  split
  · next pub hpub =>
    have hstale : (st.setPublishers guid d (d.publishers.erase pubuid)).MirroredBut
        (fun _ ↦ False) fun topic ↦ topic = pub.topic := by
      refine hst.stale (Instance.topics_setClient _ _ _) (fun topic _ ↦ .inr ?_) fun topic _ ↦ ?_
      · exact Instance.subscriberNames_setClient hd rfl fun _ ↦ Iff.rfl
      · refine or_iff_not_imp_left.2 fun hne ↦ Instance.publisherEntries_setClient hd fun _ ↦ ?_
        exact ClientInfo.publishersOf_erase hpub fun heq ↦ hne heq.symm
    refine (updateClientPubMetaTopic_mirroredBut guid hstale).bind fun st₂ hst₂ ↦ ?_
    refine (updateTopicPubMetaTopic_refreshes hst₂).imp fun s hs ↦ ?_
    exact (hs.mono (fun _ _ ↦ id) fun _ _ h ↦ h.2 h.1).mirrored
  -- a null pointer is inserted, which publishes nothing
  · have hm : Moves (.giving (fun _ ↦ False) fun _ ↦ False) st
        (st.setPublishers guid d (d.publishers.subscript pubuid none)) :=
      .single (.setClient hd fun _ ↦ .nullPublisher trivial pubuid)
    exact (hm.mirroredBut (fun _ h ↦ h.elim) (fun _ _ h ↦ h.elim) (hst.idle rfl rfl)).mirrored

/-- After its publication a meta topic can hold a list, and no other topic has changed. -/
theorem publishMetaTopic_hasList {name : Str} (htype : st.TakesLists name)
    (haccepts : env.AcceptsTopic st.thisClient.subscriptions name) :
    Ends (publishMetaTopic env st name) (fun r ↦ r.2 = true ∧ r.1.HasList name ∧
      (∀ name' ≠ name, r.1.topics.lookup name' = st.topics.lookup name') ∧
      r.1.thisClient.subscriptions = st.thisClient.subscriptions) fun _ ↦ True := by
  have hp := lookup_getOrCreateTopic st name metaValue metaProperties
  have hself := thisClient_getOrCreateTopic st name metaValue metaProperties
  have hspec := getOrCreateTopic_spec st name metaValue metaProperties
  -- there may be a topic of this name already, which a client has published
  rcases hr : getOrCreateTopic st name metaValue metaProperties with ⟨st', _ | t⟩
  all_goals
    rw [hr] at hp hself hspec
    simp only [publishMetaTopic, hr]
  · trivial
  · have hlookup (name' : Str) (hne : name' ≠ name) :
        st'.topics.lookup name' = st.topics.lookup name' := by
      rcases hspec with ⟨-, hst⟩ | ⟨-, -, hst⟩
      · rw [show st' = st from hst]
      · rw [show st' = _ from hst]
        exact AList.lookup_insert_ne hne
    have hmsgpack : t.1.value.type = .msgpack := by
      rcases hspec with ⟨ht, -⟩ | ⟨-, ht, -⟩
      · exact htype t ht
      · rw [Option.some.inj ht]
        rfl
    refine (announceTopic_follows (K := .all) hp).mono (fun r hr ↦ ?_) fun _ _ ↦ trivial
    obtain ⟨-, htopics, hsubscriptions, hsucceeds⟩ := hr
    rw [hself] at hsubscriptions hsucceeds
    refine ⟨hsucceeds haccepts, ⟨t, by rw [htopics, hp], hmsgpack⟩, fun name' hne ↦ ?_,
      hsubscriptions⟩
    rw [htopics, hlookup name' hne]

/-- A topic that comes into being gets its lists. -/
theorem publishMetaTopicsOf_mirrors {name : Str}
    (hsub : env.AcceptsTopic st.thisClient.subscriptions (topicSubName name) ∧
      st.TakesLists (topicSubName name))
    (hpub : env.AcceptsTopic st.thisClient.subscriptions (topicPubName name) ∧
      st.TakesLists (topicPubName name)) :
    Ends (publishMetaTopicsOf env st name)
      (fun r ↦ r.1.MirrorsSubscribers name ∧ r.1.MirrorsPublishers name) fun _ ↦ True := by
  refine (publishMetaTopic_hasList hsub.2 hsub.1).bind fun r hr ↦ ?_
  obtain ⟨hok, hsublist, hlookup, hsubscriptions⟩ := hr
  rw [if_pos hok]
  have hne : topicPubName name ≠ topicSubName name := (topicSubName_ne_topicPubName _ _).symm
  have htakes : r.1.TakesLists (topicPubName name) := by
    rw [Instance.TakesLists, hlookup _ hne]
    exact hpub.2
  refine (publishMetaTopic_hasList htakes (hsubscriptions ▸ hpub.1)).bind fun r' hr' ↦ ?_
  obtain ⟨hok', hpublist, hlookup', -⟩ := hr'
  rw [if_pos hok']
  have hsublist : r'.1.HasList (topicSubName name) := by
    rw [Instance.HasList, hlookup' _ hne.symm]
    exact hsublist
  have hfollows : Follows (.giving (fun _ ↦ False) (· = topicSubName name)) r'.1
      (updateTopicSubMetaTopic env r'.1 name) id fun _ ↦ True :=
    updateTopicSubMetaTopic_follows (.inl trivial) rfl (.inl trivial)
  refine (((updateTopicSubMetaTopic_mirrors hsublist.takesLists).and hfollows).mono
    (fun _ ↦ id) fun _ _ ↦ trivial).bind fun s hs ↦ ?_
  obtain ⟨hmirrors, hm, -⟩ := hs
  have hpublist : s.HasList (topicPubName name) := Moves.hasList hm hpublist
  have hfollows' : Follows (.giving (fun _ ↦ False) (· = topicPubName name)) s
      (updateTopicPubMetaTopic env s name) id fun _ ↦ True :=
    updateTopicPubMetaTopic_follows (.inl trivial) rfl (.inl trivial)
  refine (((updateTopicPubMetaTopic_mirrors hpublist.takesLists).and hfollows').mono
    (fun _ ↦ id) fun _ _ ↦ trivial).bind fun s' hs' ↦ ?_
  obtain ⟨hmirrors', hm', -⟩ := hs'
  refine ⟨Moves.mirrorsSubscribers hm' (Allow.not_asks_giving _ _) ?_ hmirrors, hmirrors'⟩
  exact topicSubName_ne_topicPubName _ _

/-- A new topic that is no meta topic has both its lists after its publication, and they say what
they should. -/
theorem publishTopicWith_mirrors
    {announce : Instance → Topic → Except Fault (Instance × Bool)} {name : Str}
    {value : NTDataValue} {properties : TopicProperties}
    (hannounce : ∀ {st t}, st.topics.lookup name = some (some t) →
      Follows .all st (announce st t.1) Prod.fst (Announced env name st))
    (hname : name ∉ st.topics) (hnmeta : name.isMeta = false) (h : st.ListsBegin env name) :
    Ends (publishTopicWith env announce st name value properties)
      (fun r ↦ r.1.MirrorsSubscribers name ∧ r.1.MirrorsPublishers name) fun _ ↦ True := by
  obtain ⟨haccepts, hsub, hpub⟩ := h hname hnmeta
  have hcreate : getOrCreateTopic st name value properties =
      (st.setTopic name ⟨{ name, value, properties }, rfl⟩,
        some ⟨{ name, value, properties }, rfl⟩) := by
    rw [getOrCreateTopic, AList.lookup_eq_none.2 hname]
  have hlookup : (st.setTopic name ⟨{ name, value, properties }, rfl⟩).topics.lookup name =
      some (some ⟨{ name, value, properties }, rfl⟩) := AList.lookup_insert _
  simp only [publishTopicWith, hcreate]
  refine (Ends.mono (hannounce hlookup) (fun _ ↦ id) fun _ _ ↦ trivial).bind fun r hr ↦ ?_
  obtain ⟨-, htopics, hsubscriptions, hsucceeds⟩ := hr
  rw [if_pos (hsucceeds haccepts), if_neg (by rw [hnmeta]; exact Bool.false_ne_true)]
  -- the lists have other names than the topic
  have htakes {name' : Str} (hmeta : name'.isMeta) (h : st.TakesLists name') :
      r.1.TakesLists name' := by
    have hne : name' ≠ name := by
      rintro rfl
      rw [hnmeta] at hmeta
      cases hmeta
    rw [Instance.TakesLists, htopics, Instance.topics_setTopic, AList.lookup_insert_ne hne]
    exact h
  have hsubscriptions : r.1.thisClient.subscriptions = st.thisClient.subscriptions :=
    hsubscriptions
  rw [← hsubscriptions] at hsub hpub
  exact publishMetaTopicsOf_mirrors ⟨hsub.1, htakes rfl hsub.2⟩ ⟨hpub.1, htakes rfl hpub.2⟩

/-- A topic of this name and meta topics may be made, and the lists of the topic get a value. -/
def Allow.publishing (name : Str) : Allow :=
  .giving (fun topic ↦ topic.isMeta ∨ topic = name) fun name' ↦
    name.isMeta = false ∧ (name' = topicSubName name ∨ name' = topicPubName name)

omit [FloatCodec] in
/-- Both lists of the topic may be made and written. -/
theorem Allow.metaTopicsOf_publishing {name : Str} (h : name.isMeta = false) :
    (publishing name).MetaTopicsOf name :=
  ⟨⟨.inl rfl, .inl rfl⟩, ⟨h, .inl rfl⟩, h, .inr rfl⟩

/-- The publication of a topic leaves the lists of the others alone. -/
theorem Follows.publication {α : Type} {x : Except Fault α} {final : α → Instance}
    {Q : α → Prop} {name : Str} {value : NTDataValue} {properties : TopicProperties}
    (hname : name ∉ st.topics)
    (h : Follows (.publishing name) (getOrCreateTopic st name value properties).1 x final Q)
    (hmirrors : name.isMeta = false → Ends x
      (fun a ↦ (final a).MirrorsSubscribers name ∧ (final a).MirrorsPublishers name) fun _ ↦ True)
    (hst : st.MirroredBut subs pubs) :
    Ends x (fun a ↦ (final a).MirroredBut subs pubs) fun _ ↦ True := by
  have hmirrors : Ends x (fun a ↦ name.isMeta = false →
      (final a).MirrorsSubscribers name ∧ (final a).MirrorsPublishers name) fun _ ↦ True := by
    cases hmeta : name.isMeta with
    | true => exact Ends.of_forall (fun _ h ↦ by cases h) fun _ ↦ trivial
    | false => exact (hmirrors hmeta).imp fun _ h _ ↦ h
  refine (Ends.and h hmirrors).mono (fun a ha ↦ ?_) fun _ _ ↦ trivial
  obtain ⟨⟨hm, -⟩, hname'⟩ := ha
  have hm : Moves (.publishing name) st (final a) :=
    (getOrCreateTopic_moves (K := .publishing name) st (.inr rfl) value properties).trans hm
  have hlists : ¬st.Lists name := fun h ↦ hname h.1
  -- the lists that are written are those of a topic that was not there
  refine Moves.mirroredBut hm (fun name' hassigns ↦ ?_) (fun topic _ hcreates hnmeta ↦ ?_) hst
  · rcases hassigns with ⟨-, rfl | rfl⟩
    · exact st.not_isList_topicSubName hlists
    · exact st.not_isList_topicPubName hlists
  · obtain rfl : topic = name := hcreates.resolve_left fun h ↦ by rw [hnmeta] at h; cases h
    obtain ⟨hsubs, hpubs⟩ := hname' hnmeta
    refine ⟨⟨?_, ?_⟩, .inr hsubs, .inr hpubs⟩
    · obtain ⟨_, hstores, -⟩ := hsubs
      exact hstores.hasList
    · obtain ⟨_, hstores, -⟩ := hpubs
      exact hstores.hasList

/-- A topic that a client publishes. -/
theorem publishTopicToPublisher_mirroredBut {name : Str} {value : NTDataValue} {pubuid : Int32}
    {properties : TopicProperties} (hname : name ∉ st.topics) (h : st.ListsBegin env name)
    (hst : st.MirroredBut subs pubs) :
    Ends (publishTopicToPublisher env st name value guid pubuid properties)
      (·.1.MirroredBut subs pubs) fun _ ↦ True :=
  Follows.publication hname
    (publishTopicToPublisher_follows (.inl trivial) Allow.metaTopicsOf_publishing)
    (fun hnmeta ↦ publishTopicWith_mirrors announceTopicToPublisher_follows hname hnmeta h) hst

/-- A topic that the local client publishes. -/
theorem publishTopicSelfSync_mirroredBut {name : Str} {value : NTDataValue}
    {properties : TopicProperties} (hname : name ∉ st.topics) (h : st.ListsBegin env name)
    (hst : st.MirroredBut subs pubs) :
    Ends (publishTopicSelfSync env st name value properties) (·.1.MirroredBut subs pubs)
      fun _ ↦ True := by
  refine Follows.publication hname
    (publishTopicSelfSync_follows (.inl trivial) Allow.metaTopicsOf_publishing (.inl trivial))
    (fun hnmeta ↦ ?_) hst
  refine (publishTopicWith_mirrors announceTopic_follows hname hnmeta h).bind fun r hr ↦ ?_
  split
  · split
    · exact hr
    · trivial
    · trivial
  · exact hr

/-- A client that publishes a topic, new or not, leaves the lists as they are. -/
theorem publishOrAnswer_mirroredBut {name : Str} {pubuid : Int32} {type : NTDataType}
    {properties : TopicProperties} (h : st.ListsBegin env name) (hst : st.MirroredBut subs pubs) :
    Ends (publishOrAnswer env guid name pubuid type properties st) (·.MirroredBut subs pubs)
      fun _ ↦ True := by
  unfold publishOrAnswer
  split
  · next hnone =>
    exact .map (publishTopicToPublisher_mirroredBut (AList.lookup_eq_none.1 hnone) h hst)
  · trivial
  · next t ht =>
    refine ((st.client_ends guid .clientNull).mono (fun _ ↦ id) fun _ _ ↦ trivial).bind
      fun d hd ↦ ?_
    have hm : Moves (.giving (fun _ ↦ False) fun _ ↦ False) st
        (st.setClient guid (d.announceTopicToPublisher t.1 pubuid)) :=
      .single (.setClient hd fun _ ↦ .announceToPublisher ht pubuid)
    exact hm.mirroredBut (fun _ h ↦ h.elim) (fun _ _ h ↦ h.elim) hst

/-- The topic is made if it is new, and then the list of its publishers is refreshed. -/
theorem handlePublish_mirrored {name : Str} {pubuid : Int32} {type : NTDataType}
    {properties : TopicProperties} (hst : st.Mirrored)
    (h : (Operation.message guid (.publish name pubuid type properties)).Refreshes env st) :
    Ends (handlePublish env guid name pubuid type properties st) Instance.Mirrored
      fun _ ↦ True := by
  obtain ⟨hbegin, hold⟩ := h
  unfold handlePublish
  refine ((st.client_ends guid .nullDeref).mono (fun _ ↦ id) fun _ _ ↦ trivial).bind fun d hd ↦ ?_
  have hstale : (st.setPublishers guid d
      (d.publishers.insert pubuid (some ⟨pubuid, name⟩))).MirroredBut
      (fun _ ↦ False) fun topic ↦ topic = name := by
    refine hst.stale (Instance.topics_setClient _ _ _) (fun topic _ ↦ .inr ?_) fun topic hlists ↦ ?_
    · exact Instance.subscriberNames_setClient hd rfl fun _ ↦ Iff.rfl
    · refine or_iff_not_imp_left.2 fun hne ↦ Instance.publisherEntries_setClient hd fun hd ↦ ?_
      refine ClientInfo.publishersOf_insert (fun heq ↦ hne heq.symm) fun old hlookup heq ↦ hne ?_
      rw [← hold d old hd hlookup (heq ▸ hlists), heq]
  have hbegin : (st.setPublishers guid d
      (d.publishers.insert pubuid (some ⟨pubuid, name⟩))).ListsBegin env name := by
    have hsubscriptions : (st.setPublishers guid d
        (d.publishers.insert pubuid (some ⟨pubuid, name⟩))).thisClient.subscriptions =
        st.thisClient.subscriptions := Instance.subscriptions_setClient hd rfl
    unfold Instance.ListsBegin Instance.TakesLists
    rw [hsubscriptions, Instance.setPublishers, Instance.topics_setClient]
    exact hbegin
  -- the list is stale from here to the refresh at the end
  refine (publishOrAnswer_mirroredBut hbegin hstale).bind fun st₂ hst₂ ↦ ?_
  refine (updateClientPubMetaTopic_mirroredBut guid hst₂).bind fun st₃ hst₃ ↦ ?_
  refine (updateTopicPubMetaTopic_refreshes hst₃).imp fun s hs ↦ ?_
  exact (hs.mono (fun _ _ ↦ id) fun _ _ h ↦ h.2 h.1).mirrored

/-- The local client is in no list, so only the lists of a new topic are concerned. -/
theorem localPublish_mirrored {name : Str} {pubuid : Int32} {type : NTDataType}
    {properties : TopicProperties} (hst : st.Mirrored) (h : st.ListsBegin env name) :
    Ends (localPublish env name pubuid type properties st) (·.1.Mirrored) fun _ ↦ True := by
  have hlocal {d : ClientData} : Instance.MirroredBut (fun _ ↦ False) (fun _ ↦ False)
      { st with thisClient := d } := hst.idle rfl rfl
  unfold localPublish
  refine Ends.bind (Q := fun r ↦ Instance.MirroredBut (fun _ ↦ False) (fun _ ↦ False) r.1) ?_
    fun r hr ↦ ?_
  · unfold publishOrLookUp
    split
    · next hnone => exact publishTopicSelfSync_mirroredBut (AList.lookup_eq_none.1 hnone) h hlocal
    · trivial
    · exact hst.idle rfl rfl
  · have hfollows : Follows (.giving (fun _ ↦ False) (· = serverPubName)) r.1
        (updateServerPubMetaTopic env r.1) id fun _ ↦ True :=
      updateServerPubMetaTopic_follows (.inl trivial) rfl (.inl trivial)
    refine (hfollows.mirroredBut (fun name' ↦ ?_) hr).bind fun s hs ↦ hs.mirrored
    rintro rfl
    exact r.1.not_isList_serverPubName

/-! ### Clients that come and go -/

omit [FloatCodec] in
/-- A new client asks for nothing yet. -/
theorem Instance.Mirrored.insertClient (hst : st.Mirrored) {name : Str} (h : st.Unlisted guid) :
    (st.insertClient guid { guid, name }).MirroredBut subs pubs := by
  have hlookup : (st.insertClient guid { guid, name }).clients.lookup guid =
      some (.remote { guid, name }) := AList.lookup_insert _
  refine hst.stale rfl (fun topic hlists ↦ .inr fun guid' ↦ ?_) fun topic hlists ↦
    .inr fun guid' ↦ ?_
  · obtain rfl | hne := eq_or_ne guid' guid
    · rw [(h topic hlists).1, subscriberNames_of_remote hlookup]
      exact if_neg fun hsubscribes ↦ by
        obtain ⟨uid, sub, hsub, -⟩ := ClientInfo.subscribesTo_iff.1 hsubscribes
        rw [AList.lookup_empty] at hsub
        cases hsub
    · rw [subscriberNames, subscriberNames, Instance.insertClient, AList.lookup_insert_ne hne]
  · obtain rfl | hne := eq_or_ne guid' guid
    · rw [(h topic hlists).2, publisherEntries_of_remote hlookup]
      exact .refl _
    · rw [publisherEntries, publisherEntries, Instance.insertClient, AList.lookup_insert_ne hne]

omit [FloatCodec] in
/-- A client that no list has an entry of may go. -/
theorem Instance.Mirrored.eraseClient (hst : st.Mirrored) (h : st.Unlisted guid) :
    (st.eraseClient guid).MirroredBut subs pubs := by
  have hnone (d : ClientData) : (st.eraseClient guid).clients.lookup guid ≠ some (.remote d) := by
    rw [Instance.eraseClient, AList.lookup_erase]
    exact fun h ↦ Option.some_ne_none _ h.symm
  refine hst.stale rfl (fun topic hlists ↦ .inr fun guid' ↦ ?_) fun topic hlists ↦
    .inr fun guid' ↦ ?_
  · obtain rfl | hne := eq_or_ne guid' guid
    · rw [(h topic hlists).1, (Instance.entries_of_not_remote hnone).1]
    · rw [subscriberNames, subscriberNames, Instance.eraseClient, AList.lookup_erase_ne hne]
  · obtain rfl | hne := eq_or_ne guid' guid
    · rw [(h topic hlists).2, (Instance.entries_of_not_remote hnone).2]
    · rw [publisherEntries, publisherEntries, Instance.eraseClient, AList.lookup_erase_ne hne]

/-- A client that comes asks for nothing yet. -/
theorem handleConnect_mirrored {entry : ClientEntry} {name : Str} (hst : st.Mirrored)
    (h : st.Unlisted entry.guid) :
    Ends (handleConnect env entry name st) Instance.Mirrored fun _ ↦ True := by
  refine (handleConnect_ends (K := .giving (·.isMeta) fun name ↦ name = clientsName ∨
    ∃ client, name = clientSubName client ∨ name = clientPubName client) (.inl trivial) (.inl rfl)
    (.inl trivial) (fun _ ↦ id)
    fun client ↦ ⟨.inr ⟨client, .inl rfl⟩, .inr ⟨client, .inr rfl⟩⟩).mono
    (fun s hs ↦ ?_) fun _ _ ↦ trivial
  obtain ⟨n, hm, -⟩ := hs
  refine (hm.mirroredBut (fun name' hassigns ↦ ?_) (fun topic _ hmeta hnmeta ↦ ?_)
    (hst.insertClient h)).mirrored
  · rcases hassigns with rfl | ⟨client, rfl | rfl⟩
    · exact Instance.not_isList_clientsName
    · exact Instance.not_isList_clientSubName client
    · exact Instance.not_isList_clientPubName client
  · have hmeta : topic.isMeta := hmeta
    rw [hnmeta] at hmeta
    cases hmeta

/-- A client that goes and was in no list. -/
theorem handleDisconnect_mirrored (hst : st.Mirrored) (hguid : guid ∈ st.clients)
    (h : st.Unlisted guid) :
    Ends (handleDisconnect env guid st) Instance.Mirrored fun _ ↦ True := by
  refine (handleDisconnect_ends (K := .giving (fun _ ↦ False) (· = clientsName)) (.inl trivial) rfl
    (.inl trivial) hguid).mono (fun s hs ↦ ?_) fun _ _ ↦ trivial
  refine (hs.2.mirroredBut (fun name ↦ ?_) (fun _ _ h ↦ h.elim) (hst.eraseClient h)).mirrored
  rintro rfl
  exact Instance.not_isList_clientsName

/-! ### Operations and runs -/

omit [FloatCodec] in
/-- What the operation makes and gives a value is all that moves under it make and give a value. -/
theorem Operation.permitted_giving {op : Operation} (hasks : ¬op.Asks false)
    (hpublished : st.Published) :
    op.Permitted (.giving op.Creates (op.Assigns st)) env st where
  accepts := .inl trivial
  asks self hself := by
    cases self with
    | true => rfl
    | false => exact absurd hself hasks
  subscribes _ _ := trivial
  assigns _ := id
  creates _ := id
  configures _ _ := trivial
  known := .inl trivial
  published _ _ _ _ hd hpub := .inl (hpublished.of_behind hd hpub)
  numbered := .inl trivial
  ready := .inl trivial

/-- An operation that gives no list a value and makes meta topics only, with what the clients with a
connection ask for as it is. -/
theorem Operation.mirrored_of_follows {op : Operation} (hclients : op.changesClients = false)
    (henabled : op.Enabled st) (hasks : ¬op.Asks false)
    (hassigns : ∀ name, op.Assigns st name → ¬st.IsList name)
    (hcreates : ∀ topic ∉ st.topics, op.Creates topic → topic.isMeta)
    (hpublished : st.Published) (hst : st.Mirrored) :
    Ends (op.run env st) Instance.Mirrored fun _ ↦ True := by
  have hpermitted := @permitted_giving env st op hasks hpublished
  refine Ends.mono (Operation.follows hclients henabled hpermitted) (fun s hs ↦ ?_)
    fun _ _ ↦ trivial
  refine (Moves.mirroredBut hs.1 hassigns (fun topic hnew hmade hnmeta ↦ ?_)
    (hst.idle rfl rfl)).mirrored
  have hmeta := hcreates topic hnew hmade
  rw [hnmeta] at hmeta
  cases hmeta

/-- An operation that forgets no list keeps them. -/
theorem Operation.Refreshes.mirrored {op : Operation} (h : op.Refreshes env st)
    (henabled : op.Enabled st) (hpublished : st.Published) (hst : st.Mirrored) :
    Ends (op.run env st) Instance.Mirrored fun _ ↦ True := by
  have hnew {topic name : Str} (h : name.isMeta ∨ name ∈ st.topics) (htopic : topic ∉ st.topics)
      (hmade : topic.isMeta ∨ topic = name) : topic.isMeta := by
    rcases hmade with hmeta | rfl
    · exact hmeta
    · exact h.resolve_right htopic
  cases op with
  | message guid m =>
    cases m with
    | subscribe => exact handleSubscribe_mirrored hst h
    | publish => exact handlePublish_mirrored hst h
    | unsubscribe => exact handleUnsubscribe_mirrored hst
    | unpublish => exact handleUnpublish_mirrored hst
    | setproperties =>
      exact mirrored_of_follows rfl henabled id (fun _ h ↦ h.elim) (fun _ ↦ hnew h) hpublished hst
    | unknown => exact hst
  | connect => exact handleConnect_mirrored hst h
  | disconnect => exact handleDisconnect_mirrored hst henabled h
  | publish => exact .map (localPublish_mirrored hst h)
  | setProperties =>
    exact mirrored_of_follows rfl henabled id (fun _ h ↦ h.elim) (fun _ ↦ hnew h) hpublished hst
  | valueUpdate guid m =>
    refine mirrored_of_follows rfl henabled id (fun name ↦ ?_) (fun _ _ ↦ id) hpublished hst
    rintro ⟨d, pub, hd, hpub, rfl⟩
    exact h d pub hd hpub
  | updateTopic id value time =>
    refine mirrored_of_follows rfl henabled (fun h ↦ h) (fun name ↦ ?_) (fun _ _ h ↦ h)
      hpublished hst
    rintro ⟨pub, hpub, rfl⟩
    exact h pub hpub
  | subscribe | unsubscribe =>
    refine mirrored_of_follows rfl henabled Bool.false_ne_true (fun name ↦ ?_) (fun _ _ ↦ id)
      hpublished hst
    rintro rfl
    exact Instance.not_isList_serverSubName
  | unpublish =>
    refine mirrored_of_follows rfl henabled Bool.false_ne_true (fun name ↦ ?_) (fun _ _ ↦ id)
      hpublished hst
    rintro rfl
    exact Instance.not_isList_serverPubName
  | textEnd | flush =>
    exact mirrored_of_follows rfl henabled id (fun _ h ↦ h.elim) (fun _ _ ↦ id) hpublished hst

/-- In a run whose operations forget no list, the lists of every topic mirror what the clients with
a connection ask for. -/
theorem run_mirrored (start : Env) (events : List (Env × Event))
    (hrefreshes : ∀ st, startServer start = .ok st →
      Guarded step (Event.Meets fun env st op ↦ op.Refreshes env st) st events) :
    Ends (run start events) Instance.Mirrored fun _ ↦ True := by
  refine (run_ends (I := fun st ↦ st.Mirrored ∧ st.Published) (E := fun _ ↦ True)
    (fun st st' ht hc hs hI ↦ ?_) (fun env st op hI henabled hG ↦ ?_) trivial ?_ hrefreshes).imp
    fun _ h ↦ h.1
  · refine ⟨(hI.1.idle ht hc).mirrored, ?_⟩
    exact Changes.published (K := .all) (.single (.idle ht hc hs)) hI.2
  · have hI' : Instance.Mirrored { st with mutexFree := false } := (hI.1.idle rfl rfl).mirrored
    refine (((hG.taken false).mirrored (henabled.taken false) hI.2 hI').and
      (Operation.run_ends (K := .all) (henabled.taken false) (.all _ _ _))).mono (fun s hs ↦ ?_)
      fun _ _ ↦ trivial
    exact ⟨hs.1, hs.2.published hI.2⟩
  · have hstart : Follows (.giving (·.isMeta) fun _ ↦ True) .initial (startServer start) id _ :=
      startServer_follows (.inl trivial) (fun _ ↦ trivial) fun _ ↦ id
    refine Ends.mono hstart (fun s hs ↦ ⟨fun topic htopic hnmeta ↦ ?_, ?_⟩) fun _ _ ↦ trivial
    · have hmeta : topic.isMeta := (hs.1.creates htopic).resolve_left (AList.notMem_empty _)
      rw [hnmeta] at hmeta
      cases hmeta
    · exact (Moves.changes hs.1).published Instance.initial_published

end

set_option maxRecDepth 4000 in
/-- A client connects and publishes a topic. -/
theorem run_mirrored_sample :
    Ends (@run .fractional {} [({}, .connect (.sample 1 "a")),
        ({}, .text 1 [.publish (ascii "/x") 2 .int {}])])
      Instance.Mirrored fun _ ↦ True := by
  refine @run_mirrored .fractional _ _ fun st hst ↦ ⟨fun _ _ _ _ topic _ ↦ ?_, fun s hs ↦ ?_⟩
  · have hstarted : Ends (@startServer .fractional {}) (fun s ↦ s.remote 1 = none)
        fun _ ↦ False := by
      decide +kernel
    have hnone : st.remote 1 = none := hstarted.of_ok hst
    refine Instance.entries_of_not_remote fun d hd ↦ ?_
    have hsome : st.remote 1 = some d := Instance.remote_eq_some.2 hd
    rw [hnone] at hsome
    cases hsome
  · have hconnected : Ends (@run .fractional {} [({}, .connect (.sample 1 "a"))])
        (fun s ↦ (∀ d ∈ s.remote 1, d.publishers.lookup 2 = none) ∧
          s.topics.lookup (topicSubName (ascii "/x")) = none ∧
          s.topics.lookup (topicPubName (ascii "/x")) = none) fun _ ↦ False := by
      decide +kernel
    obtain ⟨hpublishers, hsub, hpub⟩ :=
      hconnected.of_ok (@run_singleton .fractional _ _ _ _ hst hs)
    have haccepts (subscriptions) (name : Str) : Env.AcceptsTopic {} subscriptions name := by
      rintro - callback hcallback
      cases hcallback
    have htakes {name : Str} (h : s.topics.lookup name = none) : s.TakesLists name := by
      intro t ht
      rw [h] at ht
      cases ht
    refine ⟨fun _ _ ↦ ⟨⟨fun _ _ ↦ ⟨haccepts _ _, ⟨haccepts _ _, htakes hsub⟩,
      haccepts _ _, htakes hpub⟩, fun d old hd hold ↦ ?_⟩, fun _ _ ↦ ⟨trivial, fun _ _ ↦ trivial⟩⟩,
      fun _ _ ↦ trivial⟩
    rw [hpublishers d (Instance.remote_eq_some.2 hd)] at hold
    cases hold

set_option maxRecDepth 4000 in
/-- A client publishes a topic and loses its connection. The list of the topic's publishers still
names it. -/
theorem disconnect_forgets_lists :
    ¬∀ (codec : FloatCodec) (start : Env) (events : List (Env × Event)),
      Ends (@run codec start events) Instance.Mirrored fun _ ↦ True := by
  intro h
  have hleft : Ends (@run .fractional {} [({}, .connect (.sample 1 "a")),
      ({}, .text 1 [.publish (ascii "/x") 2 .int {}]), ({}, .disconnect 1)])
      (fun s ↦ ascii "/x" ∈ s.topics ∧ s.publishersOf (ascii "/x") = [] ∧
        ((s.topics.lookup (topicPubName (ascii "/x"))).join.map (·.1.value.bin)) =
          some (Msgpack.packArray TopicPublisher.pack [⟨ascii "a@1", 2⟩]))
      fun _ ↦ False := by
    decide +kernel
  refine (h .fractional {} _).incompatible hleft (fun s hmirrored hs ↦ ?_) fun _ _ ↦ id
  obtain ⟨htopic, hnone, hbin⟩ := hs
  obtain ⟨-, pubs, ⟨t, ht, -, hpacked⟩, hperm⟩ := hmirrored _ htopic (by decide)
  rw [hnone, List.perm_nil] at hperm
  rw [ht] at hbin
  have hbin : t.1.value.bin = Msgpack.packArray TopicPublisher.pack [⟨ascii "a@1", 2⟩] :=
    Option.some.inj hbin
  rw [hpacked, hperm] at hbin
  exact absurd hbin (by decide)

end NetworkTables
