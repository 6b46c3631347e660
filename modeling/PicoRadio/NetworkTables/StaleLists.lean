import PicoRadio.NetworkTables.MetaTopicLists

/-!
# Stale lists

When a client asks for something else, the lists of the topics that this concerns are stale until
they are refreshed. `MirroredBut subs pubs` says of a state that every list says what it should, but
the lists of the subscribers of `subs` and of the publishers of `pubs`. A change of the clients
makes lists stale (`Mirrored.stale`), a refresh takes a topic off `subs` or `pubs`, and moves that
give no list a value leave it at that.
-/

namespace NetworkTables

open Relation

/-! ### Names of lists -/

/-- Different topics have different lists. -/
theorem topicSubName_inj {topic topic' : Str} (h : topicSubName topic = topicSubName topic') :
    topic = topic' :=
  List.append_cancel_left h

/-- The same of the publishers. -/
theorem topicPubName_inj {topic topic' : Str} (h : topicPubName topic = topicPubName topic') :
    topic = topic' :=
  List.append_cancel_left h

/-- The first three characters tell the records of the server apart. -/
theorem ne_of_take {name name' : Str} (h : name.take 3 ≠ name'.take 3) : name ≠ name' :=
  fun heq ↦ h (congrArg _ heq)

/-- No list is both. -/
theorem topicSubName_ne_topicPubName (topic topic' : Str) :
    topicSubName topic ≠ topicPubName topic' :=
  ne_of_take (show ascii "$su" ≠ ascii "$pu" by decide)

namespace Instance

/-- The topic should have a list of its subscribers and one of its publishers: it is there, and is
no meta topic. -/
def Lists (st : Instance) (topic : Str) : Prop :=
  topic ∈ st.topics ∧ topic.isMeta = false

/-- The name is that of such a list. -/
def IsList (st : Instance) (name : Str) : Prop :=
  ∃ topic, st.Lists topic ∧ (name = topicSubName topic ∨ name = topicPubName topic)

variable {st : Instance} {name : Str}

/-- A list is known by the beginning of its name. -/
theorem IsList.take (h : st.IsList name) :
    name.take 3 = ascii "$su" ∨ name.take 3 = ascii "$pu" := by
  obtain ⟨topic, -, rfl | rfl⟩ := h
  · exact .inl rfl
  · exact .inr rfl

/-- The other records of the server are no lists. -/
theorem not_isList_of_take (p : Str) (hname : name.take 3 = p)
    (h : p ≠ ascii "$su" ∧ p ≠ ascii "$pu") : ¬st.IsList name := by
  intro hlist
  rcases hlist.take with heq | heq
  · exact h.1 (hname.symm.trans heq)
  · exact h.2 (hname.symm.trans heq)

/-- The names of the clients are no list of a topic. -/
theorem not_isList_clientsName : ¬st.IsList clientsName :=
  not_isList_of_take (ascii "$cl") rfl (by decide)

/-- Nor are the subscriptions of the local client. -/
theorem not_isList_serverSubName : ¬st.IsList serverSubName :=
  not_isList_of_take (ascii "$se") rfl (by decide)

/-- Nor are its publishers. -/
theorem not_isList_serverPubName : ¬st.IsList serverPubName :=
  not_isList_of_take (ascii "$se") rfl (by decide)

/-- Nor are those of another client. -/
theorem not_isList_clientSubName (client : Str) : ¬st.IsList (clientSubName client) :=
  not_isList_of_take (ascii "$cl") rfl (by decide)

/-- Nor are its publishers. -/
theorem not_isList_clientPubName (client : Str) : ¬st.IsList (clientPubName client) :=
  not_isList_of_take (ascii "$cl") rfl (by decide)

/-- The lists of a topic that has none yet. -/
theorem not_isList_topicSubName (h : ¬st.Lists name) : ¬st.IsList (topicSubName name) := by
  rintro ⟨topic, htopic, heq | heq⟩
  · exact h (topicSubName_inj heq ▸ htopic)
  · exact topicSubName_ne_topicPubName _ _ heq

/-- What is no topic with lists has none. -/
theorem not_isList_topicPubName (h : ¬st.Lists name) : ¬st.IsList (topicPubName name) := by
  rintro ⟨topic, htopic, heq | heq⟩
  · exact topicSubName_ne_topicPubName _ _ heq.symm
  · exact h (topicPubName_inj heq ▸ htopic)

end Instance

/-! ### Stale lists -/

namespace Instance

/-- The lists of the topic are there, and say what they should unless they are to be refreshed. -/
structure MirrorsBut (subs pubs : Str → Prop) (st : Instance) (topic : Str) : Prop where
  lists : st.HasList (topicSubName topic) ∧ st.HasList (topicPubName topic)
  subscribers : subs topic ∨ st.MirrorsSubscribers topic
  publishers : pubs topic ∨ st.MirrorsPublishers topic

/-- Every list says what it should, but the lists of the subscribers of `subs` and of the publishers
of `pubs` are still to be refreshed. -/
def MirroredBut (subs pubs : Str → Prop) (st : Instance) : Prop :=
  ∀ topic, st.Lists topic → st.MirrorsBut subs pubs topic

variable {st s : Instance} {subs pubs : Str → Prop} {topic : Str}

/-- A topic that stores a list can hold one. -/
theorem Stores.hasList {name : Str} {packed : Bytes} (h : st.Stores name packed) :
    st.HasList name := by
  obtain ⟨t, ht, htype, -⟩ := h
  exact ⟨t, ht, htype⟩

/-- Whatever is there can hold a list. -/
theorem HasList.takesLists {name : Str} (h : st.HasList name) : st.TakesLists name := by
  obtain ⟨t, ht, htype⟩ := h
  intro t' ht'
  rw [ht] at ht'
  cases ht'
  exact htype

/-- Which lists are stale matters for the topics that have lists only. -/
theorem MirroredBut.mono {subs' pubs' : Str → Prop} (h : st.MirroredBut subs pubs)
    (hsubs : ∀ topic, st.Lists topic → subs topic → subs' topic)
    (hpubs : ∀ topic, st.Lists topic → pubs topic → pubs' topic) : st.MirroredBut subs' pubs' :=
  fun topic hlists ↦ ⟨(h topic hlists).lists, (h topic hlists).subscribers.imp_left
    (hsubs topic hlists), (h topic hlists).publishers.imp_left (hpubs topic hlists)⟩

/-- Nothing is left to be refreshed. -/
theorem MirroredBut.mirrored (h : st.MirroredBut (fun _ ↦ False) fun _ ↦ False) : st.Mirrored :=
  fun topic htopic hnmeta ↦
    ⟨(h topic ⟨htopic, hnmeta⟩).subscribers.resolve_left id,
      (h topic ⟨htopic, hnmeta⟩).publishers.resolve_left id⟩

/-- After a change of the clients that leaves the topics alone, the lists are stale of the topics
for which a client has another entry now. -/
theorem Mirrored.stale (h : st.Mirrored) (htopics : s.topics = st.topics)
    (hsubs : ∀ topic, st.Lists topic →
      subs topic ∨ ∀ guid, s.subscriberNames topic guid = st.subscriberNames topic guid)
    (hpubs : ∀ topic, st.Lists topic →
      pubs topic ∨ ∀ guid, (s.publisherEntries topic guid).Perm (st.publisherEntries topic guid)) :
    s.MirroredBut subs pubs := by
  intro topic hlists
  rw [Lists, htopics] at hlists
  obtain ⟨⟨names, hnames, hsub⟩, entries, hentries, hpub⟩ := h topic hlists.1 hlists.2
  have hstored {name : Str} {packed : Bytes} (h : st.Stores name packed) :
      s.Stores name packed := by
    rwa [Stores, htopics]
  refine ⟨⟨(hstored hnames).hasList, (hstored hentries).hasList⟩, ?_, ?_⟩
  · refine (hsubs topic hlists).imp_right fun heq ↦ ⟨names, hstored hnames, hsub.trans ?_⟩
    exact (subscribersOf_perm heq).symm
  · refine (hpubs topic hlists).imp_right fun heq ↦ ⟨entries, hstored hentries, hpub.trans ?_⟩
    exact (publishersOf_perm heq).symm

/-- The topics and the clients are all that matters. -/
theorem Mirrored.idle (h : st.Mirrored) (htopics : s.topics = st.topics)
    (hclients : s.clients = st.clients) : s.MirroredBut subs pubs := by
  refine h.stale htopics (fun topic _ ↦ .inr fun guid ↦ ?_) fun topic _ ↦ .inr fun guid ↦ ?_
  · rw [subscriberNames, hclients]
    rfl
  · rw [publisherEntries, hclients]
    exact .refl _

end Instance

/-! ### What a client asks for -/

/-- A subscription that is not the one under this uid matches the topic. -/
def ClientInfo.SubscribesBeside (d : ClientInfo) (uid : Int32) (topic : Str) : Prop :=
  ∃ uid' sub, uid' ≠ uid ∧ d.subscriptions.lookup uid' = some (some sub) ∧ sub.isSubscribed topic

section

variable {d : ClientInfo} {uid : Int32} {topic : Str}

/-- Among the subscriptions is one under the uid and those beside it. -/
theorem ClientInfo.subscribesTo_iff_beside (d : ClientInfo) (uid : Int32) : d.SubscribesTo topic ↔
    (∃ sub, d.subscriptions.lookup uid = some (some sub) ∧ sub.isSubscribed topic) ∨
      d.SubscribesBeside uid topic := by
  rw [subscribesTo_iff]
  constructor
  · rintro ⟨uid', sub, hsub, hmatch⟩
    by_cases heq : uid' = uid
    · exact .inl ⟨sub, heq ▸ hsub, hmatch⟩
    · exact .inr ⟨uid', sub, heq, hsub, hmatch⟩
  · rintro (⟨sub, hsub, hmatch⟩ | ⟨uid', sub, -, hsub, hmatch⟩)
    · exact ⟨uid, sub, hsub, hmatch⟩
    · exact ⟨uid', sub, hsub, hmatch⟩

/-- What is beside a uid does not depend on it. -/
theorem ClientInfo.subscribesBeside_congr {d' : ClientInfo}
    (h : ∀ uid' ≠ uid, d'.subscriptions.lookup uid' = d.subscriptions.lookup uid') :
    d'.SubscribesBeside uid topic ↔ d.SubscribesBeside uid topic := by
  refine exists_congr fun uid' ↦ exists_congr fun sub ↦ and_congr_right fun hne ↦ ?_
  rw [h uid' hne]

/-- A subscription under a uid matters for the topics that it matches or the old one did. -/
theorem ClientInfo.subscribesTo_insert {sub : Subscription} (hsub : ¬sub.isSubscribed topic)
    (hold : ∀ old, d.subscriptions.lookup uid = some (some old) → old.isSubscribed topic →
      d.SubscribesBeside uid topic) :
    ClientInfo.SubscribesTo { d with subscriptions := d.subscriptions.insert uid (some sub) }
      topic ↔ d.SubscribesTo topic := by
  rw [subscribesTo_iff_beside _ uid, subscribesTo_iff_beside d uid,
    subscribesBeside_congr fun uid' hne ↦ AList.lookup_insert_ne hne]
  constructor
  · rintro (⟨sub', hsub', hmatch⟩ | hbeside)
    · rw [AList.lookup_insert] at hsub'
      cases hsub'
      exact absurd hmatch hsub
    · exact .inr hbeside
  · rintro (⟨old, hlookup, hmatch⟩ | hbeside)
    · exact .inr (hold old hlookup hmatch)
    · exact .inr hbeside

/-- Without a subscription, the topics that it matched are no longer subscribed through it. -/
theorem ClientInfo.subscribesTo_erase {old : Subscription}
    (hlookup : d.subscriptions.lookup uid = some (some old)) (hold : ¬old.isSubscribed topic) :
    ClientInfo.SubscribesTo { d with subscriptions := d.subscriptions.erase uid } topic ↔
      d.SubscribesTo topic := by
  rw [subscribesTo_iff_beside _ uid, subscribesTo_iff_beside d uid,
    subscribesBeside_congr fun uid' hne ↦ AList.lookup_erase_ne hne]
  refine or_congr_left (iff_of_false ?_ ?_)
  · rintro ⟨sub, hsub, -⟩
    rw [AList.lookup_erase] at hsub
    cases hsub
  · rintro ⟨sub, hsub, hmatch⟩
    rw [hlookup] at hsub
    cases hsub
    exact hold hmatch

/-- A publisher under a uid matters for its own topic and for that of the old one. -/
theorem ClientInfo.publishersOf_insert {pub : Publisher} (hpub : pub.topic ≠ topic)
    (hold : ∀ old, d.publishers.lookup uid = some (some old) → old.topic ≠ topic) :
    (ClientInfo.publishersOf { d with publishers := d.publishers.insert uid (some pub) }
      topic).Perm (d.publishersOf topic) := by
  refine publishersOf_perm fun uid' ↦ ?_
  rw [publisherEntries, publisherEntries, AList.lookup_insert_ite]
  by_cases heq : uid' = uid
  · rw [if_pos heq, heq]
    show (if pub.topic = topic then _ else []) = _
    rw [if_neg hpub]
    split
    · next old hlookup => rw [if_neg (hold old hlookup)]
    · rfl
    · rfl
  · rw [if_neg heq]

/-- Without a publisher, only its topic is published by one less. -/
theorem ClientInfo.publishersOf_erase {old : Publisher}
    (hlookup : d.publishers.lookup uid = some (some old)) (hold : old.topic ≠ topic) :
    (ClientInfo.publishersOf { d with publishers := d.publishers.erase uid } topic).Perm
      (d.publishersOf topic) := by
  refine publishersOf_perm fun uid' ↦ ?_
  rw [publisherEntries, publisherEntries, AList.lookup_erase_ite]
  by_cases heq : uid' = uid
  · rw [if_pos heq, heq, hlookup]
    exact (if_neg hold).symm
  · rw [if_neg heq]

end

namespace Instance

variable {st : Instance} {topic : Str} {guid : Guid} {d d' : ClientData}

/-- The entries of the lists of subscribers change only if a client with a connection begins or
ceases to subscribe to the topic. -/
theorem subscriberNames_setClient (hd : st.Behind guid d) (hname : d'.name = d.name)
    (h : st.clients.lookup guid = some (.remote d) →
      (d'.SubscribesTo topic ↔ d.SubscribesTo topic)) (guid' : Guid) :
    (st.setClient guid d').subscriberNames topic guid' = st.subscriberNames topic guid' := by
  rcases hd with ⟨hself, rfl⟩ | hd
  · rw [setClient_of_self hself]
    rfl
  · rw [setClient_of_remote hd]
    by_cases heq : guid' = guid
    · rw [heq, subscriberNames_of_remote hd, subscriberNames_of_remote (AList.lookup_insert _)]
      simp only [h hd, hname]
    · rw [subscriberNames, subscriberNames, AList.lookup_insert_ne heq]

/-- The entries stay, up to order, if the client publishes as before. -/
theorem publisherEntries_setClient (hd : st.Behind guid d)
    (h : st.clients.lookup guid = some (.remote d) →
      (d'.publishersOf topic).Perm (d.publishersOf topic)) (guid' : Guid) :
    ((st.setClient guid d').publisherEntries topic guid').Perm
      (st.publisherEntries topic guid') := by
  rcases hd with ⟨hself, rfl⟩ | hd
  · rw [setClient_of_self hself]
    exact .refl _
  · rw [setClient_of_remote hd]
    by_cases heq : guid' = guid
    · rw [heq, publisherEntries_of_remote hd, publisherEntries_of_remote (AList.lookup_insert _)]
      exact h hd
    · rw [publisherEntries, publisherEntries, AList.lookup_insert_ne heq]

end Instance

/-! ### Moves -/

section

variable [FloatCodec] {env : Env} {st s : Instance} {subs pubs creates assigns : Str → Prop}

/-- Moves keep the lists of a topic if they give them no value. -/
theorem Moves.mirrorsBut {topic : Str} (h : Moves (.giving creates assigns) st s)
    (hassigns : ¬assigns (topicSubName topic) ∧ ¬assigns (topicPubName topic))
    (hst : st.MirrorsBut subs pubs topic) : s.MirrorsBut subs pubs topic where
  lists := ⟨h.hasList hst.lists.1, h.hasList hst.lists.2⟩
  subscribers := hst.subscribers.imp_right
    (h.mirrorsSubscribers (Allow.not_asks_giving _ _) hassigns.1)
  publishers := hst.publishers.imp_right
    (h.mirrorsPublishers (Allow.not_asks_giving _ _) hassigns.2)

/-- Moves keep the lists if they give none of them a value and the topics they make have theirs. -/
theorem Moves.mirroredBut (h : Moves (.giving creates assigns) st s)
    (hassigns : ∀ name, assigns name → ¬st.IsList name)
    (hnew : ∀ topic ∉ st.topics, creates topic → topic.isMeta = false →
      s.MirrorsBut subs pubs topic)
    (hst : st.MirroredBut subs pubs) : s.MirroredBut subs pubs := by
  rintro topic ⟨htopic, hnmeta⟩
  by_cases hold : topic ∈ st.topics
  · have hlists : st.Lists topic := ⟨hold, hnmeta⟩
    exact h.mirrorsBut ⟨fun hsub ↦ hassigns _ hsub ⟨topic, hlists, .inl rfl⟩,
      fun hpub ↦ hassigns _ hpub ⟨topic, hlists, .inr rfl⟩⟩ (hst topic hlists)
  · exact hnew topic hold ((h.creates htopic).resolve_left hold) hnmeta

/-- A program that makes no topic and gives no list a value. -/
theorem Follows.mirroredBut {α : Type} {x : Except Fault α} {final : α → Instance} {Q : α → Prop}
    (h : Follows (.giving (fun _ ↦ False) assigns) st x final Q)
    (hassigns : ∀ name, assigns name → ¬st.IsList name) (hst : st.MirroredBut subs pubs) :
    Ends x (fun a ↦ (final a).MirroredBut subs pubs) fun _ ↦ True := by
  refine Ends.mono h (fun a ha ↦ ?_) fun _ _ ↦ trivial
  exact Moves.mirroredBut ha.1 hassigns (fun _ _ hnone ↦ hnone.elim) hst

omit [FloatCodec] in
/-- A program that follows the pointer of a client first gets no further without the client. -/
theorem Ends.of_client {β : Type} {guid : Guid} {fault : Fault} {f : ClientData → Except Fault β}
    {Q : β → Prop}
    (h : guid ∈ st.clients → Ends (st.client guid fault >>= f) Q fun _ ↦ True) :
    Ends (st.client guid fault >>= f) Q fun _ ↦ True := by
  by_cases hguid : guid ∈ st.clients
  · exact h hguid
  · refine ((st.client_ends guid fault).mono (fun _ ↦ id) fun _ _ ↦ trivial).bind fun d hd ↦ ?_
    exact absurd (hd.elim (fun hself ↦ AList.mem_of_lookup hself.1) AList.mem_of_lookup) hguid

/-- Refreshing the records of a client leaves the lists alone. -/
theorem updateClientSubMetaTopic_mirroredBut (guid : Guid) (hst : st.MirroredBut subs pubs) :
    Ends (updateClientSubMetaTopic env st guid) (·.MirroredBut subs pubs) fun _ ↦ True := by
  refine Ends.of_client fun hguid ↦ ?_
  have hfollows : Follows (.giving (fun _ ↦ False) fun name ↦ ∃ client, name = clientSubName client)
      st (updateClientSubMetaTopic env st guid) id fun _ ↦ True :=
    updateClientSubMetaTopic_follows (.inl trivial) hguid (fun d _ ↦ ⟨d.name, rfl⟩)
      fun _ _ ↦ .inl trivial
  refine hfollows.mirroredBut (fun name ↦ ?_) hst
  rintro ⟨client, rfl⟩
  exact st.not_isList_clientSubName client

@[inherit_doc updateClientSubMetaTopic_mirroredBut]
theorem updateClientPubMetaTopic_mirroredBut (guid : Guid) (hst : st.MirroredBut subs pubs) :
    Ends (updateClientPubMetaTopic env st guid) (·.MirroredBut subs pubs) fun _ ↦ True := by
  refine Ends.of_client fun hguid ↦ ?_
  have hfollows : Follows (.giving (fun _ ↦ False) fun name ↦ ∃ client, name = clientPubName client)
      st (updateClientPubMetaTopic env st guid) id fun _ ↦ True :=
    updateClientPubMetaTopic_follows (.inl trivial) hguid (fun d _ ↦ ⟨d.name, rfl⟩)
      fun _ _ ↦ .inl trivial
  refine hfollows.mirroredBut (fun name ↦ ?_) hst
  rintro ⟨client, rfl⟩
  exact st.not_isList_clientPubName client

/-! ### Refreshing the lists of one topic -/

/-- The list of the topic's subscribers is no longer stale, and no topic is new. -/
theorem updateTopicSubMetaTopic_refreshes {name : Str} (hst : st.MirroredBut subs pubs) :
    Ends (updateTopicSubMetaTopic env st name)
      (fun s ↦ s.MirroredBut (fun topic ↦ subs topic ∧ topic ≠ name) pubs ∧
        ∀ topic ∈ s.topics, topic ∈ st.topics) fun _ ↦ True := by
  have hfollows : Follows (.giving (fun _ ↦ False) (· = topicSubName name)) st
      (updateTopicSubMetaTopic env st name) id fun _ ↦ True :=
    updateTopicSubMetaTopic_follows (.inl trivial) rfl (.inl trivial)
  have hmirrors : Ends (updateTopicSubMetaTopic env st name)
      (fun s ↦ st.Lists name → s.MirrorsSubscribers name) fun _ ↦ True := by
    by_cases hname : st.Lists name
    · exact (updateTopicSubMetaTopic_mirrors (hst name hname).lists.1.takesLists).imp
        fun _ h _ ↦ h
    · exact Ends.of_forall (fun _ h ↦ absurd h hname) fun _ ↦ trivial
  refine (Ends.and hfollows hmirrors).mono (fun s hs ↦ ?_) fun _ _ ↦ trivial
  obtain ⟨⟨hm, -⟩, hname⟩ := hs
  have hm : Moves (.giving (fun _ ↦ False) (· = topicSubName name)) st s := hm
  have hold (topic : Str) (htopic : topic ∈ s.topics) : topic ∈ st.topics :=
    (hm.creates htopic).resolve_right id
  refine ⟨fun topic hlists ↦ ?_, hold⟩
  have hlists : st.Lists topic := ⟨hold topic hlists.1, hlists.2⟩
  have hpub : ¬topicPubName topic = topicSubName name :=
    fun h ↦ topicSubName_ne_topicPubName _ _ h.symm
  obtain rfl | hne := eq_or_ne topic name
  · exact ⟨⟨hm.hasList (hst topic hlists).lists.1, hm.hasList (hst topic hlists).lists.2⟩,
      .inr (hname hlists), (hst topic hlists).publishers.imp_right
        (hm.mirrorsPublishers (Allow.not_asks_giving _ _) hpub)⟩
  · have hkept := hm.mirrorsBut ⟨fun h ↦ hne (topicSubName_inj h), hpub⟩ (hst topic hlists)
    exact ⟨hkept.lists, hkept.subscribers.imp_left fun h ↦ ⟨h, hne⟩, hkept.publishers⟩

/-- The list of the topic's publishers is no longer stale. -/
theorem updateTopicPubMetaTopic_refreshes {name : Str} (hst : st.MirroredBut subs pubs) :
    Ends (updateTopicPubMetaTopic env st name)
      (·.MirroredBut subs fun topic ↦ pubs topic ∧ topic ≠ name) fun _ ↦ True := by
  have hfollows : Follows (.giving (fun _ ↦ False) (· = topicPubName name)) st
      (updateTopicPubMetaTopic env st name) id fun _ ↦ True :=
    updateTopicPubMetaTopic_follows (.inl trivial) rfl (.inl trivial)
  have hmirrors : Ends (updateTopicPubMetaTopic env st name)
      (fun s ↦ st.Lists name → s.MirrorsPublishers name) fun _ ↦ True := by
    by_cases hname : st.Lists name
    · exact (updateTopicPubMetaTopic_mirrors (hst name hname).lists.2.takesLists).imp
        fun _ h _ ↦ h
    · exact Ends.of_forall (fun _ h ↦ absurd h hname) fun _ ↦ trivial
  refine (Ends.and hfollows hmirrors).mono (fun s hs topic hlists ↦ ?_) fun _ _ ↦ trivial
  obtain ⟨⟨hm, -⟩, hname⟩ := hs
  have hm : Moves (.giving (fun _ ↦ False) (· = topicPubName name)) st s := hm
  have hlists : st.Lists topic := ⟨(hm.creates hlists.1).resolve_right id, hlists.2⟩
  have hsub : ¬topicSubName topic = topicPubName name := topicSubName_ne_topicPubName _ _
  obtain rfl | hne := eq_or_ne topic name
  · exact ⟨⟨hm.hasList (hst topic hlists).lists.1, hm.hasList (hst topic hlists).lists.2⟩,
      (hst topic hlists).subscribers.imp_right
        (hm.mirrorsSubscribers (Allow.not_asks_giving _ _) hsub), .inr (hname hlists)⟩
  · have hkept := hm.mirrorsBut ⟨hsub, fun h ↦ hne (topicPubName_inj h)⟩ (hst topic hlists)
    exact ⟨hkept.lists, hkept.subscribers, hkept.publishers.imp_left fun h ↦ ⟨h, hne⟩⟩

/-- The lists of the topics that the subscription matches are refreshed. -/
theorem updateTopicSubMetaTopics_mirrored {sub : Subscription}
    (hst : st.MirroredBut (fun topic ↦ sub.isSubscribed topic) fun _ ↦ False) :
    Ends (updateTopicSubMetaTopics env st sub) Instance.Mirrored fun _ ↦ True := by
  -- the topics that have been visited are no longer stale
  refine (Ends.foldlM_visited (E := fun _ ↦ True)
    (I := fun done s ↦ s.MirroredBut (fun topic ↦ sub.isSubscribed topic ∧ topic ∉ done)
      (fun _ ↦ False) ∧ ∀ topic ∈ s.topics, topic ∈ st.topics)
    (fun done name rest _ s hs ↦ ?_) ⟨hst.mono (fun _ _ h ↦ ⟨h, List.not_mem_nil⟩) fun _ _ ↦ id,
      fun _ ↦ id⟩).imp fun s hs ↦ ?_
  · obtain ⟨hmirrored, htopics⟩ := hs
    have hvisited {topic : Str} (hold : topic ∉ done) (hne : topic ≠ name) :
        topic ∉ done ++ [name] := by
      rw [List.mem_append, List.mem_singleton]
      exact not_or.2 ⟨hold, hne⟩
    split
    · refine (updateTopicSubMetaTopic_refreshes hmirrored).imp fun s' hs' ↦
        ⟨hs'.1.mono (fun topic _ h ↦ ⟨h.1.1, hvisited h.1.2 h.2⟩) fun _ _ ↦ id,
          fun topic htopic ↦ htopics topic (hs'.2 topic htopic)⟩
    · next hskip =>
      refine ⟨hmirrored.mono (fun topic hlists h ↦ ⟨h.1, hvisited h.2 ?_⟩) fun _ _ ↦ id, htopics⟩
      rintro rfl
      exact hskip (by rw [hlists.2, h.1]; rfl)
  · refine (hs.1.mono (fun topic hlists h ↦ h.2 ?_) fun _ _ ↦ id).mirrored
    exact env.names.mem_keys.2 (hs.2 topic hlists.1)

end

end NetworkTables
