import PicoRadio.NetworkTables.Announcements

/-!
# Every cached topic is announced

A subscriber hears of a topic on one of two paths. When a topic is made it is announced to everybody
who subscribes to it, and when a subscription arrives the cached topics it matches are announced to
the client. All operations of the server leave everybody informed, with one exception: a
SetProperties that turns `cached` on announces nothing, and a client that subscribed while the topic
was not cached is left without it. In runs in which that does not happen everybody stays informed.

## What everybody informed means

`Informed` is about every client and every topic that is cached now: a subscription that matches
makes the client know the topic. So there are four things that may break it: a topic that is made, a
client that subscribes, a client that comes, and a topic that becomes cached. The first two announce
something, and the announcement is what the lemmas look for (`announceCachedTopics_informedAt`,
`publishOrAnswer_informed`). A new client has no subscription yet. The last one is a change of the
properties, which announces nothing.

Everything else only adds to what the clients know (`Instance.Keeps.informed`): no client ever
forgets a topic, and a topic that is not cached asks for nothing.
-/

namespace NetworkTables

open Relation

section

variable [FloatCodec] {env : Env} {st : Instance}

/-! ### Cached topics are announced to one client -/

/-- A loop over the topics after which the client knows those that are cached. -/
theorem cachedLoop_informedAt {guid : Guid} {body : Instance → Str → Except Fault Instance}
    (hbody : ∀ s name, Moves .quiet st s → Ends (body s name) (fun s' ↦ Moves .quiet s s' ∧
      s'.topics = s.topics ∧ (s'.Caches name → s'.ToldOf name guid)) fun _ ↦ True) :
    Ends ((env.names.keys st.topics).foldlM body st)
      (fun s ↦ Moves .quiet st s ∧ s.InformedAt guid) fun _ ↦ True := by
  refine (Ends.foldlM_visited (I := fun done s ↦ Moves .quiet st s ∧ s.topics = st.topics ∧
    ∀ name ∈ done, s.Caches name → s.ToldOf name guid) (E := fun _ ↦ True)
    (fun done name rest _ s ⟨hm, htopics, hdone⟩ ↦ ?_) ⟨.refl, rfl, ?_⟩).imp ?_
  · refine (hbody s name hm).imp fun s' ⟨hm', htopics', htold⟩ ↦ ⟨hm.trans hm',
      htopics'.trans htopics, fun name' hmem hcached ↦ ?_⟩
    rcases List.mem_append.1 hmem with hmem | hmem
    · exact hm'.keeps.toldOf (hdone name' hmem (hm'.keeps.cached name' hcached))
    · obtain rfl := List.mem_singleton.1 hmem
      exact htold hcached
  · exact fun name hmem ↦ absurd hmem List.not_mem_nil
  · rintro s ⟨hm, htopics, hdone⟩
    refine ⟨hm, fun name hcached ↦ hdone name ?_ hcached⟩
    obtain ⟨t, ht, -⟩ := hcached
    rw [htopics] at ht
    exact env.names.mem_keys.2 (AList.mem_of_lookup ht)

omit [FloatCodec] in
/-- A topic that does not exist is not cached. -/
theorem Instance.not_caches_of_none {name : Str} (h : st.topics.lookup name = none) :
    ¬st.Caches name := by
  rintro ⟨t, ht, -⟩
  rw [h] at ht
  cases ht

omit [FloatCodec] in
/-- The pointer is followed, and the property read. -/
theorem Instance.caches_iff {name : Str} {t : TopicAt name}
    (h : st.topics.lookup name = some (some t)) : st.Caches name ↔ t.1.properties.cached := by
  refine ⟨?_, fun hcached ↦ ⟨t, h, hcached⟩⟩
  rintro ⟨t', ht', hcached⟩
  rw [h] at ht'
  cases ht'
  exact hcached

/-- The loop visits every topic there is, and announces those the client asks for. -/
theorem announceCachedTopics_informedAt (guid : Guid) :
    Ends (announceCachedTopics env st guid) (fun s ↦ Moves .quiet st s ∧ s.InformedAt guid)
      fun _ ↦ True := by
  unfold announceCachedTopics
  refine (st.client_behind guid .clientNull).bind fun _ _ ↦ cachedLoop_informedAt
    fun s name _ ↦ ?_
  split
  · next hnone => exact ⟨.refl, rfl, fun hcached ↦ absurd hcached (s.not_caches_of_none hnone)⟩
  · trivial
  · next t ht =>
    split
    · refine (s.client_behind guid .clientNull).bind fun d hd ↦ ?_
      refine (isSubscribed_hears env d t.1.name).bind fun sub hsub ↦ ?_
      rw [t.2] at hsub
      split
      · exact ⟨.single (.setClient hd fun _ ↦ .announce ht), Instance.topics_setClient _ _ _,
          fun _ ↦ hd.toldOf_setClient (mem_announceTopic d t)⟩
      · next hnone => exact ⟨.refl, rfl, fun _ ↦ hd.toldOf (hsub (by simpa using hnone))⟩
    · next hcached => exact ⟨.refl, rfl, fun h ↦ absurd ((s.caches_iff ht).1 h) hcached⟩

/-- The local client has a loop of its own, which does the same. -/
theorem announceCachedTopicsSelf_informedAt {guid : Guid}
    (hself : st.clients.lookup guid = some .self) :
    Ends (announceCachedTopicsSelf env st) (fun s ↦ Moves .quiet st s ∧ s.InformedAt guid)
      fun _ ↦ True := by
  refine cachedLoop_informedAt fun s name hm ↦ ?_
  have hself : s.clients.lookup guid = some .self := hm.keeps.self guid hself
  split
  · next hnone => exact ⟨.refl, rfl, fun hcached ↦ absurd hcached (s.not_caches_of_none hnone)⟩
  · trivial
  · next t ht =>
    split
    · refine (isSubscribed_hears env s.thisClient t.1.name).bind fun sub hsub ↦ ?_
      rw [t.2] at hsub
      split
      · exact ⟨announceTopicSelf_moves ht, topics_announceTopicSelf env s t.1,
          fun _ ↦ announceTopicSelf_toldOf (by simp [Instance.isSelf, hself])⟩
      · next hnone =>
        have hbehind : s.Behind guid s.thisClient := .inl ⟨hself, rfl⟩
        exact ⟨.refl, rfl, fun _ ↦ hbehind.toldOf (hsub (by simpa using hnone))⟩
    · next hcached => exact ⟨.refl, rfl, fun h ↦ absurd ((s.caches_iff ht).1 h) hcached⟩

/-! ### Operations -/

/-- Moves, whatever faults they may end in. -/
theorem Follows.moves {K : Allow} {α : Type} {x : Except Fault α} {final : α → Instance}
    {Q : α → Prop} (hx : Follows K st x final Q) :
    Ends x (fun a ↦ Moves K st (final a)) fun _ ↦ True :=
  Ends.mono hx (fun _ h ↦ h.1) fun _ _ ↦ trivial

/-- The client that subscribes is told the cached topics; for the others nothing happened. -/
theorem handleSubscribe_informed (hst : st.Informed) {guid : Guid} (hguid : guid ∈ st.clients)
    {topics : List Str} {subuid : Int32} {options : SubscriptionOptions} :
    Ends (handleSubscribe env guid topics subuid options st) Instance.Informed fun _ ↦ True := by
  unfold handleSubscribe
  refine (st.client_behind guid .nullDeref).bind fun d hd ↦ ?_
  dsimp only
  have hm : Moves .all st (st.setSubscriptions guid d
      (d.subscriptions.insert subuid (some ⟨subuid, topics, options⟩))) :=
    .single (.setClient hd fun _ ↦ .subscribe ⟨trivial, trivial⟩ ⟨subuid, topics, options⟩)
  have hothers (guid' : Guid) (hother : ¬st.SamePtr guid guid') :
      (st.setSubscriptions guid d (d.subscriptions.insert subuid
        (some ⟨subuid, topics, options⟩))).InformedAt guid' := by
    intro name hname d' hd' hhears
    rw [Instance.Caches, Instance.setSubscriptions, Instance.topics_setClient] at hname
    exact hst.clients guid' name hname d' (hd'.of_setClient hother) hhears
  generalize st.setSubscriptions guid d (d.subscriptions.insert subuid
    (some ⟨subuid, topics, options⟩)) = st₁ at hm hothers ⊢
  have hsub : Follows .quiet st₁ (updateClientSubMetaTopic env st₁ guid) id fun _ ↦ True :=
    updateClientSubMetaTopic_follows (.inl trivial) (hm.mem_clients.2 hguid) (fun _ _ ↦ trivial)
      fun _ _ ↦ .inl trivial
  refine hsub.moves.bind fun st₂ hm₂ ↦ ?_
  have htopics : Follows .quiet st₂
      (updateTopicSubMetaTopics env st₂ ⟨subuid, topics, options⟩) id fun _ ↦ True :=
    updateTopicSubMetaTopics_follows (.inl trivial) (fun _ ↦ trivial) (.inl trivial)
  refine htopics.moves.bind fun st₃ hm₃ ↦ ?_
  refine (announceCachedTopics_informedAt guid).imp fun s hs ↦ ?_
  obtain ⟨hm₄, htold⟩ := hs
  have hkeeps : st₁.Keeps s := Moves.keeps (hm₂.trans (hm₃.trans hm₄))
  refine ⟨hkeeps.self _ (hm.lookup_self_iff.2 hst.self), fun guid' ↦ ?_⟩
  by_cases hsame : st.SamePtr guid guid'
  · have hsame₁ : st₁.SamePtr guid guid' :=
      hsame.imp_right fun h ↦ ⟨hm.lookup_self_iff.2 h.1, hm.lookup_self_iff.2 h.2⟩
    exact (hkeeps.samePtr hsame₁).informedAt htold
  · exact hkeeps.informedAt (hothers guid' hsame)

/-- The subscription is put into the map first, and the loop announces what it matches. -/
theorem localSubscribe_informed (hst : st.Informed) {topics : List Str} {subuid : Int32}
    {options : SubscriptionOptions} :
    Ends (localSubscribe env topics subuid options st) Instance.Informed fun _ ↦ True := by
  unfold localSubscribe
  dsimp only
  generalize hst₁ : ({ st with thisClient := { st.thisClient with
    subscriptions := st.thisClient.subscriptions.insert subuid
      (some ⟨subuid, topics, options⟩) } } : Instance) = st₁
  have hself : st₁.clients.lookup fakeServer.guid = some .self := by
    rw [← hst₁]
    exact hst.self
  have hothers (guid : Guid) (hother : st₁.clients.lookup guid ≠ some .self) :
      st₁.InformedAt guid := by
    rintro name hname d (⟨hlookup, -⟩ | hremote) hhears
    · exact absurd hlookup hother
    · rw [← hst₁] at hname hremote
      exact hst.clients guid name hname d (.inr hremote) hhears
  have hsub : Follows .quiet st₁ (updateServerSubMetaTopic env st₁) id fun _ ↦ True :=
    updateServerSubMetaTopic_follows (.inl trivial) trivial (.inl trivial)
  refine hsub.moves.bind fun st₂ hm₂ ↦ ?_
  refine (announceCachedTopicsSelf_informedAt (hm₂.keeps.self _ hself)).bind
    fun st₃ ⟨hm₃, htold⟩ ↦ ?_
  have hvalues : Follows .quiet st₃ (publishInitialValuesSelf env st₃) id _ :=
    publishInitialValuesSelf_emits
  refine hvalues.moves.imp fun s hm₄ ↦ ?_
  have hkeeps : st₁.Keeps s := Moves.keeps (hm₂.trans (hm₃.trans hm₄))
  refine ⟨hkeeps.self _ hself, fun guid ↦ ?_⟩
  by_cases hself' : st₁.clients.lookup guid = some .self
  · have hsame : st₁.SamePtr fakeServer.guid guid := .inr ⟨hself, hself'⟩
    exact (hkeeps.samePtr hsame).informedAt (hm₄.keeps.informedAt htold)
  · exact hkeeps.informedAt (hothers guid hself')

/-- A new topic is announced to all who ask for it, and an old one is known to them. -/
theorem publishOrAnswer_informed (hst : st.Informed) {guid : Guid} {name : Str} {pubuid : Int32}
    {type : NTDataType} {properties : TopicProperties} :
    Ends (publishOrAnswer env guid name pubuid type properties st) Instance.Informed
      fun _ ↦ True := by
  unfold publishOrAnswer
  split
  · exact .map (publishTopicWith_informed announceTopicToPublisher_follows
      announceTopicToPublisher_toldOf hst)
  · trivial
  · next t ht =>
    refine (st.client_behind guid .clientNull).bind fun d hd ↦ ?_
    have hm : Move .quiet st (st.setClient guid (d.announceTopicToPublisher t.1 pubuid)) :=
      .setClient hd fun _ ↦ .announceToPublisher ht pubuid
    exact hm.keeps.informed hst

/-- The publisher that is remembered is no subscription, and the rest is `publishOrAnswer`. -/
theorem handlePublish_informed (hst : st.Informed) {guid : Guid} (hguid : guid ∈ st.clients)
    {name : Str} {pubuid : Int32} {type : NTDataType} {properties : TopicProperties} :
    Ends (handlePublish env guid name pubuid type properties st) Instance.Informed
      fun _ ↦ True := by
  unfold handlePublish
  refine (st.client_behind guid .nullDeref).bind fun d hd ↦ ?_
  dsimp only
  have hmoves : Follows .all st (publishOrAnswer env guid name pubuid type properties
      (st.setPublishers guid d (d.publishers.insert pubuid (some ⟨pubuid, name⟩)))) id _ :=
    publishOrAnswer_follows (.inl trivial) (fun _ ↦ trivial) hd trivial
      fun _ ↦ ⟨⟨trivial, trivial⟩, trivial, trivial⟩
  have hkeeps : st.Keeps (st.setClient guid { d with
      publishers := d.publishers.insert pubuid (some ⟨pubuid, name⟩) }) := .setClient hd rfl rfl
  refine ((publishOrAnswer_informed (hkeeps.informed hst)).and hmoves.moves).mono
    (fun _ ↦ id) (fun _ _ ↦ trivial) |>.bind fun st₂ ⟨hst₂, hm₂⟩ ↦ ?_
  have hpub : Follows .quiet st₂ (updateClientPubMetaTopic env st₂ guid) id fun _ ↦ True :=
    updateClientPubMetaTopic_follows (.inl trivial) (hm₂.mem_clients.2 hguid) (fun _ _ ↦ trivial)
      fun _ _ ↦ .inl trivial
  refine (hpub.informed hst₂).bind fun st₃ hst₃ ↦ ?_
  have htopic : Follows .quiet st₃ (updateTopicPubMetaTopic env st₃ name) id fun _ ↦ True :=
    updateTopicPubMetaTopic_follows (.inl trivial) trivial (.inl trivial)
  exact htopic.informed hst₃

/-- A local publication makes the topic in the same way. -/
theorem publishOrLookUp_informed (hst : st.Informed) {name : Str} {type : NTDataType}
    {properties : TopicProperties} :
    Ends (publishOrLookUp env name type properties st) (fun r ↦ r.1.Informed) fun _ ↦ True := by
  unfold publishOrLookUp
  split
  · unfold publishTopicSelfSync
    refine (publishTopicWith_informed announceTopic_follows announceTopic_toldOf hst).bind
      fun r hr ↦ ?_
    split
    · split
      · next t ht =>
        have hm : Move .quiet r.1 { r.1 with thisClient := { r.1.thisClient with
            topicData := r.1.thisClient.topicData.subscript name {} } } :=
          .self (.unnumbered trivial (AList.mem_of_lookup ht))
        exact hm.keeps.informed hr
      · trivial
      · trivial
    · exact hr
  · trivial
  · next t ht =>
    have hm :
        Move .quiet st { st with thisClient := (st.thisClient.announceTopicSelfSync t.1).1 } :=
      .self (.announceSelf ht)
    exact hm.keeps.informed hst

theorem localPublish_informed (hst : st.Informed) {name : Str} {pubuid : Int32}
    {type : NTDataType} {properties : TopicProperties} :
    Ends (localPublish env name pubuid type properties st) (fun r ↦ r.1.Informed)
      fun _ ↦ True := by
  unfold localPublish
  have hkeeps : st.Keeps { st with thisClient := { st.thisClient with
      publishers := st.thisClient.publishers.insert pubuid (some ⟨pubuid, name⟩) } } :=
    .thisClient rfl rfl
  refine (publishOrLookUp_informed (hkeeps.informed hst)).bind fun r hr ↦ ?_
  have hpub : Follows .quiet r.1 (updateServerPubMetaTopic env r.1) id fun _ ↦ True :=
    updateServerPubMetaTopic_follows (.inl trivial) trivial (.inl trivial)
  exact (hpub.informed hr).bind fun s hs ↦ hs

/-! ### Properties -/

omit [FloatCodec] in
/-- Everybody who hears of the topic knows it, unless it is cached already. -/
def Instance.KnownToHearers (st : Instance) (name : Str) : Prop :=
  ∀ t, st.topics.lookup name = some (some t) → t.1.properties.cached = false →
    ∀ guid, st.ToldOf name guid

/-- Other properties keep everybody informed if `cached` is not turned on, or if everybody who hears
of the topic knows it. -/
theorem setProperties_informed (hst : st.Informed) {name : Str} {t : TopicAt name}
    (ht : st.topics.lookup name = some (some t)) {properties : TopicProperties}
    (hknown : properties.cached → st.KnownToHearers name) (updaterGuid : Option Guid) :
    Ends (updateTopicProperties env (st.setTopic name (t.setProperties properties))
      (t.setProperties properties).1 updaterGuid) Instance.Informed fun _ ↦ True := by
  have hset : (st.setTopic name (t.setProperties properties)).Informed := by
    refine ⟨hst.self, fun guid name' hcached ↦ ?_⟩
    obtain ⟨t', ht', hcached⟩ := hcached
    rw [Instance.topics_setTopic] at ht'
    show st.ToldOf name' guid
    obtain rfl | hne := eq_or_ne name' name
    · rw [AList.lookup_insert] at ht'
      cases ht'
      by_cases hold : t.1.properties.cached
      · exact hst.clients guid name' ⟨t, ht, hold⟩
      · exact hknown hcached t ht (by simpa using hold) guid
    · rw [AList.lookup_insert_ne hne] at ht'
      exact hst.clients guid name' ⟨t', ht', hcached⟩
  have hsend : Follows .quiet (st.setTopic name (t.setProperties properties))
      (updateTopicProperties env (st.setTopic name (t.setProperties properties))
        (t.setProperties properties).1 updaterGuid) id _ :=
    updateTopicProperties_emits (AList.lookup_insert _)
  exact hsend.informed hset

omit [FloatCodec] in
/-- A null pointer in the map of topics is no topic. -/
theorem Instance.Informed.insertNullTopic (hst : st.Informed) {name : Str}
    (hname : name ∉ st.topics) : (st.insertNullTopic name).Informed := by
  refine ⟨hst.self, fun guid name' hcached ↦ ?_⟩
  obtain ⟨t', ht', hcached⟩ := hcached
  rw [Instance.insertNullTopic] at ht'
  obtain rfl | hne := eq_or_ne name' name
  · rw [AList.lookup_insert] at ht'
    cases ht'
  · rw [AList.lookup_insert_ne hne] at ht'
    exact hst.clients guid name' ⟨t', ht', hcached⟩

/-- Under the condition that those who would have to be told know the topic already. -/
theorem handleSetProperties_informed (hst : st.Informed) {guid : Guid} {name : Str}
    {persistent retained cached : Option Bool}
    (hknown : cached = some true → st.KnownToHearers name) :
    Ends (handleSetProperties env guid name persistent retained cached st) Instance.Informed
      fun _ ↦ True := by
  unfold handleSetProperties
  split
  · next t ht =>
    refine setProperties_informed hst ht (fun hcached t' ht' hold ↦ ?_) _
    rw [ht] at ht'
    cases ht'
    cases cached with
    | none =>
      rw [Option.getD_none, hold] at hcached
      cases hcached
    | some cached =>
      obtain rfl : cached = true := hcached
      exact hknown rfl t ht hold
  · exact hst
  · next hnone => exact hst.insertNullTopic (AList.lookup_eq_none.1 hnone)

/-- The condition is the same. -/
theorem localSetProperties_informed (hst : st.Informed) {name : Str} {update : TopicProperties}
    (hknown : update.cached → st.KnownToHearers name) :
    Ends (localSetProperties env name update st) Instance.Informed fun _ ↦ True := by
  unfold localSetProperties
  split
  · next t ht => exact setProperties_informed hst ht hknown _
  · exact hst
  · next hnone => exact hst.insertNullTopic (AList.lookup_eq_none.1 hnone)

/-! ### Clients that come and go -/

omit [FloatCodec] in
/-- A new client has no subscription, and must not take the place of the local client. -/
theorem Instance.Informed.insertClient (hst : st.Informed) {guid : Guid} {name : Str}
    (hguid : guid ≠ fakeServer.guid) : (st.insertClient guid { guid, name }).Informed := by
  refine ⟨(AList.lookup_insert_ne hguid.symm).trans hst.self,
    fun guid' name' hcached d hd hhears ↦ ?_⟩
  rw [Instance.insertClient, Instance.Behind] at hd
  rw [AList.lookup_insert_ite] at hd
  split at hd
  · rcases hd with ⟨hself, -⟩ | hremote
    · cases hself
    · cases hremote
      obtain ⟨uid, sub, hsub, -⟩ := hhears
      cases hsub
  · exact hst.clients guid' name' hcached d hd hhears

omit [FloatCodec] in
/-- With one client less there is less to ask for. -/
theorem Instance.Informed.eraseClient (hst : st.Informed) {guid : Guid}
    (hguid : guid ≠ fakeServer.guid) : (st.eraseClient guid).Informed := by
  refine ⟨(AList.lookup_erase_ne hguid.symm).trans hst.self,
    fun guid' name' hcached d hd hhears ↦ ?_⟩
  rw [Instance.eraseClient, Instance.Behind] at hd
  rw [AList.lookup_erase_ite] at hd
  split at hd
  · rcases hd with ⟨hself, -⟩ | hremote
    · cases hself
    · cases hremote
  · exact hst.clients guid' name' hcached d hd hhears

/-- A client without a subscription is informed of everything. -/
theorem handleConnect_informed (hst : st.Informed) {entry : ClientEntry} {name : Str}
    (hguid : entry.guid ≠ fakeServer.guid) :
    Ends (handleConnect env entry name st) Instance.Informed fun _ ↦ True := by
  unfold handleConnect
  refine (nextClientWithName_follows (K := .quiet)).moves.bind fun num _ ↦ ?_
  dsimp only
  generalize name ++ ascii "@" ++ decimal num.toNat = n
  have hst₀ : (st.insertClient entry.guid { guid := entry.guid, name := n }).Informed :=
    hst.insertClient hguid
  have hmem₀ : entry.guid ∈
      (st.insertClient entry.guid { guid := entry.guid, name := n }).clients :=
    (AList.mem_insert _).2 (.inl rfl)
  generalize st.insertClient entry.guid { guid := entry.guid, name := n } = st₀ at hst₀ hmem₀ ⊢
  have hpublish {s : Instance} (hs : s.Informed) (hmem : entry.guid ∈ s.clients) (name : Str) :
      Ends (publishMetaTopic env s name) (fun r ↦ r.1.Informed ∧ entry.guid ∈ r.1.clients)
        fun _ ↦ True := by
    have hm : Follows .all s (publishMetaTopic env s name) Prod.fst _ :=
      publishMetaTopic_follows trivial
    exact ((publishMetaTopic_informed hs name).and hm.moves).mono
      (fun r ⟨hr, hm⟩ ↦ ⟨hr, hm.mem_clients.2 hmem⟩) fun _ _ ↦ trivial
  refine (hpublish hst₀ hmem₀ _).bind fun r₁ ⟨hr₁, hmem₁⟩ ↦ ?_
  refine (hpublish hr₁ hmem₁ _).bind fun r₂ ⟨hr₂, hmem₂⟩ ↦ ?_
  generalize r₂.1 = s₂ at hr₂ hmem₂ ⊢
  -- the rest makes quiet moves
  show Ends _ (fun s ↦ Instance.Informed (id s)) fun _ ↦ True
  refine Follows.informed (Q := fun _ ↦ True) ?_ hr₂
  refine (updateClientsMetaTopic_follows (.inl trivial) trivial (.inl trivial)).bind
    fun s₃ hm₃ _ ↦ ?_
  have hmem₃ := hm₃.mem_clients.2 hmem₂
  refine (updateClientSubMetaTopic_follows (.inl trivial) hmem₃ (fun _ _ ↦ trivial)
    fun _ _ ↦ .inl trivial).bind fun s₄ hm₄ _ ↦ ?_
  have hmem₄ := hm₄.mem_clients.2 hmem₃
  refine (updateClientPubMetaTopic_follows (.inl trivial) hmem₄ (fun _ _ ↦ trivial)
    fun _ _ ↦ .inl trivial).bind fun s₅ hm₅ _ ↦ ?_
  have hmem₅ := hm₅.mem_clients.2 hmem₄
  refine .client rfl hmem₅ fun d₅ hd₅ ↦ ?_
  have hm₆ : Moves .quiet s₅
      (s₅.setClient entry.guid (d₅.flushText MAX_CLIENT_TEXT_CACHE_LENGTH)) :=
    .single (.setClient hd₅ fun _ ↦ .flushText _)
  have hmem₆ := hm₆.mem_clients.2 hmem₅
  refine .after hm₆ ((publishInitialValues_emits hmem₆).bind fun s₇ hm₇ _ ↦ ?_)
  refine .client rfl (hm₇.mem_clients.2 hmem₆) fun d₇ hd₇ ↦ ?_
  exact .ok (.single (.setClient hd₇ fun _ ↦ .flushBinary _)) trivial

theorem handleDisconnect_informed (hst : st.Informed) {guid : Guid} :
    Ends (handleDisconnect env guid st) Instance.Informed fun _ ↦ True := by
  unfold handleDisconnect
  split
  · trivial
  · trivial
  · trivial
  · next d hd =>
    have hguid : guid ≠ fakeServer.guid := by
      rintro rfl
      rw [hst.self] at hd
      cases hd
    show Ends _ (fun s ↦ Instance.Informed (id s)) fun _ ↦ True
    refine Follows.informed (Q := fun _ ↦ True) ?_ (hst.eraseClient hguid)
    exact (updateClientsMetaTopic_follows (.inl trivial) trivial (.inl trivial)).bind
      fun _ _ _ ↦ flushBinary_emits.imp fun _ _ ↦ trivial

omit [FloatCodec] in
/-- There are no topics at the start. -/
theorem Instance.initial_informed : Instance.initial.Informed := by
  refine ⟨AList.lookup_insert _, ?_⟩
  rintro guid name ⟨t, ht, -⟩
  cases ht

theorem startServer_informed : Ends (startServer env) Instance.Informed fun _ ↦ True := by
  unfold startServer
  refine (publishMetaTopic_informed Instance.initial_informed _).bind fun r₁ hr₁ ↦ ?_
  refine (publishMetaTopic_informed hr₁ _).bind fun r₂ hr₂ ↦ ?_
  refine (publishMetaTopic_informed hr₂ _).bind fun r₃ hr₃ ↦ ?_
  show Ends _ (fun s ↦ Instance.Informed (id s)) fun _ ↦ True
  refine Follows.informed (Q := fun _ ↦ True) ?_ hr₃
  refine (updateClientsMetaTopic_follows (.inl trivial) trivial (.inl trivial)).bind
    fun _ _ _ ↦ ?_
  refine (updateServerSubMetaTopic_follows (.inl trivial) trivial (.inl trivial)).bind
    fun _ _ _ ↦ ?_
  refine (updateServerPubMetaTopic_follows (.inl trivial) trivial (.inl trivial)).bind
    fun _ _ _ ↦ ?_
  exact flushText_emits.bind fun _ _ _ ↦ flushBinary_emits.imp fun _ _ ↦ trivial

/-! ### Runs -/

omit [FloatCodec] in
/-- A SetProperties that turns `cached` on comes when everybody who hears of the topic knows it, and
no connection has the guid of the local client. -/
def Operation.AnnouncesCached (st : Instance) : Operation → Prop
  | message _ (.setproperties name _ _ cached) => cached = some true → st.KnownToHearers name
  | setProperties name update => update.cached → st.KnownToHearers name
  | connect entry _ => entry.guid ≠ fakeServer.guid
  | message _ (.subscribe _ _ _) | message _ (.publish _ _ _ _) | message _ (.unsubscribe _)
  | message _ (.unpublish _) | message _ .unknown | disconnect _ | textEnd _ | valueUpdate _ _
  | subscribe _ _ _ | unsubscribe _ | publish _ _ _ _ | unpublish _ | updateTopic _ _ _
  | flush => True

/-- One operation, with the two kinds of SetProperties as the exception. -/
theorem Operation.run_informed {op : Operation} (hst : st.Informed) (hpub : st.Published)
    (henabled : op.Enabled st) (h : op.AnnouncesCached st) :
    Ends (op.run env st) Instance.Informed fun _ ↦ True := by
  have htopic {guid : Guid} {d : ClientData} {uid : Int32} {pub : Publisher}
      (hd : st.Behind guid d ∨ d = st.thisClient)
      (hlookup : d.publishers.lookup uid = some (some pub)) :
      Allow.quiet.assigns pub.topic ∧
        (pub.topic ∈ st.topics ∨ Allow.quiet.creates pub.topic ∧ Allow.quiet.nulls) :=
    ⟨trivial, .inl (hpub.of_behind hd hlookup)⟩
  cases op with
  | connect entry name => exact handleConnect_informed hst h
  | disconnect guid => exact handleDisconnect_informed hst
  | message guid m =>
    cases m with
    | subscribe => exact handleSubscribe_informed hst henabled
    | publish => exact handlePublish_informed hst henabled
    | unsubscribe subuid =>
      refine Follows.informed (handleUnsubscribe_follows (.inl trivial) (fun _ ↦ trivial)
        (fun _ ↦ trivial) henabled (fun _ _ ↦ .inl trivial) (fun _ _ ↦ .inl trivial) (.inl trivial))
          hst
    | unpublish pubuid =>
      refine Follows.informed (handleUnpublish_follows (.inl trivial) (fun _ ↦ trivial)
        (fun _ ↦ trivial) henabled (fun _ _ ↦ .inl trivial) (fun _ _ ↦ .inl trivial)
        fun _ _ _ _ ↦ .inl trivial) hst
    | setproperties => exact handleSetProperties_informed hst h
    | unknown => exact hst
  | textEnd guid => exact Follows.informed (handleTextEnd_emits henabled) hst
  | valueUpdate guid m =>
    exact Follows.informed (handleValue_follows (.inl trivial) henabled (fun _ _ ↦ .inl trivial)
      fun d pub hd hlookup ↦ htopic (.inl hd) hlookup) hst
  | subscribe => exact localSubscribe_informed hst
  | unsubscribe =>
    exact Follows.informed (localUnsubscribe_follows (.inl trivial) trivial trivial (.inl trivial)
      (.inl trivial)) hst
  | publish => exact .map (localPublish_informed hst)
  | unpublish =>
    exact Follows.informed (localUnpublish_follows (.inl trivial) trivial trivial (.inl trivial)
      (.inl trivial)) hst
  | setProperties => exact localSetProperties_informed hst h
  | updateTopic id value time =>
    exact Follows.informed (localUpdateTopic_follows (.inl trivial) (.inl trivial)
      fun pub hlookup ↦ @htopic 0 _ _ _ (.inr rfl) hlookup) hst
  | flush => exact Follows.informed flushBinary_emits hst

omit [FloatCodec] in
theorem Instance.Informed.of_eq {st' : Instance} (ht : st'.topics = st.topics)
    (hc : st'.clients = st.clients) (hs : st'.thisClient = st.thisClient) (hst : st.Informed) :
    st'.Informed := by
  refine ⟨by rw [hc]; exact hst.self, fun guid name hcached d hd ↦ ?_⟩
  rw [Instance.Caches, ht] at hcached
  rw [Instance.Behind, hc, hs] at hd
  exact hst.clients guid name hcached d hd

/-- In every run in which no SetProperties turns `cached` on for a topic that a client would have to
be announced, every client knows every cached topic that a subscription of it matches. -/
theorem run_announcesCached {start : Env} {events : List (Env × Event)}
    (hguarded : ∀ st, startServer start = .ok st →
      Guarded step (Event.Meets fun _ st op ↦ op.AnnouncesCached st) st events) :
    Ends (run start events)
      (fun st ↦ ∀ d, (∃ guid, st.remote guid = some d) ∨ d = st.thisClient →
        ∀ name t, st.topics.lookup name = some (some t) → t.1.properties.cached →
          ∀ uid sub, d.subscriptions.lookup uid = some (some sub) → sub.isSubscribed name →
            name ∈ d.topicData)
      fun _ ↦ True := by
  have hidle (st st' : Instance) (ht : st'.topics = st.topics) (hc : st'.clients = st.clients)
      (hs : st'.thisClient = st.thisClient) (hI : st.Informed ∧ st.Published) :
      st'.Informed ∧ st'.Published :=
    ⟨hI.1.of_eq ht hc hs, Changes.published (K := .all) (.single (.idle ht hc hs)) hI.2⟩
  have hop (env : Env) (st : Instance) (op : Operation) (hI : st.Informed ∧ st.Published)
      (henabled : op.Enabled st) (hG : op.AnnouncesCached st) :
      Ends (op.run env { st with mutexFree := false }) (fun s ↦ s.Informed ∧ s.Published)
        fun _ ↦ True := by
    obtain ⟨hst, hpub⟩ := hidle st { st with mutexFree := false } rfl rfl rfl hI
    have htaken : op.AnnouncesCached { st with mutexFree := false } := by
      cases op with
      | message guid m => cases m <;> exact hG
      | connect | disconnect | textEnd | valueUpdate | subscribe | unsubscribe | publish
      | unpublish | setProperties | updateTopic | flush => exact hG
    have hinformed : Ends (op.run env { st with mutexFree := false })
        Instance.Informed fun _ ↦ True :=
      Operation.run_informed hst hpub (henabled.taken false) htaken
    exact (hinformed.and (Operation.run_ends (henabled.taken false) (.all env _ op))).mono
      (fun s hs ↦ ⟨hs.1, hs.2.published hpub⟩) fun _ _ ↦ trivial
  have hstart : Ends (startServer start) (fun s ↦ s.Informed ∧ s.Published) fun _ ↦ True := by
    have hm : Follows .all .initial (startServer start) id _ :=
      startServer_follows (.inl trivial) (fun _ ↦ trivial) fun _ _ ↦ trivial
    exact (startServer_informed.and hm.moves).mono
      (fun s hs ↦ ⟨hs.1, hs.2.changes.published Instance.initial_published⟩) fun _ _ ↦ trivial
  have hrun := run_ends hidle hop trivial hstart hguarded
  refine hrun.imp fun st hst d hd name t ht hcached uid sub hsub hmatch ↦ ?_
  have hbehind : ∃ guid, st.Behind guid d := by
    rcases hd with ⟨guid, hd⟩ | rfl
    · exact ⟨guid, .inr (Instance.remote_eq_some.1 hd)⟩
    · exact ⟨fakeServer.guid, .inl ⟨hst.1.self, rfl⟩⟩
  obtain ⟨guid, hbehind⟩ := hbehind
  exact hst.1.clients guid name ⟨t, ht, hcached⟩ d hbehind ⟨uid, sub, hsub, hmatch⟩

end

set_option maxRecDepth 4000 in
/-- A client subscribes to a topic that is cached from the start. -/
theorem run_announcesCached_sample :
    Ends (@run .fractional {} [({}, .connect (.sample 1 "a")),
        ({}, .publish (ascii "/x") 2 .int .DEFAULT),
        ({}, .text 1 [.subscribe [ascii "/x"] 1 .DEFAULT])])
      (fun st ↦ ∀ d, (∃ guid, st.remote guid = some d) ∨ d = st.thisClient →
        ∀ name t, st.topics.lookup name = some (some t) → t.1.properties.cached →
          ∀ uid sub, d.subscriptions.lookup uid = some (some sub) → sub.isSubscribed name →
            name ∈ d.topicData)
      fun _ ↦ True := by
  refine @run_announcesCached .fractional _ _ fun st _ ↦ Guarded.of_forall_mem (fun e he s ↦ ?_) st
  simp only [List.mem_cons, List.not_mem_nil, or_false] at he
  refine @Event.Meets.of_has .fractional _ e (fun s op hop ↦ ?_) s
  rcases he with rfl | rfl | rfl
  · obtain ⟨name, rfl⟩ := hop
    show (1 : Guid) ≠ 0
    decide
  · obtain rfl := hop
    trivial
  · rcases hop with ⟨m, hm, rfl⟩ | rfl
    · rw [List.mem_singleton.1 hm]
      trivial
    · trivial

set_option maxRecDepth 4000 in
/-- A client subscribes to a topic that is not cached; the topic is then made a cached one, and the
client is not told of it. -/
theorem setProperties_unannounced :
    Ends (@run .fractional {} [({}, .publish (ascii "/x") 2 .int {}),
        ({}, .connect (.sample 1 "a")),
        ({}, .text 1 [.subscribe [ascii "/x"] 1 .DEFAULT]),
        ({}, .setProperties (ascii "/x") { cached := true })])
      (fun st ↦ ∃ d ∈ st.remote 1, ∃ sub ∈ (d.subscriptions.lookup 1).join,
        sub.isSubscribed (ascii "/x") ∧ ascii "/x" ∉ d.topicData.keys ∧
        ∃ t ∈ (st.topics.lookup (ascii "/x")).join, t.1.properties.cached)
      fun _ ↦ False := by
  decide +kernel

end NetworkTables
