import PicoRadio.NetworkTables.Handlers
import PicoRadio.NetworkTables.TopicMoves

/-!
# The moves of the handlers

Each handler, with the mutex taken, makes moves. A client joins at the start of the handler of a new
connection and leaves at the start of the handler of a lost one; all the rest is moves of the
clients that are there.

The hypotheses of the lemmas are what a handler relies on: the uids and topics it looks up are
known, or null pointers may be inserted; the meta topics it refreshes exist, or one may be missing.

## What a handler may do

`K` in the lemmas is what is allowed (`Allow`). A lemma of a handler has a hypothesis for each thing
the handler does that may be forbidden, so it can be used at the weakest `K` under which one wants
to argue: to see that no topic is made by an update, `K.creates` is put to `False` and the lemma
still applies. A hypothesis of the form `K.missing ∨ …` is for a fault: either a missing meta topic
is an admitted end, or it is not missing.

## Reachable states

The hypotheses about missing meta topics and null pointers are met in the states that a run reaches
without one of the operations that leave a null pointer behind (`Rooted`). That is proved once, from
the moves (`Changes.rooted`), so no handler is looked at twice.
-/

namespace NetworkTables

open Relation

section

variable [FloatCodec] {K : Allow} {env : Env} {st : Instance}

/-! ### Messages of clients -/

/-- A topic that the name of a client leads to is still there after some moves. -/
theorem Moves.clientTopic {st' : Instance} (h : Moves K st st') {guid : Guid} {f : Str → Str}
    (hst : ∀ d, st.Behind guid d → K.missing ∨ st.HasTopic (f d.name)) :
    ∀ d, st'.Behind guid d → K.missing ∨ st'.HasTopic (f d.name) := by
  intro d' hd'
  obtain ⟨d, hd, hname⟩ := h.behind hd'
  rw [hname]
  exact (hst d hd).imp_right h.hasTopic

section Messages

variable (haccepts : K.partly ∨ env.Accepts) (hassigns : ∀ name, K.assigns name)

include haccepts hassigns

theorem updateTopicSubMetaTopics_follows {sub : Subscription}
    (hmeta : K.missing ∨
      ∀ name ∈ st.topics, name.isMeta = false → st.HasTopic (topicSubName name)) :
    Follows K st (updateTopicSubMetaTopics env st sub) id fun _ ↦ True := by
  refine .foldlM (fun name hname s hm _ ↦ ?_) .refl trivial
  split
  · next hrefresh =>
    refine updateTopicSubMetaTopic_follows haccepts (hassigns _) (hmeta.imp_right fun h ↦ ?_)
    exact hm.hasTopic (h name (env.names.mem_keys.1 hname) (by simp_all))
  · exact .ok .refl trivial

theorem handleSubscribe_follows (hasks : ∀ self, K.asks self)
    (hsubscribes : ∀ self, K.subscribes self) {guid : Guid} (hguid : guid ∈ st.clients)
    {topics : List Str} {subuid : Int32} {options : SubscriptionOptions}
    (hclient : ∀ d, st.Behind guid d → K.missing ∨ st.HasTopic (clientSubName d.name))
    (hmeta : K.missing ∨ ∀ s, Moves K st s → ∀ name ∈ s.topics, name.isMeta = false →
      s.HasTopic (topicSubName name)) :
    Follows K st (handleSubscribe env guid topics subuid options st) id fun _ ↦ True := by
  unfold handleSubscribe
  refine .client rfl hguid fun d hd ↦ ?_
  have hm₁ : Moves K st (st.setSubscriptions guid d
      (d.subscriptions.insert subuid (some ⟨subuid, topics, options⟩))) :=
    .single
      (.setClient hd fun self ↦ .subscribe ⟨hasks self, hsubscribes self⟩ ⟨subuid, topics, options⟩)
  refine .after hm₁ ?_
  refine (updateClientSubMetaTopic_follows haccepts (hm₁.mem_clients.2 hguid)
    (fun _ _ ↦ hassigns _) (hm₁.clientTopic hclient)).bind fun st₂ hm₂ _ ↦ ?_
  refine (updateTopicSubMetaTopics_follows haccepts hassigns
    (hmeta.imp_right fun h ↦ h st₂ (hm₁.trans hm₂))).bind fun st₃ hm₃ _ ↦ ?_
  refine (announceCachedTopics_emits ?_).imp fun _ _ ↦ trivial
  exact hm₃.mem_clients.2 (hm₂.mem_clients.2 (hm₁.mem_clients.2 hguid))

/-- The subscription is looked up with the subscript operator, which is where a null pointer may
come from. -/
theorem handleUnsubscribe_follows (hasks : ∀ self, K.asks self) {guid : Guid}
    (hguid : guid ∈ st.clients)
    {subuid : Int32}
    (hnulls : ∀ d, st.Behind guid d →
      K.nulls ∨ ∃ sub, d.subscriptions.lookup subuid = some (some sub))
    (hclient : ∀ d, st.Behind guid d → K.missing ∨ st.HasTopic (clientSubName d.name))
    (hmeta : K.missing ∨ ∀ s, Moves K st s → ∀ name ∈ s.topics, name.isMeta = false →
      s.HasTopic (topicSubName name)) :
    Follows K st (handleUnsubscribe env guid subuid st) id fun _ ↦ True := by
  unfold handleUnsubscribe
  refine .client rfl hguid fun d hd ↦ ?_
  split
  · next sub _ =>
    have hm₁ : Moves K st (st.setSubscriptions guid d (d.subscriptions.erase subuid)) :=
      .single (.setClient hd fun self ↦ .unsubscribe (hasks self) subuid)
    refine .after hm₁ ?_
    refine (updateClientSubMetaTopic_follows haccepts (hm₁.mem_clients.2 hguid)
      (fun _ _ ↦ hassigns _) (hm₁.clientTopic hclient)).bind fun st₂ hm₂ _ ↦ ?_
    exact updateTopicSubMetaTopics_follows haccepts hassigns
      (hmeta.imp_right fun h ↦ h st₂ (hm₁.trans hm₂))
  · next hunknown =>
    have hK : K.nulls := (hnulls d hd).resolve_right fun ⟨sub, hsub⟩ ↦ hunknown sub hsub
    exact .ok (.single (.setClient hd fun _ ↦ .nullSubscription hK subuid)) trivial

/-- The publisher is looked up in the same way. -/
theorem handleUnpublish_follows (hasks : ∀ self, K.asks self) {guid : Guid}
    (hguid : guid ∈ st.clients)
    {pubuid : Int32}
    (hnulls : ∀ d, st.Behind guid d → K.nulls ∨ ∃ pub, d.publishers.lookup pubuid = some (some pub))
    (hclient : ∀ d, st.Behind guid d → K.missing ∨ st.HasTopic (clientPubName d.name))
    (hmeta : ∀ d pub, st.Behind guid d → d.publishers.lookup pubuid = some (some pub) →
      K.missing ∨ st.HasTopic (topicPubName pub.topic)) :
    Follows K st (handleUnpublish env guid pubuid st) id fun _ ↦ True := by
  unfold handleUnpublish
  refine .client rfl hguid fun d hd ↦ ?_
  split
  · next pub hpub =>
    have hm₁ : Moves K st (st.setPublishers guid d (d.publishers.erase pubuid)) :=
      .single (.setClient hd fun self ↦ .unpublish (hasks self) pubuid)
    refine .after hm₁ ?_
    refine (updateClientPubMetaTopic_follows haccepts (hm₁.mem_clients.2 hguid)
      (fun _ _ ↦ hassigns _) (hm₁.clientTopic hclient)).bind fun st₂ hm₂ _ ↦ ?_
    exact updateTopicPubMetaTopic_follows haccepts (hassigns _)
      ((hmeta d pub hd hpub).imp_right (Moves.hasTopic (hm₁.trans hm₂)))
  · next hunknown =>
    have hK : K.nulls := (hnulls d hd).resolve_right fun ⟨pub, hpub⟩ ↦ hunknown pub hpub
    exact .ok (.single (.setClient hd fun _ ↦ .nullPublisher hK pubuid)) trivial

omit haccepts hassigns in
/-- The new properties are stored, and told to those who subscribe to the topic. -/
theorem setProperties_follows {name : Str} (hK : K.configures name) {t : TopicAt name}
    (ht : st.topics.lookup name = some (some t)) (properties : TopicProperties)
    (updaterGuid : Option Guid) :
    Follows K st (updateTopicProperties env (st.setTopic name (t.setProperties properties))
      (t.setProperties properties).1 updaterGuid) id fun _ ↦ True :=
  .after (.single (.properties hK ht properties))
    ((updateTopicProperties_emits (AList.lookup_insert _)).imp fun _ _ ↦ trivial)

omit haccepts hassigns in
/-- The topic is looked up with the subscript operator too. A name that is not in the map is put
there, with a null pointer. -/
theorem handleSetProperties_follows {guid : Guid} {name : Str}
    {persistent retained cached : Option Bool} (hcreates : K.creates name)
    (hconfigures : K.configures name)
    (hnulls : K.nulls ∨ name ∈ st.topics) :
    Follows K st (handleSetProperties env guid name persistent retained cached st) id
      fun _ ↦ True := by
  unfold handleSetProperties
  split
  · next t ht => exact setProperties_follows hconfigures ht _ _
  · exact .ok .refl trivial
  · next hnone =>
    have hname := AList.lookup_eq_none.1 hnone
    exact .ok (.single (.nullTopic ⟨hcreates, hnulls.resolve_right hname⟩ hname)) trivial

/-- The meta topics a publication leaves behind: those of a topic that is new and no meta topic,
unless the local client turned an announcement down. -/
def Published (env : Env) (name : Str) (st s : Instance) : Prop :=
  name ∉ st.topics → name.isMeta = false →
    env.AcceptsTopic st.thisClient.subscriptions name →
    env.AcceptsTopic st.thisClient.subscriptions (topicSubName name) →
    s.HasTopic (topicSubName name) ∧ s.HasTopic (topicPubName name)

omit haccepts hassigns in
/-- What a publication has made stays. -/
theorem Published.after {name : Str} {s s' : Instance} (h : Published env name st s)
    (hm : Moves K s s') : Published env name st s' := by
  intro hname hnmeta hacc hacc'
  obtain ⟨hsub, hpub⟩ := h hname hnmeta hacc hacc'
  exact ⟨hm.hasTopic hsub, hm.hasTopic hpub⟩

omit hassigns in
/-- The publisher is put into the map before its topic is made; the two commute. -/
theorem publishOrAnswer_follows (hasks : ∀ self, K.asks self) {guid : Guid} {d : ClientData}
    (hd : st.Behind guid d) {name : Str} {pubuid : Int32} {type : NTDataType}
    {properties : TopicProperties} (hcreates : K.creates name)
    (hmetas : name.isMeta = false → K.MetaTopicsOf name) :
    Follows K st (publishOrAnswer env guid name pubuid type properties (st.setPublishers guid d
      (d.publishers.insert pubuid (some ⟨pubuid, name⟩)))) id (Published env name st) := by
  have hguid : guid ∈ st.clients := hd.elim (fun h ↦ AList.mem_of_lookup h.1) AList.mem_of_lookup
  unfold Instance.setPublishers
  generalize hd₁ : ({ d with
    publishers := d.publishers.insert pubuid (some ⟨pubuid, name⟩) } : ClientData) = d₁
  have hsub : (st.setClient guid d₁).thisClient.subscriptions = st.thisClient.subscriptions :=
    Instance.subscriptions_setClient hd (by rw [← hd₁])
  have hpublish {topics : Topics} (hname : name ∈ topics) (self : Bool) :
      ClientMove K topics self d d₁ := by
    rw [← hd₁]
    exact .publish (hasks self) ⟨pubuid, name⟩ hname
  unfold publishOrAnswer
  rw [Instance.topics_setClient]
  split
  · next hnone =>
    have hmoves : Moves K st
        (getOrCreateTopic (st.setClient guid d₁) name { type } properties).1 := by
      rw [getOrCreateTopic_setClient]
      exact .tail (getOrCreateTopic_moves st hcreates _ _) (.setClient
        (hd.getOrCreateTopic name _ _) (hpublish (mem_getOrCreateTopic st name _ _)))
    refine .map
      (.after hmoves ((publishTopicToPublisher_follows haccepts hmetas).imp fun r hr _ ↦ ?_))
    rw [← hsub]
    exact hr
  · next hnull => exact .error fun _ hst ↦ hst.topics name hnull
  · next t ht =>
    have hname : name ∈ st.topics := AList.mem_of_lookup ht
    have hmoves : Moves K st (st.setClient guid d₁) := .single (.setClient hd (hpublish hname))
    refine .after hmoves (.client rfl (hmoves.mem_clients.2 hguid) fun d' hd' ↦ ?_)
    refine .ok (.single (.setClient hd' fun _ ↦ .announceToPublisher ?_ pubuid))
      fun hnot ↦ absurd hname hnot
    rw [Instance.topics_setClient, ht]

theorem handlePublish_follows (hasks : ∀ self, K.asks self) {guid : Guid}
    (hguid : guid ∈ st.clients)
    {name : Str} {pubuid : Int32} {type : NTDataType} {properties : TopicProperties}
    (hcreates : K.creates name) (hmetas : name.isMeta = false → K.MetaTopicsOf name)
    (hclient : ∀ d, st.Behind guid d → K.missing ∨ st.HasTopic (clientPubName d.name))
    (hmeta : K.missing ∨ st.HasTopic (topicPubName name) ∨
      name ∉ st.topics ∧ name.isMeta = false ∧
        env.AcceptsTopic st.thisClient.subscriptions name ∧
        env.AcceptsTopic st.thisClient.subscriptions (topicSubName name)) :
    Follows K st (handlePublish env guid name pubuid type properties st) id
      (Published env name st) := by
  unfold handlePublish
  refine .client rfl hguid fun d hd ↦ ?_
  refine (publishOrAnswer_follows haccepts hasks hd hcreates hmetas).bind fun st₁ hm₁ hp₁ ↦ ?_
  refine (updateClientPubMetaTopic_follows haccepts (hm₁.mem_clients.2 hguid)
    (fun _ _ ↦ hassigns _) (hm₁.clientTopic hclient)).bind fun st₂ hm₂ _ ↦ ?_
  refine Ends.imp (updateTopicPubMetaTopic_follows haccepts (hassigns _) ?_) fun s hs ↦
    ⟨hs.1, hp₁.after (hm₂.trans hs.1)⟩
  refine hmeta.imp_right ?_
  rintro (hname | ⟨hname, hnmeta, hacc, hacc'⟩)
  · exact Moves.hasTopic (hm₁.trans hm₂) hname
  · exact hm₂.hasTopic (hp₁ hname hnmeta hacc hacc').2

omit haccepts hassigns in
/-- The end of a frame sends values and hands over the caches. -/
theorem handleTextEnd_emits {guid : Guid} (hguid : guid ∈ st.clients) :
    Emits K st (handleTextEnd env guid st) id := by
  unfold handleTextEnd
  refine flushText_emits.bind fun st₁ hm₁ htopics₁ ↦ ?_
  refine (publishInitialValues_emits (hm₁.mem_clients.2 hguid)).bind fun st₂ _ htopics₂ ↦ ?_
  exact flushBinary_emits.imp fun _ htopics ↦ htopics.trans (htopics₂.trans htopics₁)

end Messages

/-! ### Values of publishers -/

section Local

variable (haccepts : K.partly ∨ env.Accepts)

include haccepts

/-- The publisher may name a topic that does not exist, and then a null pointer is put in its
place. -/
theorem updatePublished_follows {pub : Publisher} {value : NTDataValue} {time : Instance → UInt64}
    (hassign : K.assigns pub.topic)
    (htopic : pub.topic ∈ st.topics ∨ K.creates pub.topic ∧ K.nulls) :
    Follows K st (updatePublished env pub value time st) id fun _ ↦ True := by
  unfold updatePublished
  split
  · next t ht =>
    split
    · exact assign_follows haccepts hassign ht fun hvalid ↦ NTDataValue.type_assign hvalid value
    · exact .error trivial
  · exact .ok .refl trivial
  · next hnone =>
    have hname := AList.lookup_eq_none.1 hnone
    exact .ok (.single (.nullTopic (htopic.resolve_left hname) hname)) trivial

/-- A value of a client is one of the publisher with this uid. -/
theorem handleValue_follows {guid : Guid} (hguid : guid ∈ st.clients)
    {m : BinaryMessage}
    (hnulls : ∀ d, st.Behind guid d →
      K.nulls ∨ ∃ pub, d.publishers.lookup m.id.toInt32 = some (some pub))
    (htopic : ∀ d pub, st.Behind guid d → d.publishers.lookup m.id.toInt32 = some (some pub) →
      K.assigns pub.topic ∧ (pub.topic ∈ st.topics ∨ K.creates pub.topic ∧ K.nulls)) :
    Follows K st (handleValue env guid m st) id fun _ ↦ True := by
  unfold handleValue
  refine .client rfl hguid fun d hd ↦ ?_
  have hupdate : Follows K st (updateOf env guid d m st) id fun _ ↦ True := by
    unfold updateOf
    split
    · next pub hpub =>
      obtain ⟨hassign, hexists⟩ := htopic d pub hd hpub
      exact updatePublished_follows haccepts hassign hexists
    · next hunknown =>
      have hK : K.nulls := (hnulls d hd).resolve_right fun ⟨pub, hpub⟩ ↦ hunknown pub hpub
      exact .ok (.single (.setClient hd fun _ ↦ .nullPublisher hK _)) trivial
  exact hupdate.bind fun _ _ _ ↦ flushBinary_emits.imp fun _ _ ↦ trivial

/-! ### The local interface -/

/-- The local client subscribes, and the record of the server is refreshed. -/
theorem localSubscribe_follows (hasks : K.asks true ∧ K.subscribes true)
    (hassign : K.assigns serverSubName) {topics : List Str}
    {subuid : Int32} {options : SubscriptionOptions}
    (hname : K.missing ∨ st.HasTopic serverSubName) :
    Follows K st (localSubscribe env topics subuid options st) id fun _ ↦ True := by
  have hm : Moves K st { st with thisClient := { st.thisClient with
      subscriptions :=
        st.thisClient.subscriptions.insert subuid (some ⟨subuid, topics, options⟩) } } :=
    .single (.self (.subscribe hasks ⟨subuid, topics, options⟩))
  unfold localSubscribe
  refine .after hm ((updateServerSubMetaTopic_follows haccepts hassign
    (hname.imp_right hm.hasTopic)).bind fun _ _ _ ↦ ?_)
  refine announceCachedTopicsSelf_emits.bind fun _ _ _ ↦ ?_
  exact publishInitialValuesSelf_emits.imp fun _ _ ↦ trivial

theorem localUnsubscribe_follows (hasks : K.asks true)
    (hassign : K.assigns serverSubName) {subuid : Int32}
    (hnulls : K.nulls ∨ ∃ sub, st.thisClient.subscriptions.lookup subuid = some (some sub))
    (hname : K.missing ∨ st.HasTopic serverSubName) :
    Follows K st (localUnsubscribe env subuid st) id fun _ ↦ True := by
  unfold localUnsubscribe
  split
  · have hm : Moves K st { st with thisClient := { st.thisClient with
        subscriptions := st.thisClient.subscriptions.erase subuid } } :=
      .single (.self (.unsubscribe hasks subuid))
    exact .after hm (updateServerSubMetaTopic_follows haccepts hassign
      (hname.imp_right hm.hasTopic))
  · next hunknown =>
    have hK : K.nulls := hnulls.resolve_right fun ⟨sub, hsub⟩ ↦ hunknown sub hsub
    exact .ok (.single (.self (.nullSubscription hK subuid))) trivial

/-- The local client ends a publication. -/
theorem localUnpublish_follows (hasks : K.asks true)
    (hassign : K.assigns serverPubName) {pubuid : Int32}
    (hnulls : K.nulls ∨ ∃ pub, st.thisClient.publishers.lookup pubuid = some (some pub))
    (hname : K.missing ∨ st.HasTopic serverPubName) :
    Follows K st (localUnpublish env pubuid st) id fun _ ↦ True := by
  unfold localUnpublish
  split
  · have hm : Moves K st { st with thisClient := { st.thisClient with
        publishers := st.thisClient.publishers.erase pubuid } } :=
      .single (.self (.unpublish hasks pubuid))
    exact .after hm (updateServerPubMetaTopic_follows haccepts hassign
      (hname.imp_right hm.hasTopic))
  · next hunknown =>
    have hK : K.nulls := hnulls.resolve_right fun ⟨pub, hpub⟩ ↦ hunknown pub hpub
    exact .ok (.single (.self (.nullPublisher hK pubuid))) trivial

omit haccepts in
theorem localSetProperties_follows {name : Str} {update : TopicProperties}
    (hcreates : K.creates name) (hconfigures : K.configures name)
    (hnulls : K.nulls ∨ name ∈ st.topics) :
    Follows K st (localSetProperties env name update st) id fun _ ↦ True := by
  unfold localSetProperties
  split
  · next t ht => exact setProperties_follows hconfigures ht _ _
  · exact .ok .refl trivial
  · next hnone =>
    have hname := AList.lookup_eq_none.1 hnone
    exact .ok (.single (.nullTopic ⟨hcreates, hnulls.resolve_right hname⟩ hname)) trivial

theorem localUpdateTopic_follows {id : Int32} {value : NTDataValue} {time : UInt64}
    (hnulls : K.nulls ∨ ∃ pub, st.thisClient.publishers.lookup id = some (some pub))
    (htopic : ∀ pub, st.thisClient.publishers.lookup id = some (some pub) →
      K.assigns pub.topic ∧ (pub.topic ∈ st.topics ∨ K.creates pub.topic ∧ K.nulls)) :
    Follows K st (localUpdateTopic env id value time st) (fun s ↦ s) fun _ ↦ True := by
  unfold localUpdateTopic
  split
  · next pub hpub =>
    obtain ⟨hassign, hexists⟩ := htopic pub hpub
    exact updatePublished_follows haccepts hassign hexists
  · next hunknown =>
    have hK : K.nulls := hnulls.resolve_right fun ⟨pub, hpub⟩ ↦ hunknown pub hpub
    exact .ok (.single (.self (.nullPublisher hK id))) trivial

/-- The publisher is put into the map before its topic is made; the two commute. -/
theorem publishOrLookUp_follows (hasks : K.asks true) {name : Str}
    {pubuid : Int32} {type : NTDataType}
    {properties : TopicProperties} (hcreates : K.creates name)
    (hmetas : name.isMeta = false → K.MetaTopicsOf name)
    (hnumbered : K.unnumbered ∨ name ∈ st.topics ∨ st.HearsOf name) :
    Follows K st (publishOrLookUp env name type properties { st with thisClient :=
      { st.thisClient with
        publishers := st.thisClient.publishers.insert pubuid (some ⟨pubuid, name⟩) } }) Prod.fst
      fun r ↦ Published env name st r.1 := by
  generalize hd₁ : ({ st.thisClient with
    publishers := st.thisClient.publishers.insert pubuid (some ⟨pubuid, name⟩) } : ClientData) = d₁
  have hsub : d₁.subscriptions = st.thisClient.subscriptions := by rw [← hd₁]
  have hpublish {topics : Topics} (hname : name ∈ topics) :
      ClientMove K topics true st.thisClient d₁ := by
    rw [← hd₁]
    exact .publish hasks ⟨pubuid, name⟩ hname
  unfold publishOrLookUp
  split
  · next hnone =>
    have hname : name ∉ st.topics := AList.lookup_eq_none.1 hnone
    have hmoves : Moves K st
        (getOrCreateTopic { st with thisClient := d₁ } name { type } properties).1 := by
      rw [getOrCreateTopic, hnone]
      have hcreate : Move K st (st.setTopic name ⟨{ name, value := { type }, properties }, rfl⟩) :=
        .create hcreates hname { type } properties
      exact .tail (.single hcreate) (.self (hpublish ((AList.mem_insert _).2 (.inl rfl))))
    have hhears : K.unnumbered ∨ Instance.HearsOf { st with thisClient := d₁ } name := by
      rcases hnumbered with hK | hname' | ⟨hself, hmatch⟩
      · exact .inl hK
      · exact absurd hname' hname
      · exact .inr ⟨hself, by rwa [hsub]⟩
    refine .after hmoves ((publishTopicSelfSync_follows haccepts hmetas hhears).imp fun r hr _ ↦ ?_)
    rw [← hsub]
    exact hr.2
  · next hnull => exact .error fun _ hst ↦ hst.topics name hnull
  · next t ht =>
    have hname : name ∈ st.topics := AList.mem_of_lookup ht
    have hmoves : Moves K st { st with thisClient := d₁ } := .single (.self (hpublish hname))
    exact .ok (hmoves.tail (.self (.announceSelf ht))) fun hnot ↦ absurd hname hnot

/-- The only place where an entry may be made without a number. -/
theorem localPublish_follows (hasks : K.asks true) (hassign : K.assigns serverPubName)
    {name : Str} {pubuid : Int32}
    {type : NTDataType} {properties : TopicProperties} (hcreates : K.creates name)
    (hmetas : name.isMeta = false → K.MetaTopicsOf name)
    (hnumbered : K.unnumbered ∨ name ∈ st.topics ∨ st.HearsOf name)
    (hname : K.missing ∨ st.HasTopic serverPubName) :
    Follows K st (localPublish env name pubuid type properties st) Prod.fst
      fun r ↦ Published env name st r.1 := by
  unfold localPublish
  refine (publishOrLookUp_follows haccepts hasks hcreates hmetas hnumbered).bind fun r hm hp ↦ ?_
  refine (updateServerPubMetaTopic_follows haccepts hassign
    (hname.imp_right hm.hasTopic)).bind fun s hm' _ ↦ ?_
  exact .ok .refl (hp.after hm')

end Local

/-! ### Clients that come and go -/

/-- A step of the server: a move, or a client comes or goes. -/
inductive Change (K : Allow) : Instance → Instance → Prop
  | move {st st' : Instance} (h : Move K st st') : Change K st st'
  /-- Nothing a client could see changes: the mutex, the list of connections. -/
  | idle {st st' : Instance} (ht : st'.topics = st.topics) (hc : st'.clients = st.clients)
    (hs : st'.thisClient = st.thisClient) : Change K st st'
  /-- A new client: nothing is known of it but its guid and its name. -/
  | join {st : Instance} (guid : Guid) (name : Str) :
    Change K st (st.insertClient guid { guid, name })
  | leave {st : Instance} (guid : Guid) :
    Change K st (st.eraseClient guid)

/-- A sequence of moves, with clients coming and going. -/
abbrev Changes (K : Allow) : Instance → Instance → Prop :=
  ReflTransGen (Change K)

/-- A run of the server is made of moves, and of clients that come and go. -/
theorem Moves.changes {st' : Instance} (h : Moves K st st') : Changes K st st' :=
  h.lift id fun _ _ ↦ .move

omit [FloatCodec] in
/-- The data of a new client. -/
theorem ClientData.Rooted.fresh (topics : Topics) (guid : Guid) (name : Str) :
    ClientData.Rooted topics { guid, name } where
  subscriptions _ := by simp
  publishers _ := by simp
  announced _ h := absurd h (AList.notMem_empty _)
  published _ _ h := by simp at h

/-- No single change makes a null pointer, if none may be inserted. -/
theorem Change.rooted {st' : Instance} (hK : ¬K.nulls) (h : Change K st st') (hst : st.Rooted) :
    st'.Rooted := by
  cases h with
  | move h => exact h.rooted hK hst
  | idle ht hc hs =>
    refine ⟨by rw [ht]; exact hst.topics, by rw [hc]; exact hst.clients, ?_⟩
    unfold Instance.AllClients
    rw [ht, hc, hs]
    exact hst.data
  | join guid name =>
    refine ⟨hst.topics, fun guid' ↦ ?_, fun guid' d hd ↦ ?_, hst.data.2⟩
    · rw [Instance.insertClient, AList.lookup_insert_ite]
      split
      · simp
      · exact hst.clients guid'
    · rw [Instance.insertClient, AList.lookup_insert_ite] at hd
      split at hd
      · cases hd
        exact .fresh st.topics guid name
      · exact hst.data.1 guid' d hd
  | leave guid =>
    refine ⟨hst.topics, fun guid' ↦ ?_, fun guid' d hd ↦ ?_, hst.data.2⟩
    · rw [Instance.eraseClient, AList.lookup_erase_ite]
      split
      · simp
      · exact hst.clients guid'
    · rw [Instance.eraseClient, AList.lookup_erase_ite] at hd
      split at hd
      · cases hd
      · exact hst.data.1 guid' d hd

theorem Changes.rooted {st' : Instance} (hK : ¬K.nulls) (h : Changes K st st') (hst : st.Rooted) :
    st'.Rooted := by
  induction h with
  | refl => exact hst
  | tail _ h ih => exact h.rooted hK ih

/-- The names in use are read. -/
theorem nextClientWithName_follows {name : Str} :
    Follows K st (nextClientWithName env st name) (fun _ ↦ st) fun _ ↦ True := by
  refine .foldlM (fun guid hguid _ _ _ ↦ ?_) .refl trivial
  split
  · exact .ok .refl trivial
  · refine .client rfl (env.guids.mem_keys.1 hguid) fun d _ ↦ ?_
    split
    · split <;> exact .ok .refl trivial
    · exact .ok .refl trivial

/-- What a new client is called that asks for this name. -/
def IssuedName (env : Env) (st : Instance) (name n : Str) : Prop :=
  ∃ num, nextClientWithName env st name = .ok num ∧ n = name ++ ascii "@" ++ decimal num.toNat

section Connections

variable (haccepts : K.partly ∨ env.Accepts) (hassign : K.assigns clientsName)
  (hclients : K.missing ∨ st.HasTopic clientsName)

include haccepts hassign hclients

/-- A new client joins under a name, and then there are only moves. -/
theorem handleConnect_ends {entry : ClientEntry} {name : Str}
    (hcreates : ∀ name, name.isMeta → K.creates name)
    (hassigns : ∀ n, K.assigns (clientSubName n) ∧ K.assigns (clientPubName n)) :
    Ends (handleConnect env entry name st)
      (fun s ↦ ∃ n : Str, Moves K (st.insertClient entry.guid { guid := entry.guid, name := n }) s ∧
        s.HasTopic (clientSubName n) ∧ s.HasTopic (clientPubName n) ∧ IssuedName env st name n)
      (·.Admitted K st) := by
  unfold handleConnect
  have hnext : Follows K st (nextClientWithName env st name) (fun _ ↦ st) fun _ ↦ True :=
    nextClientWithName_follows
  cases hnum : nextClientWithName env st name with
  | error e => exact hnext.of_error hnum
  | ok num =>
  rw [ok_bind]
  dsimp only
  generalize hn : name ++ ascii "@" ++ decimal num.toNat = n
  generalize hjoin : st.insertClient entry.guid { guid := entry.guid, name := n } = st₀
  have hlookup : st₀.clients.lookup entry.guid =
      some (.remote { guid := entry.guid, name := n }) := by
    rw [← hjoin]
    exact AList.lookup_insert _
  have hguid : entry.guid ∈ st₀.clients := AList.mem_of_lookup hlookup
  have hclients : K.missing ∨ st₀.HasTopic clientsName := by rwa [← hjoin]
  -- the client keeps its name in all that follows
  have hnamed {s : Instance} (hm : Moves K st₀ s) {f : Str → Str} (hf : s.HasTopic (f n)) :
      ∀ d, s.Behind entry.guid d → K.missing ∨ s.HasTopic (f d.name) := by
    intro d hd
    obtain ⟨d₀, hself | hd₀, hname⟩ := hm.behind hd
    · rw [hlookup] at hself
      cases hself.1
    · rw [hlookup] at hd₀
      cases hd₀
      exact .inr (hname ▸ hf)
  refine Ends.mono (Q := fun s ↦ Moves K st₀ s ∧ s.HasTopic (clientSubName n) ∧
    s.HasTopic (clientPubName n)) (E := (·.Admitted K st₀)) ?_
    (fun s hs ↦ ⟨n, by rw [hjoin]; exact hs.1, hs.2.1, hs.2.2, num, hnum, hn.symm⟩) fun e he ↦
      he.of_rooted fun hK hst ↦ ?_
  rotate_left
  · rw [← hjoin]
    exact (Change.join (K := K) entry.guid n).rooted hK hst
  show Follows K st₀ _ id _
  refine (publishMetaTopic_follows (hcreates _ rfl)).bind fun r₁ hm₁ ⟨hsub, _⟩ ↦ ?_
  refine (publishMetaTopic_follows (hcreates _ rfl)).bind fun r₂ hm₂ ⟨hpub, _⟩ ↦ ?_
  have hsub := hm₂.hasTopic hsub
  have hm₂ : Moves K st₀ r₂.1 := hm₁.trans hm₂
  refine (updateClientsMetaTopic_follows haccepts hassign
    (hclients.imp_right hm₂.hasTopic)).bind fun st₃ hm₃ _ ↦ ?_
  have hsub := hm₃.hasTopic hsub
  have hpub := hm₃.hasTopic hpub
  have hm₃ : Moves K st₀ st₃ := hm₂.trans hm₃
  refine (updateClientSubMetaTopic_follows haccepts (hm₃.mem_clients.2 hguid)
    (fun _ _ ↦ (hassigns _).1) (hnamed hm₃ hsub)).bind fun st₄ hm₄ _ ↦ ?_
  have hsub := hm₄.hasTopic hsub
  have hpub := hm₄.hasTopic hpub
  have hm₄ : Moves K st₀ st₄ := hm₃.trans hm₄
  refine (updateClientPubMetaTopic_follows haccepts (hm₄.mem_clients.2 hguid)
    (fun _ _ ↦ (hassigns _).2) (hnamed hm₄ hpub)).bind fun st₅ hm₅ _ ↦ ?_
  have hguid₅ := hm₅.mem_clients.2 (hm₄.mem_clients.2 hguid)
  refine .client rfl hguid₅ fun d₅ hd₅ ↦ ?_
  have hm₆ : Moves K st₅ (st₅.setClient entry.guid (d₅.flushText MAX_CLIENT_TEXT_CACHE_LENGTH)) :=
    .single (.setClient hd₅ fun _ ↦ .flushText _)
  have hguid₆ := hm₆.mem_clients.2 hguid₅
  refine .after hm₆ ((publishInitialValues_emits hguid₆).bind fun st₇ hm₇ _ ↦ ?_)
  refine .client rfl (hm₇.mem_clients.2 hguid₆) fun d₇ hd₇ ↦ ?_
  have hm₈ :
      Moves K st₇ (st₇.setClient entry.guid (d₇.flushBinary MAX_CLIENT_BINARY_CACHE_LENGTH)) :=
    .single (.setClient hd₇ fun _ ↦ .flushBinary _)
  have hrest : Moves K st₄ _ := hm₅.trans (hm₆.trans (hm₇.trans hm₈))
  exact .ok hm₈ ⟨hrest.hasTopic hsub, hrest.hasTopic hpub⟩

/-- A client leaves, and then there are only moves. -/
theorem handleDisconnect_ends {guid : Guid} (hguid : guid ∈ st.clients) :
    Ends (handleDisconnect env guid st)
      (fun s ↦ (∃ d, st.clients.lookup guid = some (.remote d)) ∧
        Moves K (st.eraseClient guid) s)
      (·.Admitted K st) := by
  unfold handleDisconnect
  split
  · next hnull => exact fun _ hst ↦ hst.clients guid hnull
  · next hnone => exact absurd hguid (AList.lookup_eq_none.1 hnone)
  · trivial
  · next d hd =>
    refine Ends.mono (Q := fun s ↦ Moves K (st.eraseClient guid) s ∧ True)
      (E := (·.Admitted K (st.eraseClient guid))) ?_ (fun s hs ↦ ⟨⟨d, hd⟩, hs.1⟩)
      fun e he ↦ he.of_rooted fun hK hst ↦ (Change.leave (K := K) guid).rooted hK hst
    show Follows K (st.eraseClient guid) _ id _
    have hclients : K.missing ∨ (st.eraseClient guid).HasTopic clientsName := hclients
    exact (updateClientsMetaTopic_follows haccepts hassign hclients).bind fun _ _ _ ↦
      flushBinary_emits.imp fun _ _ ↦ trivial

end Connections

/-! ### The start -/

omit [FloatCodec] in
/-- The local client alone: no pointer is null. -/
theorem Instance.initial_rooted : Instance.initial.Rooted where
  topics _ := by simp [Instance.initial]
  clients guid := by
    rw [Instance.initial, AList.lookup_insert_ite]
    split <;> simp
  data := by
    refine ⟨fun guid d hd ↦ ?_, .fresh _ _ _⟩
    rw [Instance.initial, AList.lookup_insert_ite] at hd
    split at hd <;> cases hd

/-- Starting the server makes its three meta topics. -/
theorem startServer_follows (haccepts : K.partly ∨ env.Accepts)
    (hassigns : ∀ name, K.assigns name) (hcreates : ∀ name, name.isMeta → K.creates name) :
    Follows K .initial (startServer env) id fun s ↦
      s.HasTopic clientsName ∧ s.HasTopic serverSubName ∧ s.HasTopic serverPubName := by
  unfold startServer
  refine (publishMetaTopic_follows (hcreates _ rfl)).bind fun r₁ _ ⟨hclients, _⟩ ↦ ?_
  refine (publishMetaTopic_follows (hcreates _ rfl)).bind fun r₂ hm₂ ⟨hsub, _⟩ ↦ ?_
  refine (publishMetaTopic_follows (hcreates _ rfl)).bind fun r₃ hm₃ ⟨hpub, _⟩ ↦ ?_
  have hclients := Moves.hasTopic (hm₂.trans hm₃) hclients
  have hsub := hm₃.hasTopic hsub
  refine (updateClientsMetaTopic_follows haccepts (hassigns _) (.inr hclients)).bind
    fun st₄ hm₄ _ ↦ ?_
  refine (updateServerSubMetaTopic_follows haccepts (hassigns _)
    (.inr (hm₄.hasTopic hsub))).bind fun st₅ hm₅ _ ↦ ?_
  have hm₅ : Moves K r₃.1 st₅ := hm₄.trans hm₅
  refine (updateServerPubMetaTopic_follows haccepts (hassigns _)
    (.inr (hm₅.hasTopic hpub))).bind fun st₆ hm₆ _ ↦ ?_
  refine flushText_emits.bind fun st₇ hm₇ _ ↦ Ends.imp flushBinary_emits fun s hs ↦ ⟨hs.1, ?_⟩
  have hrest : Moves K r₃.1 s := hm₅.trans (hm₆.trans (hm₇.trans hs.1))
  exact ⟨hrest.hasTopic hclients, hrest.hasTopic hsub, hrest.hasTopic hpub⟩

end

end NetworkTables
