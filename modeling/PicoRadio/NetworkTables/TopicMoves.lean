import PicoRadio.NetworkTables.Emission
import PicoRadio.NetworkTables.MetaTopics

/-!
# The moves of meta topics and of publications

Refreshing a meta topic changes a value and broadcasts it; publishing a topic creates it if it is
new, announces it, and does the same for its two meta topics.

A local publication reads the id of the topic with the subscript operator. That makes no entry if
the local client has just been announced the topic, which it has if it is registered and holds a
subscription that matches (`Instance.HearsOf`).

## Meta topics

A meta topic is stored by one function, whatever its name and its list: `storeMetaTopic_follows` is
the lemma, and the lemma of every `update…MetaTopic` names the list that is packed before it.
Packing follows the pointers of a map, and fails for a null pointer alone (`packAll_ends`). The
topic has to exist, or a missing one has to be allowed (`Allow.missing`).

## Publications

The two ways of publishing differ in how the topic is announced. So `publishTopicWith_follows` takes
the announcement as a parameter, with what it leads to as a hypothesis, and both are instances of
it. The meta topics of a topic are published by the same function, one level down: a meta topic has
no meta topics of its own, which is what ends the recursion in the source.
-/

namespace NetworkTables

open Relation

section

variable [FloatCodec] {K : Allow} {env : Env} {st : Instance}

/-! ### Reading the maps -/

omit [FloatCodec] in
/-- Packing a map follows every pointer in it. -/
theorem packAll_ends {α : Type} (pack : α → Bytes) (m : AList fun _ : Int32 ↦ Option α) :
    Ends (packAll env pack m) (fun _ ↦ True)
      fun e ↦ e = .nullDeref ∧ ∃ uid, m.lookup uid = some none := by
  refine Ends.bind (Ends.foldlM (I := fun _ ↦ True) (fun uid _ _ _ ↦ ?_) trivial) fun _ _ ↦ trivial
  split
  · trivial
  · next hnull => exact ⟨rfl, uid, hnull⟩
  · trivial

/-- The list of clients is read, and nothing changes. -/
theorem listedClients_follows : Follows K st (listedClients st) (fun _ ↦ st) fun _ ↦ True := by
  refine .foldlM (fun entry _ _ _ _ ↦ ?_) .refl trivial
  split
  · exact .ok .refl trivial
  · next hp => exact .client rfl (AList.mem_of_lookup hp) fun _ _ ↦ .ok .refl trivial

/-- The subscriptions that match a topic are read, client by client. -/
theorem topicSubscriptions_follows {name : Str} :
    Follows K st (topicSubscriptions env st name) (fun _ ↦ st) fun _ ↦ True := by
  refine .foldlM (fun guid hguid _ _ _ ↦ ?_) .refl trivial
  split
  · exact .ok .refl trivial
  · refine .client rfl (env.guids.mem_keys.1 hguid) fun d hd ↦
      .isSubscribed (fun hst ↦ hst.behind hd) fun sub _ ↦ ?_
    cases sub <;> exact .ok .refl trivial

/-- The publishers of a topic are read, client by client. -/
theorem topicPublishers_follows {name : Str} :
    Follows K st (topicPublishers env st name) (fun _ ↦ st) fun _ ↦ True := by
  refine .foldlM (fun guid hguid _ _ _ ↦ ?_) .refl trivial
  split
  · exact .ok .refl trivial
  · refine .client rfl (env.guids.mem_keys.1 hguid) fun d hd ↦
      .foldlM (fun uid _ _ _ _ ↦ ?_) .refl trivial
    split
    · exact .ok .refl trivial
    · next hnull => exact .error fun _ hst ↦ (hst.behind hd).publishers uid hnull
    · exact .ok .refl trivial

/-! ### Refreshing -/

/-- Setting the value of a topic and broadcasting it. -/
theorem assign_follows (haccepts : K.partly ∨ env.Accepts) {name : Str} {t : TopicAt name}
    (hK : K.assigns name) (ht : st.topics.lookup name = some (some t)) {value : NTDataValue}
    (htype : t.1.value.isValid → value.type = t.1.value.type) {time : UInt64} :
    Follows K st (Prod.fst <$> sendTopicUpdate env (st.setTopic name (t.setValue value))
      (t.setValue value).1 time) id fun _ ↦ True := by
  refine .map ((sendTopicUpdate_ends (K := K) _ time).mono ?_ ?_)
  · rintro r ⟨hr, htrue⟩
    exact ⟨.single (.assign hK ht value htype time _ (haccepts.imp_right htrue) hr), trivial⟩
  · exact fun e he ↦ he.of_rooted fun _ hst ↦ hst.setTopic _

variable (haccepts : K.partly ∨ env.Accepts)

include haccepts

/-- A meta topic that exists gets the packed list as its value, and the value is broadcast. -/
theorem storeMetaTopic_follows {name : Str} {packed : Bytes} (hK : K.assigns name)
    (hname : K.missing ∨ st.HasTopic name) :
    Follows K st (storeMetaTopic env st name packed) id fun _ ↦ True := by
  have hmissing (hnone : ∀ t, st.topics.lookup name ≠ some (some t)) : K.missing :=
    hname.resolve_right fun ⟨t, ht⟩ ↦ hnone t ht
  unfold storeMetaTopic
  split
  · next t ht =>
    refine assign_follows haccepts hK ht fun _ ↦ ?_
    rfl
  · next hnull => exact .error (hmissing (by simp [hnull]))
  · next hnone => exact .error (hmissing (by simp [hnone]))

/-- The list of the clients. -/
theorem updateClientsMetaTopic_follows (hK : K.assigns clientsName)
    (hname : K.missing ∨ st.HasTopic clientsName) :
    Follows K st (updateClientsMetaTopic env st) id fun _ ↦ True :=
  listedClients_follows.bind fun _ _ _ ↦ storeMetaTopic_follows haccepts hK hname

/-- Packing the records of a client and storing them. -/
theorem storePacked_follows {α : Type} {pack : α → Bytes} {m : AList fun _ : Int32 ↦ Option α}
    (hm : st.Rooted → ∀ uid, m.lookup uid ≠ some none) {name : Str} (hK : K.assigns name)
    (hname : K.missing ∨ st.HasTopic name) :
    Follows K st (packAll env pack m >>= fun packed ↦ storeMetaTopic env st name packed) id
      fun _ ↦ True := by
  refine .look ((packAll_ends pack m).mono (fun _ ↦ id) ?_) fun _ _ ↦
    storeMetaTopic_follows haccepts hK hname
  rintro e ⟨rfl, uid, huid⟩
  exact fun _ hst ↦ hm hst uid huid

/-- What the local client subscribes to. -/
theorem updateServerSubMetaTopic_follows (hK : K.assigns serverSubName)
    (hname : K.missing ∨ st.HasTopic serverSubName) :
    Follows K st (updateServerSubMetaTopic env st) id fun _ ↦ True :=
  storePacked_follows haccepts (fun hst ↦ hst.data.2.subscriptions) hK hname

/-- What the local client publishes. -/
theorem updateServerPubMetaTopic_follows (hK : K.assigns serverPubName)
    (hname : K.missing ∨ st.HasTopic serverPubName) :
    Follows K st (updateServerPubMetaTopic env st) id fun _ ↦ True :=
  storePacked_follows haccepts (fun hst ↦ hst.data.2.publishers) hK hname

/-- What a client subscribes to. Its name is looked up, so it has to be in the map. -/
theorem updateClientSubMetaTopic_follows {guid : Guid} (hguid : guid ∈ st.clients)
    (hK : ∀ d, st.Behind guid d → K.assigns (clientSubName d.name))
    (hname : ∀ d, st.Behind guid d → K.missing ∨ st.HasTopic (clientSubName d.name)) :
    Follows K st (updateClientSubMetaTopic env st guid) id fun _ ↦ True :=
  .client rfl hguid fun d hd ↦
    storePacked_follows haccepts (fun hst ↦ (hst.behind hd).subscriptions) (hK d hd) (hname d hd)

/-- What a client publishes. -/
theorem updateClientPubMetaTopic_follows {guid : Guid} (hguid : guid ∈ st.clients)
    (hK : ∀ d, st.Behind guid d → K.assigns (clientPubName d.name))
    (hname : ∀ d, st.Behind guid d → K.missing ∨ st.HasTopic (clientPubName d.name)) :
    Follows K st (updateClientPubMetaTopic env st guid) id fun _ ↦ True :=
  .client rfl hguid fun d hd ↦
    storePacked_follows haccepts (fun hst ↦ (hst.behind hd).publishers) (hK d hd) (hname d hd)

/-- Who subscribes to a topic. -/
theorem updateTopicSubMetaTopic_follows {name : Str} (hK : K.assigns (topicSubName name))
    (hname : K.missing ∨ st.HasTopic (topicSubName name)) :
    Follows K st (updateTopicSubMetaTopic env st name) id fun _ ↦ True :=
  topicSubscriptions_follows.bind fun _ _ _ ↦ storeMetaTopic_follows haccepts hK hname

/-- Who publishes a topic. -/
theorem updateTopicPubMetaTopic_follows {name : Str} (hK : K.assigns (topicPubName name))
    (hname : K.missing ∨ st.HasTopic (topicPubName name)) :
    Follows K st (updateTopicPubMetaTopic env st name) id fun _ ↦ True :=
  topicPublishers_follows.bind fun _ _ _ ↦ storeMetaTopic_follows haccepts hK hname

/-! ### Creating topics -/

omit [FloatCodec] haccepts in
/-- A topic that is new is created; either way the pointer returned is the one stored. -/
theorem getOrCreateTopic_spec (st : Instance) (name : Str) (value : NTDataValue)
    (properties : TopicProperties) :
    (st.topics.lookup name = some (getOrCreateTopic st name value properties).2 ∧
        (getOrCreateTopic st name value properties).1 = st) ∨
      name ∉ st.topics ∧
        (getOrCreateTopic st name value properties).2 = some ⟨{ name, value, properties }, rfl⟩ ∧
        (getOrCreateTopic st name value properties).1 =
          st.setTopic name ⟨{ name, value, properties }, rfl⟩ := by
  unfold getOrCreateTopic
  split
  · next p hp => exact .inl ⟨hp, rfl⟩
  · next hnone => exact .inr ⟨AList.lookup_eq_none.1 hnone, rfl, rfl⟩

omit haccepts in
/-- A topic that is not in the map is put there, which has to be allowed. -/
theorem getOrCreateTopic_moves (st : Instance) {name : Str} (hK : K.creates name)
    (value : NTDataValue) (properties : TopicProperties) :
    Moves K st (getOrCreateTopic st name value properties).1 := by
  rcases getOrCreateTopic_spec st name value properties with ⟨-, hst⟩ | ⟨hname, -, hst⟩
  · rw [hst]
  · rw [hst]
    exact .single (.create hK hname value properties)

omit [FloatCodec] haccepts in
/-- The pointer that is returned is the one in the map. -/
theorem lookup_getOrCreateTopic (st : Instance) (name : Str) (value : NTDataValue)
    (properties : TopicProperties) :
    (getOrCreateTopic st name value properties).1.topics.lookup name =
      some (getOrCreateTopic st name value properties).2 := by
  rcases getOrCreateTopic_spec st name value properties with ⟨hp, hst⟩ | ⟨-, hp, hst⟩
  · rw [hst, hp]
  · rw [hst, hp]
    exact AList.lookup_insert _

omit [FloatCodec] haccepts in
/-- The local client hears of a new topic later. -/
theorem thisClient_getOrCreateTopic (st : Instance) (name : Str) (value : NTDataValue)
    (properties : TopicProperties) :
    (getOrCreateTopic st name value properties).1.thisClient = st.thisClient := by
  rcases getOrCreateTopic_spec st name value properties with ⟨-, hst⟩ | ⟨-, -, hst⟩ <;> rw [hst]
  rfl

omit [FloatCodec] haccepts in
theorem mem_getOrCreateTopic (st : Instance) (name : Str) (value : NTDataValue)
    (properties : TopicProperties) :
    name ∈ (getOrCreateTopic st name value properties).1.topics :=
  AList.mem_of_lookup (lookup_getOrCreateTopic st name value properties)

omit [FloatCodec] haccepts in
theorem Instance.Behind.getOrCreateTopic {guid : Guid} {d : ClientData} (hd : st.Behind guid d)
    (name : Str) (value : NTDataValue) (properties : TopicProperties) :
    (getOrCreateTopic st name value properties).1.Behind guid d := by
  rcases getOrCreateTopic_spec st name value properties with ⟨-, hst⟩ | ⟨-, -, hst⟩ <;> rw [hst]
  · exact hd
  · exact hd.setTopic _ _

omit [FloatCodec] haccepts in
/-- Making a topic and changing a client do not interfere. -/
theorem getOrCreateTopic_setClient (st : Instance) (guid : Guid) (d : ClientData) (name : Str)
    (value : NTDataValue) (properties : TopicProperties) :
    (getOrCreateTopic (st.setClient guid d) name value properties).1 =
      (getOrCreateTopic st name value properties).1.setClient guid d := by
  unfold getOrCreateTopic
  rw [Instance.topics_setClient]
  cases st.topics.lookup name with
  | some p => rfl
  | none => exact st.setTopic_setClient guid d name _

omit haccepts in
/-- A meta topic exists after its publication. -/
theorem publishMetaTopic_follows {name : Str} (hK : K.creates name) :
    Follows K st (publishMetaTopic env st name) Prod.fst fun r ↦ r.1.HasTopic name ∧
      r.1.thisClient.subscriptions = st.thisClient.subscriptions ∧
      (env.AcceptsTopic st.thisClient.subscriptions name → r.2 = true) := by
  have hmoves := getOrCreateTopic_moves st hK metaValue metaProperties
  have hp := lookup_getOrCreateTopic st name metaValue metaProperties
  have hself := thisClient_getOrCreateTopic st name metaValue metaProperties
  rcases hr : getOrCreateTopic st name metaValue metaProperties with ⟨st', _ | t⟩
  all_goals
    rw [hr] at hmoves hp hself
    simp only [publishMetaTopic, hr]
    refine .after hmoves ?_
  · exact .error fun _ hst ↦ hst.topics name hp
  · refine (announceTopic_follows hp).imp fun r h ↦ ⟨⟨t, by rw [h.topics, hp]⟩, ?_⟩
    rw [← hself]
    exact ⟨h.subscriptions, h.succeeds⟩

omit [FloatCodec] haccepts in
/-- The meta topics of a name may be made and refreshed. -/
def Allow.MetaTopicsOf (K : Allow) (name : Str) : Prop :=
  (K.creates (topicSubName name) ∧ K.creates (topicPubName name)) ∧
    K.assigns (topicSubName name) ∧ K.assigns (topicPubName name)

/-- Both records are there after it, if the announcement of the first one was not turned down. -/
theorem publishMetaTopicsOf_follows {name : Str} (hK : K.MetaTopicsOf name) :
    Follows K st (publishMetaTopicsOf env st name) Prod.fst fun r ↦
      env.AcceptsTopic st.thisClient.subscriptions (topicSubName name) →
        r.1.HasTopic (topicSubName name) ∧ r.1.HasTopic (topicPubName name) := by
  unfold publishMetaTopicsOf
  refine (publishMetaTopic_follows hK.1.1).bind fun r _ ⟨hsub, _, hok⟩ ↦ ?_
  split
  · refine (publishMetaTopic_follows hK.1.2).bind fun r' hmoves ⟨hpub, _, _⟩ ↦ ?_
    have hsub := hmoves.hasTopic hsub
    split
    · refine (updateTopicSubMetaTopic_follows haccepts hK.2.1 (.inr hsub)).bind
        fun st' hmoves' _ ↦ ?_
      have hpub := hmoves'.hasTopic hpub
      refine (updateTopicPubMetaTopic_follows haccepts hK.2.2 (.inr hpub)).bind
        fun st'' hmoves'' _ ↦ ?_
      exact .ok .refl fun _ ↦ ⟨hmoves''.hasTopic (hmoves'.hasTopic hsub), hmoves''.hasTopic hpub⟩
    · exact .ok .refl fun _ ↦ ⟨hsub, hpub⟩
  · next hstop => exact .ok .refl fun haccepts ↦ absurd (hok haccepts) hstop

/-- The topic exists after its publication, and so do its meta topics unless it is one itself or the
local client turned an announcement down. What the announcement of the topic achieves is carried
along as `A`. -/
theorem publishTopicWith_follows {announce : Instance → Topic → Except Fault (Instance × Bool)}
    {name : Str} {value : NTDataValue} {properties : TopicProperties} {A : Instance → Prop}
    (hK : name.isMeta = false → K.MetaTopicsOf name)
    (hannounce : ∀ {st t}, st.topics.lookup name = some (some t) →
      Follows K st (announce st t.1) Prod.fst (Announced env name st))
    (hannounced : ∀ t, (getOrCreateTopic st name value properties).1.topics.lookup name =
        some (some t) →
      Ends (announce (getOrCreateTopic st name value properties).1 t.1) (fun r ↦ A r.1)
        fun _ ↦ True)
    (hA : ∀ {s s'}, Moves K s s' → A s → A s') :
    Follows K (getOrCreateTopic st name value properties).1
      (publishTopicWith env announce st name value properties) Prod.fst fun r ↦
      r.1.HasTopic name ∧ A r.1 ∧
        (name.isMeta = false → env.AcceptsTopic st.thisClient.subscriptions name →
          env.AcceptsTopic st.thisClient.subscriptions (topicSubName name) →
          r.1.HasTopic (topicSubName name) ∧ r.1.HasTopic (topicPubName name)) := by
  have hp := lookup_getOrCreateTopic st name value properties
  rw [← thisClient_getOrCreateTopic st name value properties]
  rcases hr : getOrCreateTopic st name value properties with ⟨st', _ | t⟩
  all_goals
    rw [hr] at hp hannounced
    simp only [publishTopicWith, hr]
  · exact .error fun _ hst ↦ hst.topics name hp
  · have hfirst : Follows K st' (announce st' t.1) Prod.fst fun r ↦
      Announced env name st' r ∧ A r.1 :=
      ((hannounce hp).and (hannounced t hp)).mono (fun r h ↦ ⟨h.1.1, h.1.2, h.2⟩) fun _ h ↦ h.1
    refine hfirst.bind fun r hr ⟨hann, hAr⟩ ↦ ?_
    have hname : r.1.HasTopic name := hr.hasTopic ⟨t, hp⟩
    split
    · split
      · next hmeta => exact .ok .refl ⟨hname, hAr, fun h ↦ by rw [hmeta] at h; cases h⟩
      · next hmeta =>
        refine Ends.imp (publishMetaTopicsOf_follows haccepts (hK (by simpa using hmeta)))
          fun r' hr' ↦ ⟨hr'.1, ?_⟩
        refine ⟨hr'.1.hasTopic hname, hA hr'.1 hAr, fun _ _ ↦ ?_⟩
        rw [← hann.subscriptions]
        exact hr'.2
    · next hstop =>
      exact .ok .refl ⟨hname, hAr, fun _ haccepts ↦ absurd (hann.succeeds haccepts) hstop⟩

/-- The publisher is told in another way than the other clients. -/
theorem publishTopicToPublisher_follows {name : Str} {value : NTDataValue} {publisherGuid : Guid}
    {pubuid : Int32} {properties : TopicProperties}
    (hK : name.isMeta = false → K.MetaTopicsOf name) :
    Follows K (getOrCreateTopic st name value properties).1
      (publishTopicToPublisher env st name value publisherGuid pubuid properties) Prod.fst fun r ↦
      name.isMeta = false → env.AcceptsTopic st.thisClient.subscriptions name →
        env.AcceptsTopic st.thisClient.subscriptions (topicSubName name) →
        r.1.HasTopic (topicSubName name) ∧ r.1.HasTopic (topicPubName name) :=
  (publishTopicWith_follows (A := fun _ ↦ True) haccepts hK announceTopicToPublisher_follows
    (fun _ _ ↦ Ends.of_forall (fun _ ↦ trivial) fun _ ↦ trivial) fun _ ↦ id).imp fun _ h ↦ h.2.2

/-! ### Local publications -/

omit [FloatCodec] haccepts in
/-- The local client is registered and holds a subscription that matches the name. -/
def Instance.HearsOf (st : Instance) (name : Str) : Prop :=
  (∃ guid, st.clients.lookup guid = some .self) ∧
    ∃ uid sub, st.thisClient.subscriptions.lookup uid = some (some sub) ∧ sub.isSubscribed name

omit [FloatCodec] haccepts in
/-- Visiting the local client announces the topic to it. -/
theorem announceTopicBody_hears {name : Str} {t : TopicAt name} {s : Instance × Bool} {guid : Guid}
    (hself : s.1.clients.lookup guid = some .self)
    (hsub : ∃ uid sub, s.1.thisClient.subscriptions.lookup uid = some (some sub) ∧
      sub.isSubscribed name) :
    Ends (announceTopicBody env t.1 s guid) (fun r ↦ name ∈ r.1.thisClient.topicData)
      fun _ ↦ True := by
  unfold announceTopicBody
  refine ((s.1.client_ends guid .clientNull).mono (fun _ ↦ id) fun _ _ ↦ trivial).bind fun d hd ↦ ?_
  have hd : d = s.1.thisClient := by
    rcases hd with ⟨-, hd⟩ | hd
    · exact hd
    · rw [hself] at hd
      cases hd
  refine ((isSubscribed_ends env d.subscriptions t.1.name false).mono (fun _ ↦ id)
    fun _ _ ↦ trivial).bind fun sub hfound ↦ ?_
  split
  · next hnone =>
    obtain ⟨uid, sub, huid, hmatch⟩ := hsub
    refine absurd ?_ (hfound.2 (Option.isNone_iff_eq_none.1 hnone) uid sub (hd ▸ huid))
    rw [Subscription.covers, t.2, hmatch]
    rfl
  · rw [if_pos (by simp [Instance.isSelf, hself])]
    have hmem : name ∈ (s.1.thisClient.assignId t.1.name).topicData :=
      ClientData.mem_assignId.2 (.inr t.2.symm)
    show name ∈ (announceTopicSelf env s.1 t.1).1.thisClient.topicData
    unfold announceTopicSelf
    cases env.topicAnnouncedCallback <;> exact hmem

omit haccepts in
/-- A local client that asks for a topic has an entry for it after the announcement. -/
theorem announceTopic_hears {name : Str} {t : TopicAt name}
    (ht : st.topics.lookup name = some (some t)) (hhears : st.HearsOf name) :
    Ends (announceTopic env st t.1) (fun r ↦ name ∈ r.1.thisClient.topicData) fun _ ↦ True := by
  obtain ⟨⟨self, hself⟩, hsub⟩ := hhears
  refine (Ends.foldlM_visited (I := fun done s ↦ Moves .all st s.1 ∧ Announced env name st s ∧
    (self ∈ done → name ∈ s.1.thisClient.topicData)) (E := fun _ ↦ True)
    (fun done guid rest hl s ⟨hm, hs, hdone⟩ ↦ ?_) ⟨.refl, ⟨rfl, rfl, fun _ ↦ rfl⟩, ?_⟩).imp ?_
  · have hguid : guid ∈ s.1.clients := by
      rw [hm.mem_clients, ← env.guids.mem_keys, hl]
      exact List.mem_append.2 (.inr List.mem_cons_self)
    have hbody := announceTopicBody_follows (K := .all) (by rwa [hs.topics]) hguid hs
    have hvisit : Ends (announceTopicBody env t.1 s guid)
        (fun r ↦ guid = self → name ∈ r.1.thisClient.topicData) fun _ ↦ True := by
      by_cases heq : guid = self
      · have hself' : s.1.clients.lookup guid = some .self := by
          rw [heq, hm.lookup_of_not_remote (fun d ↦ by rw [hself]; simp), hself]
        exact (announceTopicBody_hears hself' (by rwa [hs.subscriptions])).imp fun _ h _ ↦ h
      · exact Ends.of_forall (fun _ h ↦ absurd h heq) fun _ ↦ trivial
    refine (hbody.and hvisit).mono (fun r ⟨⟨hm', hs'⟩, hr⟩ ↦ ⟨hm.trans hm', hs', fun hmem ↦ ?_⟩)
      fun _ _ ↦ trivial
    rcases List.mem_append.1 hmem with hmem | hmem
    · exact hm'.mem_topicData_self (hdone hmem)
    · exact hr (List.mem_singleton.1 hmem).symm
  · exact fun h ↦ absurd h List.not_mem_nil
  · rintro r ⟨-, -, hmem⟩
    exact hmem (env.guids.mem_keys.2 (AList.mem_of_lookup hself))

/-- A local publication makes an entry for a topic it has no id for only if the local client did not
hear of the topic. -/
theorem publishTopicSelfSync_follows {name : Str} {value : NTDataValue}
    {properties : TopicProperties} (hK : name.isMeta = false → K.MetaTopicsOf name)
    (hhears : K.unnumbered ∨ st.HearsOf name) :
    Follows K (getOrCreateTopic st name value properties).1
      (publishTopicSelfSync env st name value properties) Prod.fst fun r ↦ r.1.HasTopic name ∧
        (name.isMeta = false → env.AcceptsTopic st.thisClient.subscriptions name →
          env.AcceptsTopic st.thisClient.subscriptions (topicSubName name) →
          r.1.HasTopic (topicSubName name) ∧ r.1.HasTopic (topicPubName name)) := by
  unfold publishTopicSelfSync
  refine (publishTopicWith_follows haccepts hK
    (A := fun s ↦ K.unnumbered ∨ name ∈ s.thisClient.topicData) announceTopic_follows
    (fun t ht ↦ ?_) (fun hm ↦ .imp_right hm.mem_topicData_self)).bind
      fun r hr ⟨hname, hA, hmeta⟩ ↦ ?_
  · rcases hhears with hK | hhears
    · exact Ends.of_forall (fun _ ↦ .inl hK) fun _ ↦ trivial
    · refine (announceTopic_hears ht ?_).imp fun _ ↦ .inr
      rcases getOrCreateTopic_spec st name value properties with ⟨-, hst⟩ | ⟨-, -, hst⟩
      all_goals
        rw [hst]
        exact hhears
  · split
    · obtain ⟨t, ht⟩ := hname
      rw [ht]
      refine .ok ?_ ⟨⟨t, ht⟩, hmeta⟩
      rcases hA with hK | hmem
      · exact .single (.self (.unnumbered hK (AList.mem_of_lookup ht)))
      · show Moves K r.1 { r.1 with thisClient := _ }
        rw [AList.subscript_of_mem hmem]
    · exact .ok .refl ⟨hname, hmeta⟩

end

end NetworkTables
