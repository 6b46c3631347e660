import PicoRadio.NetworkTables.LocalReadiness

/-!
# A subscriber after its publisher

A publisher may also be made before the subscriber of its topic. The subscriber is then told of the
topic, and of its value, when it subscribes, if the topic is a cached one
(`NTSubscriber.make_prepared`).

What it reads is the value of the publisher if no other topic that it is told a value of has the
same id. A topic that the local client is told of when it is published gets its next id. One that it
is not told of gets the id 0 of an entry that the subscript operator makes, which another topic may
have as well (`Instance.OwnId`).

## Ids that are shared

Which values a subscriber takes is decided by the id, not by the name. A topic without an id of its
own therefore makes it read the values of another topic, but only if the local client is told values
of the other one at all; topics that it is told nothing of share ids without harm.
-/

namespace NetworkTables

variable {w w' : World} {this : ℕ} {name : Str} {new : Str → Prop} {st s : Instance}

/-- Among the topics that the local client gets values of, none has the id that a local publication
gives to this one: the next id, if the local client asks for the topic, and else 0. -/
def Instance.OwnId (st : Instance) (name : Str) : Prop :=
  (st.Listens name ∧ ∀ name' data, st.thisClient.Receives name' →
      st.thisClient.topicData.lookup name' = some data →
      data.id < st.thisClient.nextTopicIdAssigned) ∨
    (∀ name', MadeWith name name' → ¬st.Listens name') ∧
      (∀ name' data, st.thisClient.Receives name' →
        st.thisClient.topicData.lookup name' = some data → data.id ≠ 0) ∧
      ∀ name' ∉ st.thisClient.topicData, ¬st.MayHear (fun _ ↦ False) name'

/-- The topic itself, and those the local client gets values of or does not know yet. -/
def Instance.Heeds (st : Instance) (name name' : Str) : Prop :=
  name' = name ∨ name' ∉ st.thisClient.topicData ∨ st.thisClient.Receives name'

/-- The topic has an id of its own, and no topic that a new subscription announces will get it. -/
def Instance.Owns (st : Instance) (name : Str) : Prop :=
  st.thisClient.UnambiguousAt (st.Heeds name) name ∨
    (∀ name' data data', st.Heeds name name' → st.thisClient.topicData.lookup name = some data →
      st.thisClient.topicData.lookup name' = some data' → data.id = data'.id → name = name') ∧
      ∀ name' ∉ st.thisClient.topicData, ¬st.MayHear (fun _ ↦ False) name'

/-- The local client gets values of no other topics than before, but for those that are new to
it. -/
theorem Instance.Retains.heeds (h : st.Retains new s) {name' : Str} (hs : s.Heeds name name') :
    st.Heeds name name' := by
  rcases hs with rfl | hnot | ⟨data, hdata, hreceives⟩
  · exact .inl rfl
  · refine .inr (.inl fun hmem ↦ hnot ?_)
    obtain ⟨data, hdata⟩ := AList.exists_lookup_of_mem hmem
    exact AList.mem_of_lookup (h.ids name' data hdata)
  · by_cases hmem : name' ∈ st.thisClient.topicData
    · obtain ⟨data₀, hdata₀⟩ := AList.exists_lookup_of_mem hmem
      obtain rfl := Option.some.inj (hdata.symm.trans (h.ids name' data₀ hdata₀))
      rw [congrArg ClientInfo.subscriptions h.info] at hreceives
      exact .inr (.inr ⟨data, hdata₀, hreceives⟩)
    · exact .inr (.inl hmem)

/-- A call that numbers no topic keeps the id of a topic its own. -/
theorem Instance.Owns.follows (h : st.Owns name) (hkeeps : st.Retains (fun _ ↦ False) s)
    (hdata : s.thisClient.topicData = st.thisClient.topicData)
    (hnumbered : ∀ among, st.thisClient.UnambiguousAt among name →
      s.thisClient.UnambiguousAt among name) : s.Owns name := by
  refine h.imp (fun hat ↦ (hnumbered _ hat).mono hkeeps.heeds (.inl rfl)) fun ⟨hown, hlater⟩ ↦
    ⟨fun name' data data' hheeds ↦ ?_, fun name' hname' hmay ↦ ?_⟩
  · rw [hdata]
    exact hown name' data data' (hkeeps.heeds hheeds)
  · rw [hdata] at hname'
    exact hlater name' hname' (hkeeps.mayHear hmay)

namespace World

/-- The topic has been published, and its subscriber can be made. -/
structure Prepared (w : World) (this : ℕ) (name : Str) : Prop where
  cached : w.inst.Cached name
  entry : ∃ data, w.inst.thisClient.topicData.lookup name = some data ∧
    data.initialPublish = false
  owns : w.inst.Owns name
  liveAt : ∀ name', name' = name ∨ w.inst.MayHear (fun _ ↦ False) name' → w.LiveAt name'
  named : name ≠ serverSubName
  fresh : this ∉ w.subscribers
  subscriberId : w.NEXT_SUBSCRIBER_ID ≠ Int32.maxValue

/-- A value that is set leaves the topic ready for a subscriber. -/
theorem Prepared.follows {t : TopicAt name} (h : w.Prepared this name) (hfollows : w.Follows w')
    (hinst : w'.inst = { s with mutexFree := true })
    (hkeeps : Instance.Retains (fun _ ↦ False) { w.inst with mutexFree := false } s)
    (ht : w.inst.topics.lookup name = some (some t))
    (hdata : s.thisClient.topicData = w.inst.thisClient.topicData)
    (hnumbered : ∀ among, w.inst.thisClient.UnambiguousAt among name →
      s.thisClient.UnambiguousAt among name) : w'.Prepared this name := by
  obtain ⟨t', ht', -, hproperties⟩ := hkeeps.types name t ht
  have hcached : s.Cached name := by
    refine ⟨AList.mem_of_lookup ht', fun t'' ht'' ↦ ?_⟩
    obtain rfl := Option.some.inj (Option.some.inj (ht'.symm.trans ht''))
    rw [hproperties]
    exact h.cached.2 t ht
  have hentry : ∃ data, s.thisClient.topicData.lookup name = some data ∧
      data.initialPublish = false := by
    rw [hdata]
    exact h.entry
  have howns : Instance.Owns { w.inst with mutexFree := false } name := h.owns
  refine ⟨by rwa [hinst], by rwa [hinst], ?_, fun name' hmay ↦ hfollows.liveAt (h.liveAt name' ?_),
    h.named, fun hthis ↦ h.fresh (hfollows.mem_subscribers.1 hthis),
    hfollows.nextSubscriber ▸ h.subscriberId⟩
  · rw [hinst]
    exact Instance.Owns.follows (s := s) howns hkeeps hdata hnumbered
  · rw [hinst] at hmay
    exact hmay.imp_right fun hmay ↦ hkeeps.mayHear (s := s) hmay

end World

section

variable [FloatCodec] {env : Env}

/-! ### The publisher -/

/-- A publication gives the topic an id of its own. -/
theorem localPublish_owns (hst : st.Sound) (hself : ∃ guid, st.clients.lookup guid = some .self)
    {pubuid : Int32}
    (hpubs : ∀ uid ≠ pubuid, st.thisClient.publishers.lookup uid ≠ some none)
    (hown : st.OwnId name) (hname : name ∉ st.topics) {type : NTDataType}
    (htype : type ≠ .unassigned) (properties : TopicProperties) :
    Safely (MadeWith name)
      (st.withPublishers (st.thisClient.publishers.insert pubuid (some ⟨pubuid, name⟩)))
      (localPublish env.install name pubuid type properties st) Prod.fst
      fun r ↦ Publishes.Returned env.install name type properties
        (st.withPublishers (st.thisClient.publishers.insert pubuid (some ⟨pubuid, name⟩))) r ∧
          r.1.Owns name := by
  have hsafely := @localPublish_safely (MadeWith name) st name _ env.install pubuid type properties
    hst htype hpubs fun _ ↦ id
  have hnone {data : ClientTopicData} (hdata : st.thisClient.topicData.lookup name = some data) :
      False := hname (hst.announced name (AList.mem_of_lookup hdata))
  rcases hown with ⟨hlistens, hlt⟩ | ⟨hsilent, hzero, hlater⟩
  -- the local client is told of it, so it gets the next id
  · have hat : st.thisClient.UnambiguousAt (st.Heeds name) name := by
      refine ⟨.inl rfl, fun name' data hheeds hdata ↦ ?_, fun _ _ _ _ hdata ↦ (hnone hdata).elim⟩
      rcases hheeds with rfl | hnot | hreceives
      · exact (hnone hdata).elim
      · exact absurd (AList.mem_of_lookup hdata) hnot
      · exact hlt name' data hreceives hdata
    refine (hsafely.numbered (localPublish_follows (.inl trivial) trivial trivial trivial
      (fun _ ↦ ⟨⟨trivial, trivial⟩, trivial, trivial⟩) (.inr (.inr ⟨hself, hlistens⟩))
      (.inl trivial))).imp fun r hkeeps hr ↦ ⟨hr.1.2 hname, .inl ?_⟩
    exact (hr.2 _ name hat).mono hkeeps.heeds (.inl rfl)
  -- it is told of no topic that is made, so the topic gets an entry with the id 0
  · refine hsafely.imp fun r hkeeps hr ↦ ⟨hr.2 hname, .inr
      ⟨fun name' data data' hheeds hdata hdata' hid ↦ ?_, fun name' hname' hmay ↦ ?_⟩⟩
    · rw [(hr.2 hname).silent env.install_agrees hsilent, AList.lookup_subscript] at hdata hdata'
      rw [if_pos rfl] at hdata
      split at hdata'
      · next heq => exact heq.symm
      -- the other one was there before
      · have hdata' : st.thisClient.topicData.lookup name' = some data' := hdata'
        cases hold : st.thisClient.topicData.lookup name with
        | some data₀ => exact (hnone hold).elim
        | none =>
          change some ((st.thisClient.topicData.lookup name).getD {}) = some data at hdata
          rw [hold] at hdata
          obtain rfl := Option.some.inj hdata
          rcases hkeeps.heeds hheeds with heq | hnot | hreceives
          · exact heq.symm
          · exact absurd (AList.mem_of_lookup hdata') hnot
          · exact absurd hid.symm (hzero name' data' hreceives hdata')
    · obtain ⟨hasks, hmade⟩ := hkeeps.mayHear ⟨hmay.1, .inr (hmay.2.resolve_left id)⟩
      refine hlater name' (fun hmem ↦ hname' ?_) ⟨hasks, .inr (hmade.resolve_left fun hmade ↦
        hsilent name' hmade hasks)⟩
      obtain ⟨data, hdata⟩ := AList.exists_lookup_of_mem hmem
      exact AList.mem_of_lookup (hkeeps.ids name' data hdata)

/-- A topic is published before it has a subscriber. -/
theorem World.HealthyFor.publish_first (hw : w.HealthyFor this name) (hgood : w.Good)
    (hown : w.inst.OwnId name) (hname : name ∉ w.inst.topics) {type : NTDataType}
    (htype : type ≠ .unassigned) {properties : TopicProperties}
    (hcached : properties.cached = true) {next : Int32} :
    Ends (World.call { w with NEXT_PUBLISHER_ID := next }
        (publish (w.env env) name w.NEXT_PUBLISHER_ID type properties w.inst))
      (fun r ↦ r.1.Publishing name type ⟨true, .ofAnnounced r.2, w.NEXT_PUBLISHER_ID⟩ ∧
        r.1.Prepared this name) fun _ ↦ False := by
  rw [publish_of_free hw.free, hgood.env_eq]
  let w₁ : World := { w with NEXT_PUBLISHER_ID := next }
  have hpublish := @localPublish_owns name { w.inst with mutexFree := false } _ env
    (hgood.sound.release false) hw.self w.NEXT_PUBLISHER_ID hw.publishers hown hname type htype
    properties
  refine (World.call_released (w := w₁) (R := fun _ _ ↦ True) hpublish
    fun r hr hkeeps hq ↦ ⟨fun t ht ↦ ?_, .of_forall (fun _ ↦ trivial) fun _ ↦ trivial⟩).imp
    fun r hr ↦ ?_
  · exact hw.live _ (.inr (World.mayHear_of_calls (w := w₁) hgood.installed hkeeps rfl ht).2)
  · obtain ⟨s, hinst, hs, hkeeps, ⟨hreturned, howns⟩, hfollows, -⟩ := hr
    refine ⟨hgood.published hinst hs hkeeps hreturned hname hfollows, ?_⟩
    obtain ⟨t, ht, hnew⟩ := hreturned.topic
    obtain ⟨hname', ⟨data, hdata, -⟩, -⟩ := hreturned.known env.install_agrees
    rw [hname'] at hdata
    have hentry : data.initialPublish = false := by
      refine (hkeeps.fresh name data hdata).resolve_left fun hold ↦ ?_
      exact hname (hgood.sound.announced name (AList.mem_of_lookup hold))
    have hcached : s.Cached name := by
      refine ⟨AList.mem_of_lookup ht, fun t' ht' ↦ ?_⟩
      obtain rfl := Option.some.inj (Option.some.inj (ht.symm.trans ht'))
      rw [(hnew hname).2, hcached]
    refine ⟨by rwa [hinst], ⟨data, by rwa [hinst], hentry⟩, by rwa [hinst],
      fun name' hmay ↦ hfollows.liveAt (hw.live name' ?_), ?_,
      fun hthis ↦ hw.fresh (hfollows.mem_subscribers.1 hthis),
      hfollows.nextSubscriber ▸ hw.subscriberId⟩
    · rw [hinst] at hmay
      exact hmay.imp_right fun hmay ↦
        hkeeps.mayHear (s := s) ⟨hmay.1, .inr (hmay.2.resolve_left id)⟩
    · rintro rfl
      obtain ⟨t', ht'⟩ := hgood.sound.records.1
      exact hname (AList.mem_of_lookup ht')

/-- A publisher is made before its subscriber. -/
theorem NTPublisher.make_first (hw : w.HealthyFor this name) (hgood : w.Good)
    (hown : w.inst.OwnId name) (hname : name ∉ w.inst.topics) {v : NTDataValue} (hvalid : v.isValid)
    (hapi : v.type.apiType = v.type) (time : Option UInt64) {properties : TopicProperties}
    (hcached : properties.cached = true) :
    Ends (NTPublisher.make env name v time properties w)
      (fun r ↦ r.1.Publishing name v.type r.2 ∧ r.1.Prepared this name ∧
        ∃ t : TopicAt name, r.1.inst.topics.lookup name = some (some t) ∧
          (NTDataValue.assign { type := t.1.value.getAPIType } t.1.value).type = v.type ∧
          (NTDataValue.assign { type := t.1.value.getAPIType } t.1.value).content = v.content)
      fun _ ↦ False := by
  rw [NTPublisher.make, World.nextId_of_ne hw.publisherId, ok_bind]
  have htype : v.type ≠ .unassigned := by simpa [NTDataValue.isValid] using hvalid
  refine (hw.publish_first hgood hown hname htype hcached).bind fun r hr ↦ ?_
  obtain ⟨hpublishing, hprepared⟩ := hr
  refine (NTPublisher.setIf_publishing hpublishing (R := fun _ _ _ ↦ True)
    (decide_eq_true (hpublishing.type_eq.trans hapi.symm)) hvalid time
    fun _ _ _ _ _ _ ↦ .of_forall (fun _ ↦ trivial) fun _ ↦ trivial).bind fun r' hr' ↦ ?_
  obtain ⟨-, hpublishing', hfollows, t, s, ht₁, ht, hinst, hkeeps, hlookup, hdata, hnumbered, -⟩ :=
    hr'
  obtain ⟨htype', hcontent⟩ := converted_content ht₁ hvalid hapi
  refine ⟨hpublishing',
    hprepared.follows hfollows hinst hkeeps ht hdata fun among ↦ hnumbered among name,
    t.setValue (t.1.value.assign v), ?_, htype', hcontent⟩
  rw [hinst]
  exact hlookup

/-! ### The subscriber -/

/-- A subscriber is made after its publisher, and told of the topic and its value. -/
theorem NTSubscriber.make_prepared {v : NTDataValue} {pub : NTPublisher}
    (hw : w.Publishing name v.type pub) (hprepared : w.Prepared this name) {t : TopicAt name}
    (ht : w.inst.topics.lookup name = some (some t)) :
    Ends (NTSubscriber.make env this name w)
      (fun w' ↦ w'.Ready this name v.type pub ∧
        w'.Sees this fun s ↦ w'.get s = .assign { type := t.1.value.getAPIType } t.1.value)
      fun _ ↦ False := by
  rw [make_eq hprepared.subscriberId]
  let w₁ : World := enter this name w
  let got : NTDataValue := .assign { type := t.1.value.getAPIType } t.1.value
  let sub : Subscription := ⟨w.NEXT_SUBSCRIBER_ID, [name], .DEFAULT⟩
  let base : Instance := Instance.withSubscriptions { w.inst with mutexFree := false }
    (w.inst.thisClient.subscriptions.insert w.NEXT_SUBSCRIBER_ID (some sub))
  obtain ⟨data, hdata, hinitial⟩ := hprepared.entry
  let heard (name' : Str) : Prop := name' = name ∨ w.inst.MayHear (fun _ ↦ False) name'
  have hwaits : w₁.Waits this name heard := waits_enter hprepared.liveAt hprepared.fresh
  have hinstalled : w₁.installed = true := installed_register (fun _ ↦ hw.installed) this name
  have hsubscription :
      base.thisClient.subscriptions.lookup w.NEXT_SUBSCRIBER_ID = some (some sub) :=
    AList.lookup_insert _
  have hsound : base.Sound := by
    refine (hw.sound.release false).withSubscriptions fun uid ↦ ?_
    rw [AList.lookup_insert_ite]
    split
    · exact fun hnull ↦ by cases hnull
    · exact hw.sound.subscriptions.2 uid
  -- the new subscription makes the local client ask for the topic, and for no other one
  have hbase {name' : Str} (h : base.MayHear (fun _ ↦ False) name') : heard name' := by
    obtain ⟨⟨uid, sub', hsub', hmatch⟩, hcached⟩ := h
    change (w.inst.thisClient.subscriptions.insert _ _).lookup uid = _ at hsub'
    rw [AList.lookup_insert_ite] at hsub'
    split at hsub'
    · obtain rfl := Option.some.inj (Option.some.inj hsub')
      exact .inl (Instance.isSubscribed_default.1 hmatch)
    · exact .inr ⟨⟨uid, sub', hsub', hmatch⟩, hcached⟩
  have hbaseHeeds {name' : Str} (h : base.Heeds name name') : w.inst.Heeds name name' := by
    rcases h with heq | hnot | ⟨data', hdata', hinitial' | ⟨uid, sub', hsub', hcovers⟩⟩
    · exact .inl heq
    · exact .inr (.inl hnot)
    · exact .inr (.inr ⟨data', hdata', .inl hinitial'⟩)
    · change (w.inst.thisClient.subscriptions.insert _ _).lookup uid = _ at hsub'
      rw [AList.lookup_insert_ite] at hsub'
      split at hsub'
      · obtain rfl := Option.some.inj (Option.some.inj hsub')
        exact .inl (Instance.isSubscribed_default.1 (Bool.and_eq_true_iff.1 hcovers).2)
      · exact .inr (.inr ⟨data', hdata', .inr ⟨uid, sub', hsub', hcovers⟩⟩)
  have hlistens : base.Listens name :=
    ⟨_, sub, hsubscription, Instance.isSubscribed_default.2 rfl⟩
  have hcatches := (@localSubscribe_safely (fun _ ↦ False) { w.inst with mutexFree := false } _
    env.install [name] w.NEXT_SUBSCRIBER_ID .DEFAULT hsound).numbered
    (localSubscribe_follows (K := .numbered) (.inl trivial) ⟨trivial, trivial⟩ trivial
      (.inl trivial))
  have henv : w₁.env env = env.install := if_pos hinstalled
  rw [henv]
  refine (World.run_released (w := w₁) (R := fun s w' ↦ w'.Told this name data.id ∧
    ∃ time, w'.data.updates.lookup data.id = some ⟨got, time⟩) hw.free hcatches
    fun s hs hkeeps hq ↦ ?_).imp fun w' hw' ↦ ?_
  · obtain ⟨hcatches, hnumbered⟩ := hq
    have hheard {a : AnnouncedTopic}
        (ha : .announcedCallback a ∈ w₁.calls { s with mutexFree := true }) :
        s.Knows a ∧ heard a.name :=
      (World.mayHear_of_calls (w := w₁) hinstalled hkeeps rfl ha).imp_right hbase
    have hentry : s.thisClient.topicData.lookup name = some data := hkeeps.ids name data hdata
    -- the id is that of the topic alone
    have hown {name' : Str} {data' : ClientTopicData}
        (hheeds : s.Heeds name name') (hdata' : s.thisClient.topicData.lookup name' = some data')
        (hid : data'.id = data.id) : name' = name := by
      have hheeds : w.inst.Heeds name name' := hbaseHeeds (hkeeps.heeds hheeds)
      rcases hprepared.owns with hat | ⟨hown, hlater⟩
      · exact ((hnumbered _ name hat).own name' data data' hheeds hentry hdata' hid.symm).symm
      · by_cases hmem : name' ∈ w.inst.thisClient.topicData
        · obtain ⟨data₀, hdata₀⟩ := AList.exists_lookup_of_mem hmem
          obtain rfl := Option.some.inj (hdata'.symm.trans (hkeeps.ids name' data₀ hdata₀))
          exact (hown name' data data' hheeds hdata hdata₀ hid.symm).symm
        · obtain ⟨hasks, hcached⟩ :=
            (hcatches.topicData name' (AList.mem_of_lookup hdata')).resolve_left hmem
          exact (hbase ⟨hasks, .inr hcached⟩).resolve_right (hlater name' hmem)
    have htold : Ends (w₁.after { s with mutexFree := true })
        (fun w' ↦ w'.Told this name data.id) fun _ ↦ True := by
      refine (hwaits.told fun a ha ↦ ⟨(hheard ha).2, fun hname ↦ ?_⟩).imp
        fun w' hw' ↦ hw'.resolve_right fun hnone ↦ ?_
      · obtain ⟨data', hdata', hid⟩ := (hheard ha).1
        rw [hname, hentry] at hdata'
        obtain rfl := Option.some.inj hdata'
        exact hid.symm
      · obtain ⟨events, a, hevents, ha, hname⟩ :=
          hcatches.heard rfl name hprepared.named hlistens hprepared.cached
        refine hnone a ?_ hname
        rwa [World.calls_of_history (w := w₁) hinstalled hevents]
    obtain ⟨events, hevents, hunder, hgiven⟩ := hcatches.calls
    have hcalls : w₁.calls { s with mutexFree := true } = events :=
      World.calls_of_history hinstalled hevents
    obtain ⟨time, hmem⟩ := hgiven rfl name hprepared.named data hentry hinitial
      ⟨_, sub, hsubscription, covers_default name _ true⟩ t ht
    refine ⟨fun a ha ↦ liveAt_enter (hprepared.liveAt _ (hheard ha).2),
      (htold.and (w₁.updates_after (fun time' value' hmem' ↦ ?_) ⟨time, got, ?_⟩)).mono
        (fun _ ↦ id) fun _ _ ↦ trivial⟩
    · rw [hcalls] at hmem'
      obtain ⟨name', data', hdata', hid, hreceives, hvalue⟩ := hunder _ _ _ hmem'
      obtain rfl := hown (.inr (.inr hreceives)) hdata' hid
      obtain ⟨t', ht', rfl⟩ := hvalue hprepared.named
      obtain rfl := Option.some.inj (Option.some.inj (ht.symm.trans ht'))
      rfl
    · rwa [hcalls]
  · obtain ⟨s, hinst, hs, hkeeps, ⟨hcatches, -⟩, hfollows, htold, time, hlast⟩ := hw'
    obtain ⟨s', hsub', hname, hid⟩ := htold
    obtain ⟨t', ht', htype⟩ := hw.topic
    obtain rfl := Option.some.inj (Option.some.inj (ht.symm.trans ht'))
    obtain ⟨guid, hguid⟩ := hw.self
    have hentry : w'.inst.thisClient.topicData.lookup name = some data := by
      rw [hinst]
      exact hkeeps.ids name data hdata
    have htopicId : w'.inst.thisClient.topicId name = data.id := by
      rw [ClientData.topicId, hentry]
      rfl
    refine ⟨⟨⟨⟨by rw [hinst], ⟨guid, ?_⟩, ?_, hfollows.installed.trans hinstalled⟩, hw.nt,
      hw.type_eq, ?_, t, ?_, htype⟩, ⟨s', hsub', hname, by rw [hid, htopicId]⟩, data, hentry,
      .inr ⟨w.NEXT_SUBSCRIBER_ID, sub, ?_, covers_default name _ true⟩⟩, s', hsub', ?_⟩
    · rw [hinst]
      exact (hkeeps.self guid).2 hguid
    · rw [hinst]
      exact hs.release true
    · rw [hinst]
      show s.thisClient.publishers.lookup _ = _
      rw [congrArg ClientInfo.publishers hkeeps.info]
      exact hw.publisher
    · rw [hinst]
      exact (hcatches.topics name hprepared.named).trans ht
    · rw [hinst]
      show s.thisClient.subscriptions.lookup _ = _
      rw [congrArg ClientInfo.subscriptions hkeeps.info]
      exact hsubscription
    · show w'.get s' = _
      rw [World.get, hid, hlast]

end

end NetworkTables
