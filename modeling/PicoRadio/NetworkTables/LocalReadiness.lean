import PicoRadio.NetworkTables.Assignment
import PicoRadio.NetworkTables.LocalCallbacks
import PicoRadio.NetworkTables.TopicIds

/-!
# A publisher and its subscriber

From a world in which nothing is in the way (`World.HealthyFor`) a subscriber and a publisher of a
new topic come to be `World.Ready`: the subscriber has the topic with the id under which the local
client knows it, and the publisher may set it. Every value that is set then keeps them so and is the
one that is read (`NTPublisher.setIf_ready`).

What a world has to meet speaks of the topics the local client may be told of alone
(`Instance.Concerns`): a subscriber that is gone does no harm in a queue that nobody empties.

## The order of the steps

A subscriber that is made first waits for a topic that does not exist yet (`Subscribed`). The
publication announces the topic, the callback hands the announcement on to the subscriber, and this
is the moment from which the two belong together. From then on `World.Ready` is an invariant: a
value that is set is told to the subscriber in the same call, before the setter returns.
-/

namespace NetworkTables

variable {w w' : World} {this : ℕ} {name : Str}

/-- The subscriber at an address exists and has a property. -/
def World.Sees (w : World) (this : ℕ) (P : NTSubscriber → Prop) : Prop :=
  ∃ s, w.subscribers.lookup this = some s ∧ P s

/-- The local client may be told of this topic when another one is published and subscribed to. -/
def Instance.Concerns (st : Instance) (name name' : Str) : Prop :=
  name' = name ∨ st.MayHear (MadeWith name) name'

namespace World

/-- Nothing is in the way of a subscriber at this address, or of a publisher. -/
structure Hosts (w : World) (this : ℕ) : Prop where
  free : w.inst.mutexFree = true
  self : ∃ guid, w.inst.clients.lookup guid = some .self
  sound : (w.inst.withSubscriptions
    (w.inst.thisClient.subscriptions.erase w.NEXT_SUBSCRIBER_ID)).Sound
  publishers : ∀ uid ≠ w.NEXT_PUBLISHER_ID, w.inst.thisClient.publishers.lookup uid ≠ some none
  installed : w.callbacks.isSome → w.installed = true
  fresh : this ∉ w.subscribers
  subscriberId : w.NEXT_SUBSCRIBER_ID ≠ Int32.maxValue
  publisherId : w.NEXT_PUBLISHER_ID ≠ Int32.maxValue

/-- No subscriber is gone that waits for a topic the local client may be told of. -/
structure HealthyFor (w : World) (this : ℕ) (name : Str) : Prop extends Hosts w this where
  live : ∀ name', w.inst.Concerns name name' → w.LiveAt name'

/-- No subscriber is gone that waits for a topic. -/
structure Healthy (w : World) (this : ℕ) : Prop extends Hosts w this where
  live : w.Live

theorem Healthy.healthyFor (h : w.Healthy this) (name : Str) : w.HealthyFor this name :=
  ⟨h.toHosts, fun name' _ ↦ h.live name'⟩

/-- The callbacks are set, and the instance can be called. -/
structure Good (w : World) : Prop where
  free : w.inst.mutexFree = true
  self : ∃ guid, w.inst.clients.lookup guid = some .self
  sound : w.inst.Sound
  installed : w.installed = true

theorem Good.env_eq (h : w.Good) (env : Env) : w.env env = env.install :=
  if_pos h.installed

/-- A call keeps a world good. -/
theorem Good.follows {new : Str → Prop} {st s : Instance} (h : w.Good) (hfollows : w.Follows w')
    (hinst : w'.inst = { s with mutexFree := true }) (hs : s.Sound) (hkeeps : st.Retains new s)
    (hself : st.clients = w.inst.clients) : w'.Good where
  free := by rw [hinst]
  self := by
    obtain ⟨guid, hguid⟩ := h.self
    rw [← hself, ← hkeeps.self] at hguid
    exact ⟨guid, by rw [hinst]; exact hguid⟩
  sound := by
    rw [hinst]
    exact hs.release true
  installed := hfollows.installed.trans h.installed

/-- A subscriber has been made. -/
structure Subscribes (w w' : World) (name : Str) : Prop extends Good w' where
  subscribes : ∃ uid sub, w'.inst.thisClient.subscriptions.lookup uid = some (some sub) ∧
    sub.covers name true
  nextPublisher : w'.NEXT_PUBLISHER_ID = w.NEXT_PUBLISHER_ID
  publishers : w'.inst.thisClient.publishers = w.inst.thisClient.publishers
  live : w.Live → w'.Live

/-- A subscriber has been made for a topic that does not exist. -/
structure Subscribed (w w' : World) (this : ℕ) (name : Str) :
    Prop extends Subscribes w w' name where
  waits : w'.Waits this name (w'.inst.Concerns name)
  liveAt : ∀ name', w'.inst.Concerns name name' → w'.LiveAt name'
  absent : name ∉ w'.inst.topics

theorem nextId_of_ne {id : Int32} (h : id ≠ Int32.maxValue) : nextId id = .ok (id + 1) :=
  if_neg h

end World

/-! ### What the local client may be told of -/

namespace Instance

variable {new : Str → Prop} {st s : Instance}

/-- The local client may not be told of more than before. -/
theorem Retains.concerns (h : st.Retains (fun _ ↦ False) s) {name' : Str}
    (hs : s.Concerns name name') : st.Concerns name name' :=
  hs.imp_right fun ⟨hlistens, hmade⟩ ↦
    ⟨h.listens.1 hlistens, hmade.imp_right fun hcached ↦ (h.cached hcached).resolve_left id⟩

/-- The subscription of a subscriber matches its topic, and no other one. -/
theorem isSubscribed_default {subuid : Int32} {name' : Str} :
    Subscription.isSubscribed ⟨subuid, [name], .DEFAULT⟩ name' = true ↔ name' = name := by
  rw [Subscription.isSubscribed]
  simp [SubscriptionOptions.DEFAULT]

theorem MayHear.concerns {name' : Str} (h : st.MayHear (fun _ ↦ False) name') :
    st.Concerns name name' :=
  .inr ⟨h.1, .inr (h.2.resolve_left id)⟩

/-- With its subscription a subscriber makes the local client ask for its topic alone. -/
theorem concerns_of_subscribe (st : Instance) {subuid : Int32} {name' : Str}
    (h : (st.withSubscriptions (st.thisClient.subscriptions.insert subuid
      (some ⟨subuid, [name], .DEFAULT⟩))).Concerns name name') : st.Concerns name name' := by
  rcases h with h | ⟨⟨uid, sub, hsub, hmatch⟩, hmade⟩
  · exact .inl h
  · change (st.thisClient.subscriptions.insert subuid _).lookup uid = _ at hsub
    rw [AList.lookup_insert_ite] at hsub
    split at hsub
    · obtain rfl := Option.some.inj (Option.some.inj hsub)
      exact .inl (isSubscribed_default.1 hmatch)
    · exact .inr ⟨⟨uid, sub, hsub, hmatch⟩, hmade⟩

end Instance

/-- The subscription of a subscriber covers its topic. -/
theorem covers_default (name : Str) (subuid : Int32) (requireNotTopicsOnly : Bool) :
    Subscription.covers ⟨subuid, [name], .DEFAULT⟩ name requireNotTopicsOnly := by
  rw [Subscription.covers, Instance.isSubscribed_default.2 rfl]
  simp [SubscriptionOptions.DEFAULT]

/-! ### The subscriber -/

namespace NTSubscriber

/-- The queues with one more subscriber. -/
theorem queue_register (w : World) (this : ℕ) (topic name : Str) :
    (register this topic w).queue name =
      if name = topic then w.queue topic ++ [this] else w.queue name := by
  rw [register, World.queue, World.data, Option.getD_some, AList.lookup_insert_ite]
  split <;> rfl

theorem installed_register (h : w.callbacks.isSome → w.installed = true) (this : ℕ) (topic : Str) :
    (register this topic w).installed = true := by
  show (w.callbacks.isNone || w.installed) = true
  cases hcallbacks : w.callbacks with
  | none => rfl
  | some data => exact h (by rw [hcallbacks]; rfl)

/-- The world in which a subscriber subscribes. -/
def enter (this : ℕ) (topic : Str) (w : World) : World :=
  { register this topic w with
    NEXT_SUBSCRIBER_ID := w.NEXT_SUBSCRIBER_ID + 1
    subscribers := w.subscribers.insert this ⟨{ name := topic }, w.NEXT_SUBSCRIBER_ID⟩ }

theorem liveAt_enter {name' : Str} (h : w.LiveAt name') :
    (enter this name w).LiveAt name' := by
  intro that hthat
  refine (AList.mem_insert _).2 ?_
  rw [show (enter this name w).queue name' = _ from queue_register w this name name'] at hthat
  split at hthat
  · next heq =>
    rcases List.mem_append.1 hthat with hthat | hthat
    · exact .inr (h that (by rwa [heq]))
    · exact .inl (List.mem_singleton.1 hthat)
  · exact .inr (h that hthat)

/-- It waits for its topic, and for no other one that may be announced. -/
theorem waits_enter {heard : Str → Prop} (hlive : ∀ name', heard name' → w.LiveAt name')
    (hfresh : this ∉ w.subscribers) : (enter this name w).Waits this name heard := by
  have hqueue (name' : Str) : (enter this name w).queue name' = _ :=
    queue_register w this name name'
  refine ⟨⟨_, AList.lookup_insert _, rfl⟩, ?_, fun name' hname' hne hmem ↦ ?_⟩
  · rw [hqueue, if_pos rfl]
    exact List.mem_append.2 (.inr List.mem_cons_self)
  · rw [hqueue, if_neg hne] at hmem
    exact hfresh (hlive name' hname' this hmem)

end NTSubscriber

section

variable [FloatCodec] {env : Env}

theorem NTSubscriber.make_eq (h : w.NEXT_SUBSCRIBER_ID ≠ Int32.maxValue) :
    NTSubscriber.make env this name w =
      (enter this name w).run ((enter this name w).inst.withMutex
        (localSubscribe ((enter this name w).env env) [name] w.NEXT_SUBSCRIBER_ID .DEFAULT)) := by
  rw [NTSubscriber.make, World.nextId_of_ne h]
  rfl

theorem NTSubscriber.make_healthy (hw : w.HealthyFor this name) :
    Ends (NTSubscriber.make env this name w)
      (fun w' ↦ w.Subscribes w' name ∧ (name ∉ w.inst.topics → w.Subscribed w' this name))
      fun _ ↦ False := by
  rw [make_eq hw.subscriberId]
  let w₁ : World := enter this name w
  have hwaits : w₁.Waits this name (w.inst.Concerns name) := waits_enter hw.live hw.fresh
  have hinstalled : w₁.installed = true := installed_register hw.installed this name
  -- with its subscription the state is a sound one
  have hsound : (w₁.inst.withSubscriptions (w.inst.thisClient.subscriptions.insert
      w.NEXT_SUBSCRIBER_ID (some ⟨w.NEXT_SUBSCRIBER_ID, [name], .DEFAULT⟩))).Sound := by
    refine hw.sound.withSubscriptions fun uid ↦ ?_
    have h := hw.sound.subscriptions.2 uid
    change (w.inst.thisClient.subscriptions.erase w.NEXT_SUBSCRIBER_ID).lookup uid ≠ _ at h
    rw [AList.lookup_erase_ite] at h
    rw [AList.lookup_insert_ite]
    split
    · exact fun hnull ↦ by cases hnull
    · next hne => rwa [if_neg hne] at h
  refine (@World.run_released w₁ (fun _ ↦ False) _ _ _
    (fun s w' ↦ name ∉ s.topics → w'.Waits this name (w.inst.Concerns name)) hw.free
    (localSubscribe_safely (hsound.release false)) fun s hs hkeeps _ ↦ ?_).imp fun w' hw' ↦ ?_
  · have hheard {t : AnnouncedTopic}
        (ht : .announcedCallback t ∈ w₁.calls { s with mutexFree := true }) :
        s.Knows t ∧ w.inst.Concerns name t.name :=
      (World.mayHear_of_calls hinstalled hkeeps rfl ht).imp_right fun h ↦
        Instance.concerns_of_subscribe w.inst h.concerns
    refine ⟨fun t ht ↦ liveAt_enter (hw.live _ (hheard ht).2), ?_⟩
    by_cases hnew : name ∈ s.topics
    · exact .of_forall (fun _ h ↦ absurd hnew h) fun _ ↦ trivial
    -- a call announces a topic that exists
    · refine (hwaits.after fun t ht ↦ ⟨?_, (hheard ht).2⟩).imp fun w' hw' _ ↦ hw'
      rintro rfl
      obtain ⟨⟨data, hdata, -⟩, -⟩ := hheard ht
      exact hnew (hs.announced _ (AList.mem_of_lookup hdata))
  · obtain ⟨s, hinst, hs, hkeeps, -, hfollows, hstill⟩ := hw'
    have hsubs := congrArg ClientInfo.subscriptions hkeeps.info
    have hpubs := congrArg ClientInfo.publishers hkeeps.info
    obtain ⟨guid, hguid⟩ := hw.self
    have hsubscribes : w.Subscribes w' name := by
      refine ⟨⟨by rw [hinst], ⟨guid, ?_⟩, ?_, hfollows.installed.trans hinstalled⟩,
        ⟨w.NEXT_SUBSCRIBER_ID, _, ?_, covers_default name w.NEXT_SUBSCRIBER_ID true⟩,
        hfollows.nextPublisher, ?_,
        fun hlive ↦ hfollows.live fun name' ↦ liveAt_enter (hlive name')⟩
      · rw [hinst]
        exact (hkeeps.self guid).2 hguid
      · rw [hinst]
        exact hs.release true
      · rw [hinst]
        show s.thisClient.subscriptions.lookup _ = _
        rw [hsubs]
        exact AList.lookup_insert _
      · rw [hinst]
        exact hpubs
    refine ⟨hsubscribes, fun hname ↦ ?_⟩
    have habsent : name ∉ s.topics := fun h ↦ (hkeeps.names name h).elim hname id
    -- nothing more concerns it than before
    have hconcerns {name' : Str} (h : w'.inst.Concerns name name') :
        w.inst.Concerns name name' := by
      rw [hinst] at h
      exact Instance.concerns_of_subscribe w.inst (hkeeps.concerns (s := s) h)
    exact ⟨hsubscribes, (hstill habsent).mono hconcerns,
      fun name' h ↦ hfollows.liveAt (liveAt_enter (hw.live name' (hconcerns h))), by rwa [hinst]⟩

/-! ### The publisher -/

/-- A publisher whose topic has values of one type. -/
structure World.Publishing (w : World) (name : Str) (type : NTDataType) (pub : NTPublisher) :
    Prop extends Good w where
  nt : pub.nt = true
  type_eq : pub.topic.type = type
  publisher : w.inst.thisClient.publishers.lookup pub.pubuid = some (some ⟨pub.pubuid, name⟩)
  topic : ∃ t : TopicAt name, w.inst.topics.lookup name = some (some t) ∧ t.1.value.type = type

/-- A publisher and a subscriber of one topic with values of one type. -/
structure World.Ready (w : World) (this : ℕ) (name : Str) (type : NTDataType) (pub : NTPublisher) :
    Prop extends Publishing w name type pub where
  told : w.Told this name (w.inst.thisClient.topicId name)
  receives : w.inst.thisClient.Receives name

omit [FloatCodec] in
theorem Env.install_agrees (env : Env) : env.install.Agrees := by
  rintro callback hcallback st t
  obtain rfl := Option.some.inj hcallback
  rfl

omit [FloatCodec] in
/-- What a publication that does not fail leads to. -/
theorem World.Good.published (hw : w.Good) {next pubuid : Int32} {type : NTDataType}
    {properties : TopicProperties} {r : World × AnnouncedTopic} {s : Instance}
    (hinst : r.1.inst = { s with mutexFree := true }) (hs : s.Sound)
    (hkeeps : Instance.Retains (MadeWith name) (Instance.withPublishers
      { w.inst with mutexFree := false }
      (w.inst.thisClient.publishers.insert pubuid (some ⟨pubuid, name⟩))) s)
    (hq : Publishes.Returned env.install name type properties (Instance.withPublishers
      { w.inst with mutexFree := false }
      (w.inst.thisClient.publishers.insert pubuid (some ⟨pubuid, name⟩))) (s, r.2))
    (hname : name ∉ w.inst.topics)
    (hfollows : World.Follows { w with NEXT_PUBLISHER_ID := next } r.1) :
    r.1.Publishing name type ⟨true, .ofAnnounced r.2, pubuid⟩ := by
  obtain ⟨guid, hguid⟩ := hw.self
  obtain ⟨t, ht, hnew⟩ := hq.topic
  refine ⟨⟨by rw [hinst], ⟨guid, ?_⟩, ?_, hfollows.installed.trans hw.installed⟩, rfl,
    (hq.known env.install_agrees).2.2 hname, ?_, t, ?_, (hnew hname).1⟩
  · rw [hinst]
    exact (hkeeps.self guid).2 hguid
  · rw [hinst]
    exact hs.release true
  · rw [hinst]
    show s.thisClient.publishers.lookup _ = _
    rw [congrArg ClientInfo.publishers hkeeps.info]
    exact AList.lookup_insert _
  · rwa [hinst]

/-- The publisher has its topic when it sets the first value. -/
theorem World.Subscribed.publish {w₀ : World} (hw : w₀.Subscribed w this name)
    {pubuid next : Int32}
    (hpubs : ∀ uid ≠ pubuid, w.inst.thisClient.publishers.lookup uid ≠ some none)
    {type : NTDataType} (htype : type ≠ .unassigned) (properties : TopicProperties) :
    Ends (World.call { w with NEXT_PUBLISHER_ID := next }
        (NetworkTables.publish (w.env env) name pubuid type properties w.inst))
      (fun r ↦ r.1.Ready this name type ⟨true, .ofAnnounced r.2, pubuid⟩) fun _ ↦ False := by
  rw [publish_of_free hw.free, hw.env_eq]
  let w₁ : World := { w with NEXT_PUBLISHER_ID := next }
  have hpublish := @localPublish_safely (MadeWith name) _ name _ env.install pubuid _ properties
    (hw.sound.release false) htype hpubs fun _ ↦ id
  refine (World.call_released (w := w₁)
    (R := fun r w' ↦ w'.Told this name (r.1.thisClient.topicId name)) hpublish
    fun r hr hkeeps hq ↦ ?_).imp fun r hr ↦ ?_
  · have hheard {t : AnnouncedTopic}
        (ht : .announcedCallback t ∈ w₁.calls { r.1 with mutexFree := true }) :
        r.1.Knows t ∧ w.inst.Concerns name t.name :=
      (World.mayHear_of_calls (w := w₁) hw.installed hkeeps rfl ht).imp_right .inr
    have hwaits : w₁.Waits this name (w.inst.Concerns name) :=
      ⟨hw.waits.topic, hw.waits.queue, hw.waits.others⟩
    have hid (t : AnnouncedTopic)
        (ht : .announcedCallback t ∈ w₁.calls { r.1 with mutexFree := true })
        (hname : t.name = name) : t.id = r.1.thisClient.topicId name := by
      obtain ⟨⟨data, hdata, hid⟩, -⟩ := hheard ht
      rw [ClientData.topicId, ← hname, hdata, ← hid]
      rfl
    refine ⟨fun t ht ↦ hw.liveAt _ (hheard ht).2, ?_⟩
    refine (hwaits.told fun t ht ↦ ⟨(hheard ht).2, hid t ht⟩).imp
      fun w' hw' ↦ hw'.resolve_right ?_
    -- the topic is announced to the local client, which is subscribed to it
    intro hnone
    obtain ⟨uid, sub, hsub, hcovers⟩ := hw.subscribes
    obtain ⟨events, t, hevents, ht, hname⟩ := (hq.2 hw.absent).hears
      ⟨hw.self, uid, sub, hsub, (Bool.and_eq_true_iff.1 hcovers).2⟩ rfl
    refine hnone t ?_ hname
    rwa [World.calls_of_history (w := w₁) hw.installed hevents]
  · obtain ⟨s, hinst, hs, hkeeps, hq, hfollows, htold⟩ := hr
    have hreturned := hq.2 hw.absent
    have hid : r.1.inst.thisClient.topicId name = s.thisClient.topicId name := by rw [hinst]
    have hsubs : s.thisClient.subscriptions = w.inst.thisClient.subscriptions :=
      (congrArg ClientInfo.subscriptions hkeeps.info).trans rfl
    obtain ⟨hname, ⟨data, hdata, -⟩, -⟩ := hreturned.known env.install_agrees
    rw [hname] at hdata
    obtain ⟨uid, sub, hsub, hcovers⟩ := hw.subscribes
    refine ⟨hw.toGood.published hinst hs hkeeps hreturned hw.absent hfollows, by rwa [hid],
      data, ?_, .inr ⟨uid, sub, ?_, hcovers⟩⟩
    · rw [hinst]
      exact hdata
    · rw [hinst]
      show s.thisClient.subscriptions.lookup _ = _
      rw [hsubs]
      exact hsub

/-! ### Setting and getting -/

omit [FloatCodec] in
theorem Env.install_accepts (env : Env) : env.install.Accepts := by
  rintro callback hcallback st id time value
  obtain rfl := Option.some.inj hcallback
  rfl

omit [FloatCodec] in
/-- A value that is assigned, and copied to a value of its API type, is the same. -/
theorem converted_content {v value : NTDataValue} (htype : v.type = value.type)
    (hvalid : value.isValid) (hapi : value.type.apiType = value.type) :
    (NTDataValue.assign { type := (v.assign value).getAPIType } (v.assign value)).type =
        value.type ∧
      (NTDataValue.assign { type := (v.assign value).getAPIType } (v.assign value)).content =
        value.content := by
  -- assigning to a valid value of the same type keeps the type and copies the contents
  have hassign (u u' : NTDataValue) (hu : u.type = u'.type) (hvalid : u'.isValid) :
      (u.assign u').type = u'.type ∧ (u.assign u').content = u'.content := by
    have hvalid' : u.isValid := by rwa [NTDataValue.isValid, hu]
    refine ⟨(NTDataValue.type_assign hvalid' u').trans hu, ?_⟩
    have hapi : u.getAPIType = u'.getAPIType := congrArg NTDataType.apiType hu
    rw [NTDataValue.assign, if_pos hvalid', if_pos hapi]
    exact NTDataValue.content_copyMember_of_type hu
  obtain ⟨htype₁, hcontent₁⟩ := hassign v value htype hvalid
  have hvalid₁ : (v.assign value).isValid := by rwa [NTDataValue.isValid, htype₁]
  have hapi₁ : (v.assign value).getAPIType = (v.assign value).type := by
    rw [NTDataValue.getAPIType, htype₁, hapi]
  obtain ⟨htype₂, hcontent₂⟩ := hassign { type := (v.assign value).getAPIType } (v.assign value)
    hapi₁ hvalid₁
  exact ⟨htype₂.trans htype₁, hcontent₂.trans hcontent₁⟩

/-- What moves without an unnumbered entry keep, beside what a program keeps that does not fail. -/
def Allow.numbered : Allow :=
  { Allow.all with unnumbered := False }

theorem Safely.numbered {α : Type} {new : Str → Prop} {st st₀ : Instance} {x : Except Fault α}
    {final : α → Instance} {P Q : α → Prop} (hx : Safely new st x final Q)
    (hmoves : Follows .numbered st₀ x final P) :
    Safely new st x final fun a ↦ Q a ∧ ∀ among name, st₀.thisClient.UnambiguousAt among name →
      (final a).thisClient.UnambiguousAt among name :=
  (Ends.and hx hmoves).mono (fun _ ⟨⟨hs, hkeeps, hq⟩, hm, _⟩ ↦
    ⟨hs, hkeeps, hq, fun _ _ ↦ hm.unambiguousAt id⟩) fun _ ↦ And.left

/-- What a setter of a publisher does that passes its test. -/
theorem NTPublisher.setIf_publishing {type : NTDataType} {pub : NTPublisher}
    (hw : w.Publishing name type pub) {test : Bool} (htest : test = true) {value : NTDataValue}
    (hvalid : value.isValid) (time : Option UInt64) {R : TopicAt name → Instance → World → Prop}
    (hR : ∀ (t : TopicAt name) (sent : UInt64) (s : Instance),
      w.inst.topics.lookup name = some (some t) → t.1.value.type = type →
      Sends env.install (t.setValue (t.1.value.assign value)).1 sent
        (Instance.setTopic { w.inst with mutexFree := false } name
          (t.setValue (t.1.value.assign value)))
        (env.install.Accepts ∧ ∃ guid, w.inst.clients.lookup guid = some .self) s →
      Ends (w.after { s with mutexFree := true }) (R t s) fun _ ↦ True) :
    Ends (setIf env pub test value time w)
      (fun r ↦ r.2 = true ∧ r.1.Publishing name type pub ∧ w.Follows r.1 ∧
        ∃ (t : TopicAt name) (s : Instance), t.1.value.type = type ∧
          w.inst.topics.lookup name = some (some t) ∧
          r.1.inst = { s with mutexFree := true } ∧
          Instance.Retains (fun _ ↦ False) { w.inst with mutexFree := false } s ∧
          s.topics.lookup name = some (some (t.setValue (t.1.value.assign value))) ∧
          s.thisClient.topicData = w.inst.thisClient.topicData ∧
          (∀ among name, w.inst.thisClient.UnambiguousAt among name →
            s.thisClient.UnambiguousAt among name) ∧
          R t s r.1)
      fun _ ↦ False := by
  rw [setIf, hw.nt, htest, hw.env_eq, updateTopic]
  obtain ⟨t, ht, ht₁⟩ := hw.topic
  let st : Instance := { w.inst with mutexFree := false }
  let sent : UInt64 := time.getD (getServerTime env.install w.inst)
  have hupdate := (@localUpdateTopic_safely (fun _ ↦ False) st _ env.install sent _ _ t value
    (hw.sound.release false) hw.publisher ht hvalid).numbered
    (@localUpdateTopic_follows _ .numbered env.install st (.inl trivial) pub.pubuid value sent
      (.inl trivial) fun pub' hpub' ↦ ⟨trivial, .inr ⟨trivial, trivial⟩⟩)
  refine .map ((World.run_released (R := fun s w' ↦ R t s w') hw.free hupdate
    fun s hs hkeeps hsends ↦ ?_).imp fun w' hw' ↦ ?_)
  · obtain ⟨⟨-, -, events, hevents, hall, -⟩, -⟩ := id hsends
    refine ⟨fun t' ht' ↦ ?_, hR t sent s ht ht₁ hsends.1⟩
    rw [World.calls_of_history hw.installed hevents] at ht'
    exact ClientEvent.noConfusion (hall _ ht').2
  · obtain ⟨s, hinst, hs, hkeeps, ⟨hsends, hnumbered⟩, hfollows, hr⟩ := hw'
    have hlookup : s.topics.lookup name = some (some (t.setValue (t.1.value.assign value))) := by
      rw [hsends.topics]
      exact AList.lookup_insert _
    refine ⟨rfl, ⟨hw.toGood.follows hfollows hinst hs hkeeps rfl, hw.nt, hw.type_eq, ?_,
      t.setValue (t.1.value.assign value), ?_, ?_⟩, hfollows, t, s, ht₁, ht, hinst, hkeeps,
      hlookup, hsends.topicData, hnumbered, hr⟩
    · rw [hinst]
      show s.thisClient.publishers.lookup _ = _
      rw [congrArg ClientInfo.publishers hkeeps.info]
      exact hw.publisher
    · rwa [hinst]
    · exact (NTDataValue.type_assign (hw.sound.valid ht) value).trans ht₁

/-- **A value that is set is the one that is read.** -/
theorem NTPublisher.setIf_ready {type : NTDataType} {pub : NTPublisher}
    (hw : w.Ready this name type pub) {test : Bool} (htest : test = true) {value : NTDataValue}
    (htype : value.type = type) (hvalid : value.isValid) (hapi : type.apiType = type)
    (time : Option UInt64) :
    Ends (setIf env pub test value time w)
      (fun r ↦ r.2 = true ∧ r.1.Ready this name type pub ∧
        r.1.Sees this fun s ↦ (r.1.get s).type = type ∧ (r.1.get s).content = value.content)
      fun _ ↦ False := by
  let topicId : ℤ := w.inst.thisClient.topicId name
  let got (t : TopicAt name) : NTDataValue :=
    .assign { type := (t.1.value.assign value).getAPIType } (t.1.value.assign value)
  refine (setIf_publishing hw.toPublishing htest hvalid time (R := fun t _ w' ↦
    w'.Told this name topicId ∧ ∃ time, w'.data.updates.lookup topicId = some ⟨got t, time⟩)
    fun t sent s ht ht₁ hsends ↦ ?_).imp fun r hr ↦ ?_
  · obtain ⟨events, hevents, hall, hvisited⟩ := hsends.calls
    have hcalls : w.calls { s with mutexFree := true } = events :=
      World.calls_of_history hw.installed hevents
    have hevent (e : ClientEvent) (he : e ∈ w.calls { s with mutexFree := true }) :
        e = .updateCallback topicId sent (got t) := by
      rw [hcalls] at he
      exact (hall e he).2.trans (congrArg (fun name ↦ ClientEvent.updateCallback
        (w.inst.thisClient.topicId name) sent (got t)) t.2)
    have hne : events ≠ [] := by
      refine hvisited ⟨env.install_accepts, hw.self⟩ ?_ rfl
      show w.inst.thisClient.Receives t.1.name
      rw [t.2]
      exact hw.receives
    obtain ⟨e, he⟩ := List.exists_mem_of_ne_nil _ hne
    refine ((hw.told.after fun t' ht' ↦ ?_).and (w.updates_after (fun time' value' hmem ↦ ?_)
      ⟨sent, got t, ?_⟩)).mono (fun _ ↦ id) fun _ _ ↦ trivial
    · exact ClientEvent.noConfusion (hevent _ ht')
    · exact (ClientEvent.updateCallback.inj (hevent _ hmem)).2.2
    · rw [← hcalls] at he
      rwa [← hevent e he]
  · obtain ⟨hok, hpublishing, -, t, s, ht₁, ht, hinst, hkeeps, -, hdata, -, htold, hlast⟩ := hr
    have hid : r.1.inst.thisClient.topicId name = topicId := by
      rw [hinst]
      exact congrArg (fun m ↦ ((AList.lookup name m).getD {}).id) hdata
    refine ⟨hok, ⟨hpublishing, by rwa [hid], ?_⟩, ?_⟩
    · obtain ⟨data, hdata', hreceives⟩ := hw.receives
      rw [hinst]
      refine ⟨data, ?_, ?_⟩
      · show s.thisClient.topicData.lookup name = _
        rw [hdata, hdata']
      · show _ ∨ ∃ uid sub, s.thisClient.subscriptions.lookup uid = _ ∧ _
        rwa [congrArg ClientInfo.subscriptions hkeeps.info]
    · obtain ⟨hgottype, hgotcontent⟩ :
          (got t).type = value.type ∧ (got t).content = value.content :=
        converted_content (ht₁.trans htype.symm) hvalid (by rw [htype, hapi])
      obtain ⟨sub, hsub, -, hsubid⟩ := htold
      obtain ⟨time', hlast⟩ := hlast
      have hget : r.1.get sub = got t := by
        rw [World.get, hsubid, hlast]
      exact ⟨sub, hsub, by rw [hget, hgottype, htype], by rw [hget, hgotcontent]⟩

/-- The publisher's setter tests for the type of the value it sets. -/
theorem SetCall.publisher_ready {type : NTDataType} {pub : NTPublisher}
    (hw : w.Ready this name type pub) {call : SetCall} (htype : call.value.type = type)
    (hvalid : call.value.isValid) (hapi : type.apiType = type) (time : Option UInt64) :
    Ends (call.publisher env pub time w)
      (fun r ↦ r.2 = true ∧ r.1.Ready this name type pub ∧
        r.1.Sees this fun s ↦ (r.1.get s).type = type ∧ (r.1.get s).content = call.value.content)
      fun _ ↦ False := by
  have hpub := hw.type_eq
  have hset {test : Bool} (htest : test = true) :=
    @NTPublisher.setIf_ready _ _ _ _ env _ _ hw _ htest _ htype hvalid hapi time
  cases call with
  | set value =>
    have htype : value.type = type := htype
    refine hset (decide_eq_true ?_)
    rw [hpub, NTDataValue.getAPIType, htype, hapi]
  | setUInt value =>
    have htype : NTDataType.uint = type := htype
    rw [← htype] at hapi
    exact NTDataType.noConfusion hapi
  | setString value =>
    have htype : NTDataType.str = type := htype
    refine hset ?_
    rw [hpub, ← htype]
    rfl
  | setBoolean value => exact hset (decide_eq_true (hpub.trans htype.symm))
  | setDouble value => exact hset (decide_eq_true (hpub.trans htype.symm))
  | setFloat value => exact hset (decide_eq_true (hpub.trans htype.symm))
  | setInt value => exact hset (decide_eq_true (hpub.trans htype.symm))
  | setBooleanArray value => exact hset (decide_eq_true (hpub.trans htype.symm))
  | setDoubleArray value => exact hset (decide_eq_true (hpub.trans htype.symm))
  | setFloatArray value => exact hset (decide_eq_true (hpub.trans htype.symm))
  | setIntArray value => exact hset (decide_eq_true (hpub.trans htype.symm))
  | setStringArray value => exact hset (decide_eq_true (hpub.trans htype.symm))
  | setRaw value => exact hset (decide_eq_true (hpub.trans htype.symm))

theorem World.Subscribed.makePublisher {w₀ : World} (hw : w₀.Subscribed w this name)
    (hpubs : ∀ uid ≠ w.NEXT_PUBLISHER_ID, w.inst.thisClient.publishers.lookup uid ≠ some none)
    (hid : w.NEXT_PUBLISHER_ID ≠ Int32.maxValue) {v : NTDataValue} (hvalid : v.isValid)
    (hapi : v.type.apiType = v.type) (time : Option UInt64) (properties : TopicProperties) :
    Ends (NTPublisher.make env name v time properties w)
      (fun r ↦ r.1.Ready this name v.type r.2 ∧
        r.1.Sees this fun s ↦ (r.1.get s).type = v.type ∧ (r.1.get s).content = v.content)
      fun _ ↦ False := by
  rw [NTPublisher.make, World.nextId_of_ne hid, ok_bind]
  have htype : v.type ≠ .unassigned := by simpa [NTDataValue.isValid] using hvalid
  refine (hw.publish hpubs htype properties).bind fun r hr ↦ ?_
  refine (@SetCall.publisher_ready _ _ _ _ _ _ _ hr (.set v) rfl hvalid hapi time).bind
    fun s hs ↦ ?_
  exact ⟨hs.2.1, hs.2.2⟩

end

end NetworkTables
