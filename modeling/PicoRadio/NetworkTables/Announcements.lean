import PicoRadio.NetworkTables.Operations

/-!
# Who has been told of a topic

A client is informed if it knows every cached topic that a subscription of it matches. Most of the
server lets subscriptions go, tells clients more and leaves properties alone (`Instance.Keeps`), and
so keeps everybody informed. This file shows that for the moves of that kind, and that a topic which
is made and announced leaves everybody informed too: the loops over the clients visit everybody.

## What has to be shown

Two kinds of steps can leave a client uninformed: a topic that becomes cached, and a subscription
that matches a topic the client does not know. Everything else is quiet (`Allow.quiet`), and a quiet
program is done with by `Follows.informed`. The first kind is dealt with here
(`announce_created_informed`), the second one where the subscriptions are made.
-/

namespace NetworkTables

open Relation

/-- A subscription of the client matches the name. -/
def ClientData.Hears (d : ClientData) (name : Str) : Prop :=
  ∃ uid sub, d.subscriptions.lookup uid = some (some sub) ∧ sub.isSubscribed name

namespace Instance

variable {st st' : Instance} {guid : Guid}

/-- The client behind the pointer knows the topic if it hears of it. -/
def ToldOf (st : Instance) (name : Str) (guid : Guid) : Prop :=
  ∀ d, st.Behind guid d → d.Hears name → name ∈ d.topicData

/-- The topic exists and is cached. -/
def Caches (st : Instance) (name : Str) : Prop :=
  ∃ t, st.topics.lookup name = some (some t) ∧ t.1.properties.cached

/-- The client behind the pointer knows every cached topic it hears of. -/
def InformedAt (st : Instance) (guid : Guid) : Prop :=
  ∀ name, st.Caches name → st.ToldOf name guid

/-- Every client knows every cached topic it hears of, and the local client is one of them. -/
structure Informed (st : Instance) : Prop where
  self : st.clients.lookup fakeServer.guid = some .self
  clients : ∀ guid, st.InformedAt guid

/-- The local client is informed too: a pointer leads to it. -/
theorem Informed.thisClient (hst : st.Informed) {name : Str} (hname : st.Caches name)
    (hhears : st.thisClient.Hears name) : name ∈ st.thisClient.topicData :=
  hst.clients _ name hname _ (.inl ⟨hst.self, rfl⟩) hhears

/-! ### What keeps clients informed -/

/-- No client hears of more topics or knows fewer, and no topic is cached that was not. -/
structure Keeps (st st' : Instance) : Prop where
  self : ∀ guid, st.clients.lookup guid = some .self → st'.clients.lookup guid = some .self
  behind : ∀ guid d', st'.Behind guid d' → ∃ d, st.Behind guid d ∧
    (∀ name, d'.Hears name → d.Hears name) ∧ ∀ name ∈ d.topicData, name ∈ d'.topicData
  cached : ∀ name, st'.Caches name → st.Caches name

namespace Keeps

/-- Nothing has changed. -/
theorem refl (st : Instance) : Keeps st st :=
  ⟨fun _ ↦ id, fun _ d hd ↦ ⟨d, hd, fun _ ↦ id, fun _ ↦ id⟩, fun _ ↦ id⟩

/-- One after the other. -/
theorem trans {st'' : Instance} (h : Keeps st st') (h' : Keeps st' st'') : Keeps st st'' := by
  refine ⟨fun guid hself ↦ h'.self guid (h.self guid hself), fun guid d'' hd'' ↦ ?_,
    fun name hname ↦ h.cached name (h'.cached name hname)⟩
  obtain ⟨d', hd', hhears', hdata'⟩ := h'.behind guid d'' hd''
  obtain ⟨d, hd, hhears, hdata⟩ := h.behind guid d' hd'
  exact ⟨d, hd, fun name hname ↦ hhears name (hhears' name hname),
    fun name hname ↦ hdata' name (hdata name hname)⟩

/-- Kept for one client and one topic. -/
theorem toldOf (h : Keeps st st') {name : Str} (hst : st.ToldOf name guid) :
    st'.ToldOf name guid := by
  intro d' hd' hhears'
  obtain ⟨d, hd, hhears, hdata⟩ := h.behind guid d' hd'
  exact hdata name (hst d hd (hhears name hhears'))

/-- Kept for one client: no topic is cached that was not. -/
theorem informedAt (h : Keeps st st') (hst : st.InformedAt guid) : st'.InformedAt guid :=
  fun name hname ↦ h.toldOf (hst name (h.cached name hname))

/-- Everybody stays informed. -/
theorem informed (h : Keeps st st') (hst : st.Informed) : st'.Informed :=
  ⟨h.self _ hst.self, fun guid ↦ h.informedAt (hst.clients guid)⟩

end Keeps

/-- What is behind a pointer after the data behind it changed. -/
theorem Behind.setClient {d d' d'' : ClientData} (hd : st.Behind guid d)
    (hd'' : (st.setClient guid d').Behind guid d'') : d'' = d' := by
  rcases hd with ⟨hself, -⟩ | hremote
  · rw [setClient_of_self hself] at hd''
    rcases hd'' with ⟨-, heq⟩ | hremote
    · exact heq
    · rw [hself] at hremote
      cases hremote
  · rw [setClient_of_remote hremote] at hd''
    rcases hd'' with ⟨hself, -⟩ | hremote'
    · rw [AList.lookup_insert] at hself
      cases hself
    · rw [AList.lookup_insert] at hremote'
      cases hremote'
      rfl

/-- Two guids lead to the same data. -/
def SamePtr (st : Instance) (guid guid' : Guid) : Prop :=
  guid' = guid ∨ st.clients.lookup guid = some .self ∧ st.clients.lookup guid' = some .self

/-- What is known behind one of the two guids is known behind the other. -/
theorem SamePtr.informedAt {guid' : Guid} (h : st.SamePtr guid guid') (hst : st.InformedAt guid) :
    st.InformedAt guid' := by
  rcases h with rfl | ⟨hself, hself'⟩
  · exact hst
  · rintro name hname d (⟨-, rfl⟩ | hremote)
    · exact hst name hname _ (.inl ⟨hself, rfl⟩)
    · rw [hself'] at hremote
      cases hremote

/-- The pointers to the local client stay where they are. -/
theorem Keeps.samePtr {guid' : Guid} (h : Keeps st st') (hsame : st.SamePtr guid guid') :
    st'.SamePtr guid guid' :=
  hsame.imp_right fun ⟨hself, hself'⟩ ↦ ⟨h.self _ hself, h.self _ hself'⟩

/-- A change of a client's data changes no pointer to the local client. -/
theorem lookup_self_setClient {guid' : Guid} (d : ClientData) :
    (st.setClient guid d).clients.lookup guid' = some .self ↔
      st.clients.lookup guid' = some .self := by
  unfold setClient
  split
  · exact Iff.rfl
  · next d₀ hremote =>
    rw [AList.lookup_insert_ite]
    split
    · next heq =>
      subst heq
      simp [hremote]
    · exact Iff.rfl
  · exact Iff.rfl
  · exact Iff.rfl

/-- A change of the data behind a pointer leaves what is behind the others. -/
theorem Behind.of_setClient {guid' : Guid} {d d' : ClientData} (hother : ¬st.SamePtr guid guid')
    (hd' : (st.setClient guid d).Behind guid' d') : st.Behind guid' d' := by
  unfold Instance.setClient at hd'
  split at hd'
  · next hself =>
    rcases hd' with ⟨hself', -⟩ | hremote
    · exact absurd (.inr ⟨hself, hself'⟩) hother
    · exact .inr hremote
  · next d₀ hremote =>
    have hne : guid' ≠ guid := fun heq ↦ hother (.inl heq)
    rcases hd' with ⟨hself, rfl⟩ | hremote'
    · rw [AList.lookup_insert_ne hne] at hself
      exact .inl ⟨hself, rfl⟩
    · rw [AList.lookup_insert_ne hne] at hremote'
      exact .inr hremote'
  · exact hd'
  · exact hd'

/-- A change of a client's data that concerns neither its subscriptions nor what it knows. -/
theorem Keeps.setClient {d d' : ClientData} (hd : st.Behind guid d)
    (hsub : d'.subscriptions = d.subscriptions) (hdata : d'.topicData = d.topicData) :
    Keeps st (st.setClient guid d') := by
  refine ⟨fun guid' hself ↦ (lookup_self_setClient d').2 hself, fun guid' d'' hd'' ↦ ?_,
    fun name hname ↦ ?_⟩
  -- several guids may lead to the local client, and all of them see the change
  · by_cases hsame : st.SamePtr guid guid'
    · have hbehind : st.Behind guid' d ∧ (st.setClient guid d').Behind guid d'' := by
        rcases hsame with rfl | ⟨hself, hself'⟩
        · exact ⟨hd, hd''⟩
        · refine ⟨?_, ?_⟩
          · rcases hd with ⟨-, rfl⟩ | hremote
            · exact .inl ⟨hself', rfl⟩
            · rw [hself] at hremote
              cases hremote
          · rw [setClient_of_self hself] at hd'' ⊢
            rcases hd'' with ⟨-, rfl⟩ | hremote
            · exact .inl ⟨hself, rfl⟩
            · rw [hself'] at hremote
              cases hremote
      obtain rfl := hd.setClient hbehind.2
      refine ⟨d, hbehind.1, fun name hname ↦ ?_, fun name hname ↦ by rwa [hdata]⟩
      rwa [ClientData.Hears, hsub] at hname
    · exact ⟨d'', hd''.of_setClient hsame, fun _ ↦ id, fun _ ↦ id⟩
  · rwa [Caches, topics_setClient] at hname

/-- The same for the local client, which no pointer need lead to. -/
theorem Keeps.thisClient {d' : ClientData} (hsub : d'.subscriptions = st.thisClient.subscriptions)
    (hdata : d'.topicData = st.thisClient.topicData) :
    Keeps st { st with thisClient := d' } := by
  refine ⟨fun _ ↦ id, ?_, fun _ ↦ id⟩
  rintro guid d (⟨hself, rfl⟩ | hremote)
  · refine ⟨st.thisClient, .inl ⟨hself, rfl⟩, fun name hname ↦ ?_, fun name hname ↦ ?_⟩
    · rwa [ClientData.Hears, ← hsub]
    · rwa [← hdata] at hname
  · exact ⟨d, .inr hremote, fun _ ↦ id, fun _ ↦ id⟩

end Instance

section

variable [FloatCodec] {env : Env} {st : Instance}

/-- No new subscription, no new topic and no other properties. -/
def Allow.quiet : Allow :=
  { Allow.all with subscribes _ := False, creates _ := False, configures _ := False }

/-- A client that gets no subscription hears of no more, and it forgets no topic. -/
theorem ClientMove.hears {topics : Topics} {self : Bool} {d d' : ClientData}
    (h : ClientMove .quiet topics self d d') {name : Str} (hname : d'.Hears name) :
    d.Hears name := by
  obtain ⟨uid, sub, hsub, hmatch⟩ := hname
  refine ⟨uid, sub, ?_, hmatch⟩
  cases h with
  | subscribe hK => exact hK.2.elim
  | unsubscribe =>
    rw [AList.lookup_erase_ite] at hsub
    split at hsub
    · cases hsub
    · exact hsub
  | nullSubscription _ uid' =>
    rw [AList.lookup_subscript] at hsub
    split at hsub
    · next heq =>
      subst heq
      cases hlookup : d.subscriptions.lookup uid with
      | none => rw [hlookup] at hsub; cases hsub
      | some p => rw [hlookup] at hsub; exact hsub
    · exact hsub
  | announce | announceToPublisher | properties | update | flushText | flushBinary | announceSelf =>
    simpa using hsub
  | publish | unpublish | nullPublisher | callback | unnumbered => exact hsub

/-- Many moves of one client. -/
theorem ClientMove.hears_star {topics : Topics} {self : Bool} {d d' : ClientData}
    (h : ReflTransGen (ClientMove .quiet topics self) d d') :
    (∀ name, d'.Hears name → d.Hears name) ∧ ∀ name ∈ d.topicData, name ∈ d'.topicData := by
  induction h with
  | refl => exact ⟨fun _ ↦ id, fun _ ↦ id⟩
  | tail _ h ih =>
    exact ⟨fun name hname ↦ ih.1 name (h.hears hname),
      fun name hname ↦ h.mem_topicData (ih.2 name hname)⟩

/-- A pointer to the local client stays one, and no other becomes one. -/
theorem Moves.lookup_self_iff {K : Allow} {st' : Instance} (h : Moves K st st') {guid : Guid} :
    st'.clients.lookup guid = some .self ↔ st.clients.lookup guid = some .self := by
  by_cases hd : ∃ d, st.clients.lookup guid = some (.remote d)
  · obtain ⟨d, hd⟩ := hd
    obtain ⟨d', hd', -⟩ := h.remote_identity hd
    simp [hd, hd']
  · rw [h.lookup_of_not_remote fun d hd' ↦ hd ⟨d, hd'⟩]

/-- The step: a quiet move keeps everybody informed. -/
theorem Move.keeps {st' : Instance} (h : Move .quiet st st') : st.Keeps st' := by
  have hself (guid : Guid) : st'.clients.lookup guid = some .self ↔
      st.clients.lookup guid = some .self := Moves.lookup_self_iff (.single h)
  refine ⟨fun guid ↦ (hself guid).2, fun guid d' hd' ↦ ?_, fun name hname ↦ ?_⟩
  · have hclient : ∃ d self, st.Behind guid d ∧
        ReflTransGen (ClientMove .quiet st'.topics self) d d' := by
      rcases hd' with ⟨hlookup, rfl⟩ | hd'
      · -- the local client
        have hbehind : st.Behind guid st.thisClient := .inl ⟨(hself guid).1 hlookup, rfl⟩
        refine ⟨st.thisClient, true, hbehind, ?_⟩
        cases h with
        | self hm => exact .single hm
        | remote | create | properties | nullTopic => exact .refl
        | assign _ _ _ _ _ _ _ hb =>
          have hs := hb.self
          rwa [hb.frame]
      · cases h with
        | remote hd hm =>
          rw [AList.lookup_insert_ite] at hd'
          split at hd'
          · next heq =>
            cases hd'
            subst heq
            exact ⟨_, false, .inr hd, .single hm⟩
          · exact ⟨d', false, .inr hd', .refl⟩
        | self | create | properties | nullTopic => exact ⟨d', false, .inr hd', .refl⟩
        | @assign _ name t _ ht value _ _ _ _ hb =>
          obtain ⟨d, hd, hm⟩ := hb.reflGen (t := t.setValue value) (AList.lookup_insert _) hd'
          have htopics : st'.topics = (st.setTopic name (t.setValue value)).topics := by
            rw [hb.frame]
          rw [htopics]
          exact ⟨d, false, .inr hd, hm.to_reflTransGen⟩
    obtain ⟨d, self, hd, hm⟩ := hclient
    exact ⟨d, hd, ClientMove.hears_star hm⟩
  -- a topic that is cached afterwards was cached before: none is made or configured
  · obtain ⟨t', ht', hcached⟩ := hname
    cases h with
    | remote | self => exact ⟨t', ht', hcached⟩
    | create hK => exact hK.elim
    | properties hK => exact hK.elim
    | nullTopic hK => exact hK.1.elim
    | @assign _ name' t _ ht value _ _ _ _ hb =>
      rw [hb.frame] at ht'
      change (st.topics.insert name' (some (t.setValue value))).lookup name = _ at ht'
      obtain rfl | hne := eq_or_ne name name'
      · rw [AList.lookup_insert] at ht'
        cases ht'
        exact ⟨t, ht, hcached⟩
      · rw [AList.lookup_insert_ne hne] at ht'
        exact ⟨t', ht', hcached⟩

/-- Any number of quiet moves. -/
theorem Moves.keeps {st' : Instance} (h : Moves .quiet st st') : st.Keeps st' := by
  induction h with
  | refl => exact .refl _
  | tail _ h ih => exact ih.trans h.keeps

/-- A program that makes quiet moves only. -/
theorem Follows.informed {α : Type} {x : Except Fault α} {final : α → Instance} {Q : α → Prop}
    (hx : Follows .quiet st x final Q) (hst : st.Informed) :
    Ends x (fun a ↦ (final a).Informed) fun _ ↦ True :=
  Ends.mono hx (fun _ h ↦ h.1.keeps.informed hst) fun _ _ ↦ trivial

/-! ### A topic is made and announced -/

section Announce

variable {name : Str} {t : TopicAt name}

omit [FloatCodec]

/-- A lookup that may fail says nothing about a failure here. -/
theorem Instance.client_behind (st : Instance) (guid : Guid) (fault : Fault) :
    Ends (st.client guid fault) (st.Behind guid) fun _ ↦ True :=
  (st.client_ends guid fault).mono (fun _ ↦ id) fun _ _ ↦ trivial

/-- A search of the subscriptions that finds nothing. -/
theorem isSubscribed_hears (env : Env) (d : ClientData) (name : Str) :
    Ends (isSubscribed env d.subscriptions name) (fun sub ↦ sub.isNone → ¬d.Hears name)
      fun _ ↦ True := by
  refine (isSubscribed_ends env d.subscriptions name false).mono (fun sub hsub hnone ↦ ?_)
    fun _ _ ↦ trivial
  rintro ⟨uid, s, hs, hmatch⟩
  refine hsub.2 (Option.isNone_iff_eq_none.1 hnone) uid s hs ?_
  rw [Subscription.covers, hmatch]
  rfl

/-- A client that does not hear of a topic need not know it. -/
theorem Instance.Behind.toldOf {guid : Guid} {d : ClientData} (hd : st.Behind guid d)
    (hhears : ¬d.Hears name) : st.ToldOf name guid := by
  intro d' hd' hhears'
  have heq : d' = d := by
    have hclient := hd.client .nullDeref
    rw [hd'.client .nullDeref] at hclient
    exact Except.ok.inj hclient
  rw [heq] at hhears'
  exact absurd hhears' hhears

/-- A client that was given an entry for the topic knows it. -/
theorem Instance.Behind.toldOf_setClient {guid : Guid} {d d' : ClientData} (hd : st.Behind guid d)
    (hmem : name ∈ d'.topicData) : (st.setClient guid d').ToldOf name guid := by
  intro d'' hd'' _
  rwa [hd.setClient hd'']

/-- The local client gets its entry, whether there is a callback or not and whatever it says. -/
theorem announceTopicSelf_toldOf {guid : Guid} (hself : st.isSelf guid) :
    (announceTopicSelf env st t.1).1.ToldOf name guid := by
  have hmem : name ∈ (st.thisClient.assignId t.1.name).topicData :=
    ClientData.mem_assignId.2 (.inr t.2.symm)
  have hclients : (announceTopicSelf env st t.1).1.clients = st.clients := by
    unfold announceTopicSelf
    cases env.topicAnnouncedCallback <;> rfl
  have hdata : name ∈ (announceTopicSelf env st t.1).1.thisClient.topicData := by
    unfold announceTopicSelf
    cases env.topicAnnouncedCallback <;> exact hmem
  rintro d (⟨-, rfl⟩ | hremote) _
  · exact hdata
  · rw [hclients, of_decide_eq_true hself] at hremote
    cases hremote

/-- An announced topic has an entry. -/
theorem mem_announceTopic (d : ClientData) (t : TopicAt name) :
    name ∈ (d.announceTopic t.1).topicData := by
  rw [(d.topicData_announceTopic t.1).1, ClientData.mem_assignId]
  exact .inr t.2.symm

/-- Whoever is visited knows the topic afterwards, if it hears of it. -/
theorem announceTopicBody_toldOf (s : Instance × Bool) (guid : Guid) :
    Ends (announceTopicBody env t.1 s guid) (fun r ↦ r.1.ToldOf name guid) fun _ ↦ True := by
  unfold announceTopicBody
  refine (s.1.client_behind guid .clientNull).bind fun d hd ↦ ?_
  refine (isSubscribed_hears env d t.1.name).bind fun sub hsub ↦ ?_
  rw [t.2] at hsub
  split
  -- who does not hear of the topic need not be told
  · next hnone => exact hd.toldOf (hsub hnone)
  · split
    · next hself => exact announceTopicSelf_toldOf hself
    · exact hd.toldOf_setClient (mem_announceTopic d t)

/-- The publisher is told whether it hears of the topic or not. -/
theorem announceTopicToPublisherBody_toldOf {publisherGuid : Guid} {pubuid : Int32}
    (s : Instance × Bool) (guid : Guid) :
    Ends (announceTopicToPublisherBody env t.1 publisherGuid pubuid s guid)
      (fun r ↦ r.1.ToldOf name guid) fun _ ↦ True := by
  unfold announceTopicToPublisherBody
  split
  · refine (s.1.client_behind guid .clientNull).bind fun d hd ↦ hd.toldOf_setClient ?_
    rw [ClientData.topicData_announceTopicToPublisher, ClientData.mem_assignId]
    exact .inr t.2.symm
  · exact announceTopicBody_toldOf s guid

end Announce

/-- A loop over the clients after which everybody visited knows the topic. -/
theorem announceLoop_toldOf {name : Str}
    {body : Instance × Bool → Guid → Except Fault (Instance × Bool)}
    (hfollows : ∀ s guid, guid ∈ s.1.clients → Announced env name st s →
      Follows .quiet s.1 (body s guid) Prod.fst (Announced env name st))
    (htold : ∀ s guid, Ends (body s guid) (fun r ↦ r.1.ToldOf name guid) fun _ ↦ True) :
    Ends ((env.guids.keys st.clients).foldlM body (st, true))
      (fun r ↦ ∀ guid, r.1.ToldOf name guid) fun _ ↦ True := by
  refine (Ends.foldlM_visited (I := fun done s ↦ Moves .quiet st s.1 ∧ Announced env name st s ∧
    ∀ guid ∈ done, s.1.ToldOf name guid) (E := fun _ ↦ True)
    (fun done guid rest hl s ⟨hm, hs, hdone⟩ ↦ ?_) ⟨.refl, ⟨rfl, rfl, fun _ ↦ rfl⟩, ?_⟩).imp ?_
  · have hguid : guid ∈ s.1.clients := by
      rw [hm.mem_clients, ← env.guids.mem_keys, hl]
      exact List.mem_append.2 (.inr List.mem_cons_self)
    refine (Ends.and (hfollows s guid hguid hs) (htold s guid)).mono
      (fun r ⟨⟨hm', hs'⟩, htold⟩ ↦ ⟨hm.trans hm', hs', fun guid' hmem ↦ ?_⟩) fun _ _ ↦ trivial
    rcases List.mem_append.1 hmem with hmem | hmem
    · exact hm'.keeps.toldOf (hdone guid' hmem)
    · rwa [List.mem_singleton.1 hmem]
  · exact fun guid hmem ↦ absurd hmem List.not_mem_nil
  · rintro r ⟨hm, -, hdone⟩ guid d hd
    have hguid : guid ∈ r.1.clients := hd.elim (fun h ↦ AList.mem_of_lookup h.1) AList.mem_of_lookup
    exact hdone guid (env.guids.mem_keys.2 (hm.mem_clients.1 hguid)) d hd

/-- The announcement of a topic to all who hear of it. -/
theorem announceTopic_toldOf {name : Str} {t : TopicAt name}
    (ht : st.topics.lookup name = some (some t)) :
    Ends (announceTopic env st t.1) (fun r ↦ ∀ guid, r.1.ToldOf name guid) fun _ ↦ True :=
  announceLoop_toldOf (fun _ _ hguid hs ↦ announceTopicBody_follows (by rwa [hs.topics]) hguid hs)
    announceTopicBody_toldOf

/-- The announcement that also answers the publisher. -/
theorem announceTopicToPublisher_toldOf {name : Str} {t : TopicAt name} {publisherGuid : Guid}
    {pubuid : Int32} (ht : st.topics.lookup name = some (some t)) :
    Ends (announceTopicToPublisher env publisherGuid pubuid st t.1)
      (fun r ↦ ∀ guid, r.1.ToldOf name guid) fun _ ↦ True :=
  announceLoop_toldOf
    (fun _ _ hguid hs ↦ announceTopicToPublisherBody_follows (by rwa [hs.topics]) hguid hs)
    announceTopicToPublisherBody_toldOf

/-- A topic that is made and announced to everybody leaves everybody informed. -/
theorem announce_created_informed {name : Str} {value : NTDataValue} {properties : TopicProperties}
    {announce : Instance → Topic → Except Fault (Instance × Bool)}
    (hfollows : ∀ {st t}, st.topics.lookup name = some (some t) →
      Follows .quiet st (announce st t.1) Prod.fst (Announced env name st))
    (htold : ∀ {st : Instance} {t}, st.topics.lookup name = some (some t) →
      Ends (announce st t.1) (fun r ↦ ∀ guid, r.1.ToldOf name guid) fun _ ↦ True)
    (hst : st.Informed) {t : TopicAt name}
    (ht : (getOrCreateTopic st name value properties).2 = some t) :
    Ends (announce (getOrCreateTopic st name value properties).1 t.1) (fun r ↦ r.1.Informed)
      fun _ ↦ True := by
  have hlookup := lookup_getOrCreateTopic st name value properties
  rw [ht] at hlookup
  rcases getOrCreateTopic_spec st name value properties with ⟨-, hsame⟩ | ⟨hnew, -, hmade⟩
  · rw [hsame] at hlookup ⊢
    exact (hfollows hlookup).informed hst
  · rw [hmade] at hlookup ⊢
    refine (Ends.and (hfollows hlookup) (htold hlookup)).mono (fun r ⟨⟨hm, _⟩, htold⟩ ↦ ?_)
      fun _ _ ↦ trivial
    refine ⟨hm.keeps.self _ hst.self, fun guid name' hcached ↦ ?_⟩
    obtain rfl | hne := eq_or_ne name' name
    · exact htold guid
    · -- any other topic was there before
      obtain ⟨t', ht', hcached⟩ := hm.keeps.cached name' hcached
      rw [Instance.topics_setTopic, AList.lookup_insert_ne hne] at ht'
      have htold' : (st.setTopic name ⟨{ name, value, properties }, rfl⟩).ToldOf name' guid :=
        hst.clients guid name' ⟨t', ht', hcached⟩
      exact hm.keeps.toldOf htold'

/-- A meta topic is made and announced like any other. -/
theorem publishMetaTopic_informed (hst : st.Informed) (name : Str) :
    Ends (publishMetaTopic env st name) (fun r ↦ r.1.Informed) fun _ ↦ True := by
  unfold publishMetaTopic
  dsimp only
  split
  · next t ht =>
    exact announce_created_informed announceTopic_follows announceTopic_toldOf hst ht
  · trivial

/-- The two lists are made one after the other, and then written. -/
theorem publishMetaTopicsOf_informed (hst : st.Informed) (name : Str) :
    Ends (publishMetaTopicsOf env st name) (fun r ↦ r.1.Informed) fun _ ↦ True := by
  unfold publishMetaTopicsOf
  refine (publishMetaTopic_informed hst _).bind fun r₁ h₁ ↦ ?_
  split
  · refine (publishMetaTopic_informed h₁ _).bind fun r₂ h₂ ↦ ?_
    split
    · have hsub : Follows .quiet r₂.1 (updateTopicSubMetaTopic env r₂.1 name) id fun _ ↦ True :=
        updateTopicSubMetaTopic_follows (.inl trivial) trivial (.inl trivial)
      refine (hsub.informed h₂).bind fun st₃ h₃ ↦ ?_
      have hpub : Follows .quiet st₃ (updateTopicPubMetaTopic env st₃ name) id fun _ ↦ True :=
        updateTopicPubMetaTopic_follows (.inl trivial) trivial (.inl trivial)
      exact (hpub.informed h₃).bind fun st₄ h₄ ↦ h₄
    · exact h₂
  · exact h₁

/-- A topic is made and announced, and then its lists, if it is no meta topic. -/
theorem publishTopicWith_informed {name : Str} {value : NTDataValue} {properties : TopicProperties}
    {announce : Instance → Topic → Except Fault (Instance × Bool)}
    (hfollows : ∀ {st t}, st.topics.lookup name = some (some t) →
      Follows .quiet st (announce st t.1) Prod.fst (Announced env name st))
    (htold : ∀ {st : Instance} {t}, st.topics.lookup name = some (some t) →
      Ends (announce st t.1) (fun r ↦ ∀ guid, r.1.ToldOf name guid) fun _ ↦ True)
    (hst : st.Informed) :
    Ends (publishTopicWith env announce st name value properties) (fun r ↦ r.1.Informed)
      fun _ ↦ True := by
  unfold publishTopicWith
  dsimp only
  split
  · trivial
  · next t ht =>
    refine (announce_created_informed hfollows htold hst ht).bind fun r hr ↦ ?_
    split
    · split
      -- a meta topic gets no lists of its own
      · exact hr
      · exact publishMetaTopicsOf_informed hr name
    · exact hr

end

end NetworkTables
