import PicoRadio.NetworkTables.Operations

/-!
# The meta topics exist

Refreshing a meta topic asserts that it is there. The three records of the server are made at the
start, those of a client when it connects, and those of a topic together with the topic, unless the
topic is a meta topic itself. Refreshing is not as careful: a client that publishes a name which
starts with `$` has the list of its publishers refreshed.

`Instance.Complete` says which meta topics exist. It is kept by every operation that is covered:
`Operation.Covered` leaves out the publication of such a name, and the two ways a topic comes into
being without its meta topics.
-/

namespace NetworkTables

/-- The meta topics of everything there is. -/
structure Instance.Complete (st : Instance) : Prop where
  records : st.HasTopic clientsName ∧ st.HasTopic serverSubName ∧ st.HasTopic serverPubName
  topics : ∀ name ∈ st.topics, name.isMeta = false →
    st.HasTopic (topicSubName name) ∧ st.HasTopic (topicPubName name)
  clients : ∀ guid d, st.clients.lookup guid = some (.remote d) →
    st.HasTopic (clientSubName d.name) ∧ st.HasTopic (clientPubName d.name)
  published : st.Published

/-- There is a connection with this guid. -/
def Instance.Connected (st : Instance) (guid : Guid) : Prop :=
  ∃ d, st.clients.lookup guid = some (.remote d)

/-- If the topic is new and no meta topic, then the local client turns down neither its announcement
nor that of the list of its subscribers. -/
def Instance.Welcomes (env : Env) (st : Instance) (name : Str) : Prop :=
  name ∉ st.topics → name.isMeta = false →
    env.AcceptsTopic st.thisClient.subscriptions name ∧
      env.AcceptsTopic st.thisClient.subscriptions (topicSubName name)

/-- A message comes from a connection; a name that starts with `$` is published by a client only if
the list of its publishers exists; a topic that comes into being gets its meta topics. -/
def Operation.Covered (env : Env) (st : Instance) : Operation → Prop
  | message guid (.publish name _ _ _) => st.Connected guid ∧
    (name.isMeta → st.HasTopic (topicPubName name)) ∧ st.Welcomes env name
  | message guid (.unpublish pubuid) => st.Connected guid ∧
    ∀ d pub, st.Behind guid d → d.publishers.lookup pubuid = some (some pub) →
      pub.topic.isMeta → st.HasTopic (topicPubName pub.topic)
  | message guid (.subscribe _ _ _) | message guid (.unsubscribe _) => st.Connected guid
  | message _ (.setproperties name _ _ _) | setProperties name _ =>
    name.isMeta ∨ name ∈ st.topics
  | publish name _ _ _ => st.Welcomes env name
  | message _ .unknown | connect _ _ | disconnect _ | textEnd _ | valueUpdate _ _
  | subscribe _ _ _ | unsubscribe _ | unpublish _ | updateTopic _ _ _ | flush => True

section

variable {env : Env} {st : Instance} {op : Operation}

theorem Instance.Connected.behind {guid : Guid} (h : st.Connected guid) {d : ClientData}
    (hd : st.Behind guid d) : st.clients.lookup guid = some (.remote d) := by
  obtain ⟨d', hd'⟩ := h
  rcases hd with ⟨hself, -⟩ | hd
  · rw [hd'] at hself
    cases hself
  · exact hd

/-- The meta topics a covered operation refreshes are there or will be. -/
theorem Operation.Covered.ready (h : op.Covered env st) (hst : st.Complete) : op.Ready env st := by
  obtain ⟨hclients, hserverSub, hserverPub⟩ := hst.records
  have hclient {guid : Guid} (hguid : st.Connected guid) {d : ClientData} (hd : st.Behind guid d) :=
    hst.clients guid d (hguid.behind hd)
  have htopicSub (name : Str) (hname : name ∈ st.topics) (hnmeta : name.isMeta = false) :=
    (hst.topics name hname hnmeta).1
  cases op with
  | message guid m =>
    cases m with
    | subscribe | unsubscribe => exact ⟨fun d hd ↦ (hclient h hd).1, htopicSub⟩
    | publish name =>
      obtain ⟨hguid, hmeta, hwelcome⟩ := h
      refine ⟨fun d hd ↦ (hclient hguid hd).2, ?_⟩
      by_cases hname : name ∈ st.topics
      · cases hnmeta : name.isMeta with
        | true => exact .inl (hmeta hnmeta)
        | false => exact .inl (hst.topics name hname hnmeta).2
      · cases hnmeta : name.isMeta with
        | true => exact .inl (hmeta hnmeta)
        | false => exact .inr ⟨hname, rfl, hwelcome hname hnmeta⟩
    | unpublish pubuid =>
      obtain ⟨hguid, hmeta⟩ := h
      refine ⟨fun d hd ↦ (hclient hguid hd).2, fun d pub hd hpub ↦ ?_⟩
      cases hnmeta : pub.topic.isMeta with
      | true => exact hmeta d pub hd hpub hnmeta
      | false => exact (hst.topics _ (hst.published.of_behind (.inl hd) hpub) hnmeta).2
    | setproperties | unknown => trivial
  | connect | disconnect => exact hclients
  | subscribe | unsubscribe => exact hserverSub
  | publish | unpublish => exact hserverPub
  | textEnd | valueUpdate | setProperties | updateTopic | flush => trivial

theorem Operation.Covered.taken (h : op.Covered env st) (mutexFree : Bool) :
    op.Covered env { st with mutexFree } := by
  cases op with
  | message guid m => cases m <;> exact h
  | connect | disconnect | textEnd | valueUpdate | subscribe | unsubscribe | publish | unpublish
  | setProperties | updateTopic | flush => exact h

variable [FloatCodec]

/-- No meta topic is missing when it is looked up, and no topic is made but those the operation may
make. -/
def Allow.covered (op : Operation) : Allow :=
  { Allow.all with missing := False, creates := op.Creates }

omit [FloatCodec] in
theorem Operation.Covered.permitted (h : op.Covered env st) (hst : st.Complete) :
    op.Permitted (.covered op) env st where
  accepts := .inl trivial
  asks _ _ := trivial
  subscribes _ _ := trivial
  configures _ _ := trivial
  assigns _ _ := trivial
  creates _ := id
  known := .inl trivial
  published _ _ _ _ hd hpub := .inl (hst.published.of_behind hd hpub)
  numbered := .inl trivial
  ready := .inr ⟨h.ready hst, fun _ ↦ id⟩

/-- Moves keep the meta topics. What is left to show is that the topics that are new have theirs,
and the clients too. -/
theorem Moves.complete {K : Allow} {s s₀ : Instance} (hm : Moves K s₀ s) (hst : st.Complete)
    (htopics : s₀.topics = st.topics) (hpublished : s₀.Published)
    (hclients : ∀ guid d, s₀.clients.lookup guid = some (.remote d) →
      s.HasTopic (clientSubName d.name) ∧ s.HasTopic (clientPubName d.name))
    (hnew : ∀ name, name ∉ st.topics → K.creates name → name.isMeta = false →
      s.HasTopic (topicSubName name) ∧ s.HasTopic (topicPubName name)) : s.Complete := by
  have hkept {name : Str} (hname : st.HasTopic name) : s.HasTopic name := by
    refine hm.hasTopic ?_
    rwa [Instance.HasTopic, htopics]
  refine ⟨⟨hkept hst.records.1, hkept hst.records.2.1, hkept hst.records.2.2⟩, fun name hname
    hnmeta ↦ ?_, fun guid d hd ↦ ?_, hm.changes.published hpublished⟩
  · have hmade := hm.creates hname
    rw [htopics] at hmade
    by_cases hold : name ∈ st.topics
    · obtain ⟨hsub, hpub⟩ := hst.topics name hold hnmeta
      exact ⟨hkept hsub, hkept hpub⟩
    · exact hnew name hold (hmade.resolve_left hold) hnmeta
  · obtain ⟨d₀, hd₀, -, hname⟩ := hm.exists_remote hd
    rw [hname]
    exact hclients guid d₀ hd₀

/-- A covered operation fails no assertion on a meta topic and keeps the meta topics. -/
theorem Operation.Covered.run_ends (h : op.Covered env st) (hst : st.Complete)
    (henabled : op.Enabled st) :
    Ends (op.run env st) Instance.Complete (·.Admitted (.covered op) st) := by
  have hpermitted := h.permitted hst
  cases hclients : op.changesClients with
  | false =>
    refine Ends.imp (Operation.follows hclients henabled hpermitted) fun s hs ↦ ?_
    obtain ⟨hm, hachieves⟩ := hs
    refine hm.complete hst rfl hst.published (fun guid d hd ↦ ?_)
      fun name hname hcreates hnmeta ↦ ?_
    · obtain ⟨hsub, hpub⟩ := hst.clients guid d hd
      exact ⟨hm.hasTopic hsub, hm.hasTopic hpub⟩
    -- the only new topic is the one the operation names
    have hmeta (hmeta : name.isMeta) : False := by rw [hnmeta] at hmeta; cases hmeta
    cases op with
    | message guid m =>
      cases m with
      | publish name' =>
        obtain rfl := Or.resolve_left hcreates hmeta
        obtain ⟨hacc, hacc'⟩ := h.2.2 hname hnmeta
        exact hachieves hname hnmeta hacc hacc'
      | setproperties name' =>
        obtain rfl := Or.resolve_left hcreates hmeta
        exact (h.elim hmeta hname).elim
      | subscribe | unsubscribe | unpublish | unknown => exact (hmeta hcreates).elim
    | publish name' =>
      obtain rfl := Or.resolve_left hcreates hmeta
      obtain ⟨hacc, hacc'⟩ := h hname hnmeta
      exact hachieves hname hnmeta hacc hacc'
    | setProperties name' =>
      obtain rfl := Or.resolve_left hcreates hmeta
      exact (h.elim hmeta hname).elim
    | connect | disconnect => cases hclients
    | textEnd | valueUpdate | subscribe | unsubscribe | unpublish | updateTopic | flush =>
      exact (hmeta hcreates).elim
  | true =>
    have hready : (Allow.covered op).missing ∨ op.Ready env st := hpermitted.ready.imp_right (·.1)
    cases op with
    | connect entry name =>
      refine (handleConnect_ends (.inl trivial) trivial hready (fun _ hmeta ↦ hmeta) fun _ ↦
        ⟨trivial, trivial⟩).imp fun s hs ↦ ?_
      obtain ⟨n, hm, hsub, hpub, -⟩ := hs
      have hjoin : Change (.covered (.connect entry name)) st _ := .join entry.guid n
      refine hm.complete hst rfl (Changes.published (.single hjoin) hst.published)
        (fun guid d hd ↦ ?_) fun name' _ hcreates hnmeta ↦ ?_
      · rw [Instance.insertClient, AList.lookup_insert_ite] at hd
        split at hd
        · obtain rfl := ClientPtr.remote.inj (Option.some.inj hd)
          exact ⟨hsub, hpub⟩
        · obtain ⟨hsub, hpub⟩ := hst.clients guid d hd
          exact ⟨hm.hasTopic hsub, hm.hasTopic hpub⟩
      · exact absurd hcreates (by simp [Allow.covered, Operation.Creates, hnmeta])
    | disconnect guid =>
      refine (handleDisconnect_ends (.inl trivial) trivial hready henabled).imp fun s hs ↦ ?_
      obtain ⟨_, hm⟩ := hs
      have hleave : Change (.covered (.disconnect guid)) st _ := .leave guid
      refine hm.complete hst rfl (Changes.published (.single hleave) hst.published)
        (fun guid' d hd ↦ ?_) fun name' _ hcreates hnmeta ↦ ?_
      · rw [Instance.eraseClient, AList.lookup_erase_ite] at hd
        split at hd
        · cases hd
        · obtain ⟨hsub, hpub⟩ := hst.clients guid' d hd
          exact ⟨hm.hasTopic hsub, hm.hasTopic hpub⟩
      · exact absurd hcreates (by simp [Allow.covered, Operation.Creates, hnmeta])
    | message | textEnd | valueUpdate | subscribe | unsubscribe | publish | unpublish
    | setProperties | updateTopic | flush => cases hclients

/-- Starting the server makes its records, and no topic that is not a meta topic. -/
theorem startServer_complete (start : Env) :
    Ends (startServer start) Instance.Complete fun e ↦ ∀ name, e ≠ .metaTopicNull name := by
  let K : Allow := { Allow.all with missing := False, creates := fun name ↦ name.isMeta }
  have hstart : Follows K .initial (startServer start) id _ :=
    startServer_follows (.inl trivial) (fun _ ↦ trivial) fun _ hmeta ↦ hmeta
  refine hstart.mono (fun s ⟨hm, hrecords⟩ ↦ ?_) fun e he name heq ↦ ?_
  · have hm : Moves K .initial s := hm
    refine ⟨hrecords, fun name hname hnmeta ↦ ?_, fun guid d hd ↦ ?_,
      hm.changes.published Instance.initial_published⟩
    · have hmeta : name.isMeta := (hm.creates hname).resolve_left (AList.notMem_empty _)
      rw [hmeta] at hnmeta
      cases hnmeta
    · obtain ⟨d₀, hd₀, -⟩ := hm.exists_remote hd
      rw [Instance.initial, AList.lookup_insert_ite] at hd₀
      split at hd₀ <;> cases hd₀
  · rw [heq] at he
    exact he

theorem complete_of_covered {start : Env} {events : List (Env × Event)}
    (hcovered : ∀ st, startServer start = .ok st →
      Guarded step (Event.Meets fun env st op ↦ op.Covered env st) st events) :
    Ends (run start events) Instance.Complete fun e ↦ ∀ name, e ≠ .metaTopicNull name := by
  have hidle (st st' : Instance) (ht : st'.topics = st.topics) (hc : st'.clients = st.clients)
      (hs : st'.thisClient = st.thisClient) (hst : st.Complete) : st'.Complete := by
    obtain ⟨hrecords, htopics, hclients, hpublished⟩ := hst
    unfold Instance.Published Instance.AllClients at hpublished
    refine ⟨?_, ?_, ?_, ?_⟩
    · unfold Instance.HasTopic at *
      rwa [ht]
    · unfold Instance.HasTopic at *
      rwa [ht]
    · unfold Instance.HasTopic at *
      rwa [ht, hc]
    · unfold Instance.Published Instance.AllClients
      rwa [ht, hc, hs]
  refine run_ends hidle (fun env st op hI henabled hG ↦ ?_) (by simp) (startServer_complete start)
    hcovered
  refine ((hG.taken false).run_ends (hidle st _ rfl rfl rfl hI) (henabled.taken false)).mono
    (fun _ ↦ id) fun e he name heq ↦ ?_
  rw [heq] at he
  exact he

/-- In a run of covered operations no assertion that a meta topic is there fails, and the meta
topics are there in every state reached. -/
theorem run_complete (start : Env) (events : List (Env × Event))
    (hcovered : ∀ st, startServer start = .ok st →
      Guarded step (Event.Meets fun env st op ↦ op.Covered env st) st events) :
    Ends (run start events) Instance.Complete fun e ↦ ∀ name, e ≠ .metaTopicNull name :=
  complete_of_covered hcovered

end

set_option maxRecDepth 4000 in
/-- A client connects and publishes a topic. -/
theorem run_complete_sample :
    Ends (@run .fractional {} [({}, .connect (.sample 1 "a")),
        ({}, .text 1 [.publish (ascii "/x") 2 .int {}])])
      Instance.Complete fun e ↦ ∀ name, e ≠ .metaTopicNull name := by
  refine @run_complete .fractional _ _ fun st hst ↦ ⟨fun _ _ _ _ ↦ trivial, fun s hs ↦ ?_⟩
  have hconnected : Ends (@run .fractional {} [({}, .connect (.sample 1 "a"))])
      (fun s ↦ (s.remote 1).isSome) fun _ ↦ False := by
    decide +kernel
  have hsome := hconnected.of_ok (@run_singleton .fractional _ _ _ _ hst hs)
  obtain ⟨d, hd⟩ := Option.isSome_iff_exists.1 hsome
  have haccepts (subscriptions) (name : Str) : Env.AcceptsTopic {} subscriptions name := by
    rintro - callback hcallback
    cases hcallback
  refine ⟨fun _ _ ↦ ⟨⟨⟨d, Instance.remote_eq_some.1 hd⟩, fun hmeta ↦ ?_, fun _ _ ↦
    ⟨haccepts _ _, haccepts _ _⟩⟩, fun _ _ ↦ ⟨trivial, fun _ _ ↦ trivial⟩⟩, fun _ _ ↦ trivial⟩
  exact absurd hmeta (by decide)

/-- A client publishes a name that starts with `$`. -/
theorem publish_meta_asserts :
    ¬∀ (codec : FloatCodec) (start : Env) (events : List (Env × Event)),
      Ends (@run codec start events) (fun _ ↦ True) fun e ↦ ∀ name, e ≠ .metaTopicNull name := by
  intro h
  have hnull : Ends (@run .fractional {} [({}, .connect (.sample 1 "a")),
      ({}, .text 1 [.publish (ascii "$x") 2 .int {}])])
      (fun _ ↦ False) (· = .metaTopicNull (ascii "$pub$$x")) := by
    decide +kernel
  exact (h .fractional {} _).incompatible hnull (fun _ _ ↦ id) fun e he heq ↦ he _ heq

end NetworkTables
