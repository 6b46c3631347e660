import PicoRadio.NetworkTables.NullPointers

/-!
# Who is sent a value

When the value of a topic is updated, by a client or by the local client, the update is sent once to
each client that receives it (`ClientData.Receives`): the client was announced the topic, and it
either got a value of it before or holds a subscription that asks for values. To have got a value
is enough: a client that gave its subscription up goes on being sent the values.

The clients are visited one after the other, and the local client is one of them. If its callback
turns the value down, the clients behind it are not reached.

An update that is not sent ends in a fault, for one of two reasons: the value is not valid, or the
broadcast follows a null pointer.

## One broadcast

A broadcast visits every pointer of the map once, in an order that is a parameter. What a client is
sent depends on its own data alone, so the order matters only for who is visited before the local
client. The result is therefore stated for the clients that were reached, and these are all of them
if the callback accepts the value.
-/

namespace NetworkTables

section

variable [FloatCodec] {env : Env} {st : Instance} {name : Str}

/-- The operation gives a topic that exists a new value. -/
def Operation.Updates (st : Instance) (name : Str) : Operation → Prop
  | valueUpdate guid m => st.HasTopic name ∧
    ∃ d pub, st.Behind guid d ∧ d.publishers.lookup m.id.toInt32 = some (some pub) ∧
      pub.topic = name
  | updateTopic id _ _ => st.HasTopic name ∧
    ∃ pub, st.thisClient.publishers.lookup id = some (some pub) ∧ pub.topic = name
  | connect _ _ | disconnect _ | message _ _ | textEnd _ | subscribe _ _ _ | unsubscribe _
  | publish _ _ _ _ | unpublish _ | setProperties _ _ | flush => False

/-- Exactly the clients with a connection that `R` picks are sent an update of the topic: one, under
their own id for the topic, with the value the topic has then. -/
def SendsTo (R : Guid → ClientData → Prop) (name : Str) (st s : Instance) : Prop :=
  ∃ t, s.topics.lookup name = some (some t) ∧
    ∀ guid d, st.clients.lookup guid = some (.remote d) →
      ∃ d', s.clients.lookup guid = some (.remote d') ∧
        (R guid d → ∃ u : ValueUpdate, d'.updates = d.updates ++ [u] ∧ u.id = d.topicId name ∧
          u.type = t.1.value.getAPIType ∧ u.value = t.1.value.pack) ∧
        (¬R guid d → d'.updates = d.updates)

/-- The clients that were reached, all of them if the local client's callback accepts values, are
sent the update if they receive it. -/
def SendsToReceivers (env : Env) (name : Str) (st s : Instance) : Prop :=
  ∃ reached : Guid → Prop, (env.Accepts → ∀ guid, reached guid) ∧
    SendsTo (fun guid d ↦ reached guid ∧ d.Receives name) name st s

/-- A broadcast of a topic, after its value was set. -/
theorem Broadcast.sendsTo {K : Allow} {t : TopicAt name} {time : UInt64} {complete : Prop}
    {s : Instance} (h : Broadcast K t.1 time complete (st.setTopic name t) s)
    (haccepts : env.Accepts → complete) : SendsToReceivers env name st s := by
  refine ⟨fun guid ↦ complete ∨ s.clients.lookup guid ≠ st.clients.lookup guid,
    fun hacc _ ↦ .inl (haccepts hacc), t, ?_, fun guid d hd ↦ ?_⟩
  · rw [h.frame]
    exact AList.lookup_insert _
  have hremote := h.remote guid d hd
  rw [t.2] at hremote
  rcases hremote with ⟨hr, hd'⟩ | ⟨hr, hd'⟩
  · have hupdates := ClientData.updates_sendTopicUpdate d t.1 time
    have hreached : s.clients.lookup guid ≠ st.clients.lookup guid := by
      rw [hd', hd]
      intro heq
      rw [ClientPtr.remote.inj (Option.some.inj heq)] at hupdates
      simp at hupdates
    refine ⟨_, hd', fun _ ↦ ⟨d.topicUpdate t.1 time, hupdates, ?_, rfl, rfl⟩, fun hnot ↦ ?_⟩
    · exact congrArg d.topicId t.2
    · exact absurd ⟨.inr hreached, hr⟩ hnot
  · refine ⟨d, hd', fun ⟨hreached, hr'⟩ ↦ ?_, fun _ ↦ rfl⟩
    rcases hreached with hcomplete | hchanged
    · exact absurd hr' (hr hcomplete)
    · exact absurd (hd'.trans hd.symm) hchanged

/-! ### The faults of an update -/

omit [FloatCodec] in
/-- The pointers that a broadcast follows are good ones: those of the clients and those of their
subscriptions. -/
def Instance.Followed (st : Instance) : Prop :=
  (∀ guid, st.clients.lookup guid ≠ some .null) ∧
    st.AllClients fun _ _ d ↦ ∀ uid, d.subscriptions.lookup uid ≠ some none

omit [FloatCodec] in
theorem Instance.Rooted.followed (h : st.Rooted) : st.Followed :=
  ⟨h.clients, fun guid d hd ↦ (h.data.1 guid d hd).subscriptions, h.data.2.subscriptions⟩

/-- The value that the operation brings is valid. -/
def Operation.Valid : Operation → Prop
  | valueUpdate _ m => m.data.isValid
  | updateTopic _ value _ => value.isValid
  | connect _ _ | disconnect _ | message _ _ | textEnd _ | subscribe _ _ _ | unsubscribe _
  | publish _ _ _ _ | unpublish _ | setProperties _ _ | flush => True

/-- A null pointer is followed, and so there is one, or `assert(other.isValid())` fails, and so the
value is not valid. -/
def Fault.OfUpdate (st : Instance) (valid : Prop) (e : Fault) : Prop :=
  e.isNull = true ∧ ¬st.Followed ∨ e = .invalidValue ∧ ¬valid

namespace Instance.Followed

omit [FloatCodec] in
theorem behind (h : st.Followed) {guid : Guid} {d : ClientData} (hd : st.Behind guid d)
    (uid : Int32) : d.subscriptions.lookup uid ≠ some none := by
  rcases hd with ⟨-, rfl⟩ | hd
  · exact h.2.2 uid
  · exact h.2.1 guid d hd uid

omit [FloatCodec] in
/-- A client is told something. -/
theorem setClient (h : st.Followed) {guid : Guid} {d d' : ClientData} (hd : st.Behind guid d)
    (hinfo : d'.toClientInfo = d.toClientInfo) : (st.setClient guid d').Followed := by
  have hsubs (uid : Int32) : d'.subscriptions.lookup uid ≠ some none := by
    rw [hinfo]
    exact h.behind hd uid
  rcases hd with ⟨hself, -⟩ | hd
  · rw [Instance.setClient_of_self hself]
    exact ⟨h.1, h.2.1, hsubs⟩
  · rw [Instance.setClient_of_remote hd]
    refine ⟨fun guid' ↦ ?_, fun guid' d₁ hd₁ ↦ ?_, h.2.2⟩
    · rw [AList.lookup_insert_ite]
      split
      · exact fun hnull ↦ by cases hnull
      · exact h.1 guid'
    · rw [AList.lookup_insert_ite] at hd₁
      split at hd₁
      · obtain rfl := ClientPtr.remote.inj (Option.some.inj hd₁)
        exact hsubs
      · exact h.2.1 guid' d₁ hd₁

end Instance.Followed

omit [FloatCodec] in
/-- What a loop over the clients keeps. -/
structure Instance.StillFollowed (st s : Instance) : Prop where
  followed : st.Followed → s.Followed
  mem : ∀ guid ∈ st.clients, guid ∈ s.clients

omit [FloatCodec] in
theorem Instance.StillFollowed.trans {s s' : Instance} (h : st.StillFollowed s)
    (h' : s.StillFollowed s') : st.StillFollowed s' :=
  ⟨h'.followed ∘ h.followed, fun guid hguid ↦ h'.mem guid (h.mem guid hguid)⟩

omit [FloatCodec] in
/-- A client is told something. -/
theorem Instance.Behind.stillFollowed {guid : Guid} {d d' : ClientData} (hd : st.Behind guid d)
    (hinfo : d'.toClientInfo = d.toClientInfo) : st.StillFollowed (st.setClient guid d') := by
  refine ⟨fun h ↦ h.setClient hd hinfo, fun guid' hguid' ↦ ?_⟩
  rcases hd with ⟨hself, -⟩ | hd
  · rwa [Instance.setClient_of_self hself]
  · rw [Instance.setClient_of_remote hd]
    exact (AList.mem_insert _).2 (.inr hguid')

omit [FloatCodec] in
theorem Fault.OfUpdate.before {s : Instance} {valid : Prop} {e : Fault} (he : e.OfUpdate s valid)
    (h : st.StillFollowed s) : e.OfUpdate st valid :=
  he.imp_left fun ⟨hnull, hnot⟩ ↦ ⟨hnull, hnot ∘ h.followed⟩

omit [FloatCodec] in
/-- The pointer of a client is followed. -/
theorem Instance.client_faults {guid : Guid} (hguid : guid ∈ st.clients) {fault : Fault}
    (hfault : fault.isNull = true) (valid : Prop) :
    Ends (st.client guid fault) (st.Behind guid) (Fault.OfUpdate st valid) := by
  refine (st.client_ends guid fault).mono (fun _ ↦ id) ?_
  rintro e ⟨rfl, hnull | hnone⟩
  · exact .inl ⟨hfault, fun h ↦ h.1 guid hnull⟩
  · exact absurd hguid (AList.lookup_eq_none.1 hnone)

theorem sendTopicUpdateBody_faults {topic : Topic} {time : UInt64} {guid : Guid}
    (hguid : guid ∈ st.clients) :
    Ends (sendTopicUpdateBody env topic time st guid) (fun r ↦ st.StillFollowed r.1)
      (Fault.OfUpdate st topic.value.isValid) := by
  have hsame : st.StillFollowed st := ⟨id, fun _ ↦ id⟩
  unfold sendTopicUpdateBody
  refine (Instance.client_faults hguid rfl _).bind fun d hd ↦ ?_
  split
  · exact hsame
  · next data hdata =>
    refine ((receives_ends hdata).mono (fun _ ↦ id) ?_).bind fun send _ ↦ ?_
    · rintro e ⟨rfl, uid, huid⟩
      exact .inl ⟨rfl, fun h ↦ h.behind hd uid huid⟩
    split
    · split
      · unfold sendTopicUpdateSelf
        split
        · exact hsame
        · dsimp only
          split
          · exact ⟨id, fun _ ↦ id⟩
          · next hinvalid => exact .inr ⟨rfl, hinvalid⟩
      · exact hd.stillFollowed (d.toClientInfo_sendTopicUpdate topic time)
    · exact hsame

theorem sendTopicUpdate_faults (topic : Topic) (time : UInt64) :
    Ends (sendTopicUpdate env st topic time) (fun r ↦ st.StillFollowed r.1)
      (Fault.OfUpdate st topic.value.isValid) := by
  refine (Ends.foldUntil_visited (I := fun _ s ↦ st.StillFollowed s) (A := False)
    (fun done guid rest hl s hs ↦ ?_) ⟨id, fun _ ↦ id⟩).imp fun r ⟨⟨_, hr, _⟩, _⟩ ↦ hr
  have hguid : guid ∈ st.clients := by
    rw [← env.guids.mem_keys, hl]
    exact List.mem_append.2 (.inr List.mem_cons_self)
  exact (sendTopicUpdateBody_faults (hs.mem guid hguid)).mono
    (fun r hr ↦ ⟨hs.trans hr, False.elim⟩) fun e he ↦ he.before hs

omit [FloatCodec] in
/-- Flushing follows the pointers of the clients. -/
theorem flushBinary_faults (valid : Prop) :
    Ends (flushBinary env st) (fun _ ↦ True) (Fault.OfUpdate st valid) := by
  rw [flushBinary, flushAll]
  refine (Ends.foldlM (I := st.StillFollowed) (fun guid hguid s hs ↦ ?_) ⟨id, fun _ ↦ id⟩).imp
    fun _ _ ↦ trivial
  split
  · exact hs
  · have hmem := hs.mem guid ((env.guids.mem_keys).1 hguid)
    refine ((Instance.client_faults hmem rfl valid).mono (fun _ ↦ id)
      fun e he ↦ he.before hs).bind fun d hd ↦ ?_
    exact hs.trans (hd.stillFollowed (d.toClientInfo_flushBinary _))

theorem updatePublished_faults {pub : Publisher} {value : NTDataValue} {time : Instance → UInt64} :
    Ends (updatePublished env pub value time st)
      (fun s ↦ st.HasTopic pub.topic → st.StillFollowed s)
      (Fault.OfUpdate st value.isValid) := by
  rw [updatePublished]
  split
  · next t ht =>
    split
    · next hvalid =>
      have hassigned : (t.1.value.assign value).isValid := NTDataValue.isValid_assign hvalid
      refine Ends.map
        ((sendTopicUpdate_faults _ _).mono (fun r hr _ ↦ ⟨fun h ↦ hr.followed h, hr.mem⟩)
        fun e he ↦ ?_)
      exact he.imp (fun ⟨hnull, hnot⟩ ↦ ⟨hnull, fun h ↦ hnot h⟩)
        fun ⟨_, hnot⟩ ↦ absurd hassigned hnot
    · next hinvalid => exact .inr ⟨rfl, hinvalid⟩
  · exact fun _ ↦ ⟨id, fun _ ↦ id⟩
  · next hnone =>
    rintro ⟨t, ht⟩
    rw [hnone] at ht
    cases ht

/-- What an update can fail for. -/
theorem Operation.Updates.faults {op : Operation} (h : op.Updates st name) :
    Ends (op.run env st) (fun _ ↦ True) (Fault.OfUpdate st op.Valid) := by
  cases op with
  | valueUpdate guid m =>
    obtain ⟨hname, d, pub, hd, hpub, rfl⟩ := h
    show Ends (handleValue env guid m st) _ _
    rw [handleValue, hd.client]
    show Ends (updateOf env guid d m st >>= _) _ _
    rw [updateOf, hpub]
    exact updatePublished_faults.bind fun s hs ↦ (flushBinary_faults _).mono (fun _ ↦ id)
      fun e he ↦ he.before (hs hname)
  | updateTopic id value time =>
    obtain ⟨hname, pub, hpub, rfl⟩ := h
    show Ends (localUpdateTopic env id value time st) _ _
    rw [localUpdateTopic, hpub]
    exact updatePublished_faults.imp fun _ _ ↦ trivial
  | connect | disconnect | message | textEnd | subscribe | unsubscribe | publish | unpublish
  | setProperties | flush => exact h.elim

/-! ### The receivers -/

/-- What is sent afterwards is no update. -/
theorem SendsToReceivers.after {s s' : Instance} (h : SendsToReceivers env name st s)
    (htopics : s'.topics = s.topics)
    (hclients : ∀ guid d, s.clients.lookup guid = some (.remote d) →
      ∃ d', s'.clients.lookup guid = some (.remote d') ∧ d'.updates = d.updates) :
    SendsToReceivers env name st s' := by
  obtain ⟨reached, hreached, t, ht, hsent⟩ := h
  refine ⟨reached, hreached, t, by rw [htopics, ht], fun guid d hd ↦ ?_⟩
  obtain ⟨d₁, hd₁, hyes, hno⟩ := hsent guid d hd
  obtain ⟨d₂, hd₂, hsame⟩ := hclients guid d₁ hd₁
  exact ⟨d₂, hd₂, fun hR ↦ by rw [hsame]; exact hyes hR, fun hR ↦ by rw [hsame]; exact hno hR⟩

/-- Flushing sends no new update. -/
theorem flushBinary_sends {s : Instance} (h : SendsToReceivers env name st s) :
    Ends (flushBinary env s) (SendsToReceivers env name st) fun _ ↦ True := by
  rw [flushBinary, flushAll]
  refine Ends.foldlM (fun guid _ s hs ↦ ?_) h
  split
  · exact hs
  · refine ((s.client_ends guid .nullDeref).mono (fun _ ↦ id) fun _ _ ↦ trivial).bind fun d hd ↦ ?_
    refine hs.after (Instance.topics_setClient _ _ _) fun guid' d' hd' ↦ ?_
    rcases hd with ⟨hself, rfl⟩ | hd
    · rw [Instance.setClient_of_self hself]
      exact ⟨d', hd', rfl⟩
    · rw [Instance.setClient_of_remote hd, AList.lookup_insert_ite]
      split
      · next heq =>
        rw [heq, hd] at hd'
        cases hd'
        exact ⟨_, rfl, ClientData.updates_flushBinary d _⟩
      · exact ⟨d', hd', rfl⟩

/-- Setting the value of a topic and broadcasting it. -/
theorem setTopic_sends (t : TopicAt name) (time : UInt64) :
    Ends (Prod.fst <$> sendTopicUpdate env (st.setTopic name t) t.1 time)
      (SendsToReceivers env name st) fun _ ↦ True :=
  Ends.map ((sendTopicUpdate_ends (K := .all) t.1 time).mono (fun _ hr ↦ hr.1.sendsTo hr.2)
    fun _ _ ↦ trivial)

theorem updatePublished_sends {pub : Publisher} {value : NTDataValue} {time : Instance → UInt64}
    (hname : st.HasTopic pub.topic) :
    Ends (updatePublished env pub value time st) (SendsToReceivers env pub.topic st)
      fun _ ↦ True := by
  obtain ⟨t, ht⟩ := hname
  rw [updatePublished, ht]
  dsimp only
  split
  · exact setTopic_sends _ _
  · trivial

theorem Operation.Updates.sendsToReceivers {op : Operation} (h : op.Updates st name) :
    Ends (op.run env st) (SendsToReceivers env name st) fun _ ↦ True := by
  cases op with
  | valueUpdate guid m =>
    obtain ⟨hname, d, pub, hd, hpub, rfl⟩ := h
    show Ends (handleValue env guid m st) _ _
    rw [handleValue, hd.client]
    show Ends (updateOf env guid d m st >>= _) _ _
    rw [updateOf, hpub]
    exact (updatePublished_sends hname).bind fun s hs ↦ flushBinary_sends hs
  | updateTopic id value time =>
    obtain ⟨hname, pub, hpub, rfl⟩ := h
    show Ends (localUpdateTopic env id value time st) _ _
    rw [localUpdateTopic, hpub]
    exact updatePublished_sends hname
  | connect | disconnect | message | textEnd | subscribe | unsubscribe | publish | unpublish
  | setProperties | flush => exact h.elim

/-- In whatever state the server is, an update of a topic is sent once to each client that receives
it, and to no other. It fails only if its value is not valid, or for a null pointer that the
broadcast follows. -/
theorem Operation.sends {op : Operation} (h : op.Updates st name) :
    Ends (op.run env st) (SendsToReceivers env name st) (Fault.OfUpdate st op.Valid) :=
  (h.sendsToReceivers.and h.faults).mono (fun _ ↦ And.left) fun _ ↦ And.right

end

/-- The start of the example runs: a client subscribes to a topic, which the local client
publishes. -/
def subscribedSample : List (Env × Event) :=
  [({}, .connect (.sample 1 "a")), ({}, .text 1 [.subscribe [ascii "/x"] 1 .DEFAULT]),
    ({}, .publish (ascii "/x") 2 .int {})]

theorem subscribedSample_followed :
    Ends (@run .fractional {} subscribedSample) Instance.Followed fun _ ↦ True := by
  refine (@run_rooted .fractional _ _ fun st _ ↦
    Guarded.of_forall_mem (fun e he s hfree ↦ ?_) st).mono
    (fun _ h ↦ h.followed) fun _ _ ↦ trivial
  simp only [subscribedSample, List.mem_cons, List.not_mem_nil, or_false] at he
  rcases he with rfl | rfl | rfl
  · exact fun _ _ _ ↦ trivial
  · refine fun _ ↦ Guarded.of_forall_mem (fun op hop _ ↦ ?_) s
    simp only [List.map_cons, List.map_nil, List.cons_append, List.nil_append, List.mem_cons,
      List.not_mem_nil, or_false] at hop
    rcases hop with rfl | rfl <;> trivial
  · trivial

set_option maxRecDepth 4000 in
/-- The local client updates the topic it published, and nothing fails. -/
theorem sends_sample :
    Ends (@run .fractional {} subscribedSample)
      (fun st ↦
        Ends (@Operation.run .fractional {} (.updateTopic 2 { type := .int, bits := 5 } 0) st)
        (@SendsToReceivers .fractional {} (ascii "/x") st) fun _ ↦ False)
      fun _ ↦ False := by
  have hupdates : Ends (@run .fractional {} subscribedSample)
      (fun st ↦ st.HasTopic (ascii "/x") ∧
        st.thisClient.publishers.lookup 2 = some (some ⟨2, ascii "/x"⟩)) fun _ ↦ False := by
    decide +kernel
  refine (hupdates.and subscribedSample_followed).mono (fun st ⟨⟨hname, hpub⟩, hst⟩ ↦ ?_)
    fun _ ↦ And.left
  have hop : Operation.Updates st (ascii "/x") (.updateTopic 2 { type := .int, bits := 5 } 0) :=
    ⟨hname, _, hpub, rfl⟩
  refine (@Operation.sends .fractional {} _ _ _ hop).mono (fun _ ↦ id) ?_
  rintro e (⟨-, hnot⟩ | ⟨-, hinvalid⟩)
  · exact hnot hst
  · exact hinvalid rfl

set_option maxRecDepth 4000 in
/-- A client that got a value and then gave up its only subscription is sent the next value. -/
theorem unsubscribed_receives :
    ¬∀ (codec : FloatCodec) (start : Env) (events : List (Env × Event)) (env : Env)
      (op : Operation) (name : Str), env.Accepts → Ends (@run codec start events)
        (fun st ↦ op.Updates st name → Ends (@Operation.run codec env op st)
          (@SendsTo codec (fun _ d ↦ name ∈ d.topicData ∧
            ∃ uid sub, d.subscriptions.lookup uid = some (some sub) ∧ sub.covers name true) name st)
          fun _ ↦ True)
        fun _ ↦ True := by
  intro h
  have hsent : Ends (@run .fractional {} (subscribedSample ++
        [(({} : Env), .updateTopic 2 { type := .int, bits := 5 } none),
          ({}, .text 1 [.unsubscribe 1])]))
      (fun st ↦ st.HasTopic (ascii "/x") ∧
        st.thisClient.publishers.lookup 2 = some (some ⟨2, ascii "/x"⟩) ∧
        (st.remote 1).any (fun d ↦ d.subscriptions.keys = [] ∧ d.updates.length = 1) ∧
        Ends (@Operation.run .fractional {} (.updateTopic 2 { type := .int, bits := 6 } 0) st)
          (fun s ↦ (s.remote 1).any fun d ↦ d.updates.length = 2) fun _ ↦ False)
      fun _ ↦ False := by
    decide +kernel
  refine (h .fractional {} _ {} (.updateTopic 2 { type := .int, bits := 6 } 0)
    (ascii "/x") ?_).incompatible
    hsent (fun st hst ⟨hname, hpub, hbefore, hafter⟩ ↦ ?_) fun _ _ ↦ id
  · rintro callback hcallback
    cases hcallback
  · refine (hst ⟨hname, _, hpub, rfl⟩).incompatible hafter (fun s ⟨t, _, hs⟩ hs' ↦ ?_) fun _ _ ↦ id
    obtain ⟨d, hd, hbefore⟩ := (Option.any_eq_true _ _).1 hbefore
    obtain ⟨hsubs, hlength⟩ := of_decide_eq_true hbefore
    obtain ⟨d', hd', -, hno⟩ := hs 1 d (Instance.remote_eq_some.1 hd)
    rw [Instance.remote_eq_some.2 hd'] at hs'
    have hlength' : d'.updates.length = 2 := by simpa using hs'
    rw [hno] at hlength'
    · omega
    · rintro ⟨-, uid, sub, huid, -⟩
      have hmem := AList.mem_keys.1 (AList.mem_of_lookup huid)
      rw [hsubs] at hmem
      cases hmem

end NetworkTables
