import PicoRadio.NetworkTables.BrokerRuns
import PicoRadio.NetworkTables.SilentPrograms
import PicoRadio.NetworkTables.TopicConsistency
import PicoRadio.NetworkTables.ValueAgreement

/-!
# No value is lost, and none is sent twice

What a client is sent of a topic is a feed of the broker (`PubSub.Broker.Feed`): nothing at first,
then the value that the topic has at some time, and from then on every value it takes, once each
and in order. This holds of every client in every run, whoever puts the values and whatever comes
between them, as long as the local client's callback does not stop a broadcast (`run_received`).

The invariant speaks of the requests so far, so it is one for `Kept`. An operation that puts no
value is silent, or it sends first values (`Instance.TellsFirst`). One that puts a value sends it to
everybody who has been sent one before.

## What counts as sent

A value counts as sent when it is put into the client's binary cache. Whether the frame that carries
a cache reaches the client is a question of the socket and not asked here.
-/

namespace NetworkTables

section

variable {st s s' : Instance} {guid : Guid} {d d' : ClientData} {name : Str} {rs : List Request}

/-- Whoever is behind a pointer is fed. -/
theorem Instance.Fed.behind (h : st.Fed) (hd : st.Behind guid d) : d.Fed := by
  rcases hd with ⟨-, rfl⟩ | hd
  · exact h.2
  · exact h.1 guid d hd

/-- One client's data changes, and it is fed afterwards. -/
theorem Instance.Fed.setClient (h : st.Fed) (hd : st.Behind guid d) (hd' : d'.Fed) :
    (st.setClient guid d').Fed := by
  rcases hd with ⟨hself, -⟩ | hd
  · rw [Instance.setClient_of_self hself]
    exact ⟨h.1, hd'⟩
  · rw [Instance.setClient_of_remote hd]
    refine ⟨fun guid' d'' hd'' ↦ ?_, h.2⟩
    rw [AList.lookup_insert_ite] at hd''
    split at hd''
    · cases hd''
      exact hd'
    · exact h.1 guid' d'' hd''

variable [FloatCodec] {env : Env}

/-! ### First values -/

/-- A client that has been sent no value of a topic may be sent the present one. -/
structure Instance.TellsFirst (st s : Instance) : Prop where
  topics : s.topicOf = st.topicOf
  received : ∀ guid name, s.received guid name = st.received guid name ∨
    st.received guid name = [] ∧
      ∃ t, s.topicOf name = some t ∧ s.received guid name = [t.value.sent]

namespace Instance.TellsFirst

/-- Nobody is sent anything. -/
theorem of_eq (htopics : s.topicOf = st.topicOf) (hreceived : s.received = st.received) :
    st.TellsFirst s :=
  ⟨htopics, fun guid name ↦ .inl (by rw [hreceived])⟩

/-- Nothing happens. -/
theorem refl (st : Instance) : st.TellsFirst st :=
  .of_eq rfl rfl

theorem trans (h : st.TellsFirst s) (h' : s.TellsFirst s') : st.TellsFirst s' := by
  refine ⟨h'.topics.trans h.topics, fun guid name ↦ ?_⟩
  rcases h'.received guid name with hsame' | ⟨hnone, hfirst'⟩
  · rcases h.received guid name with hsame | ⟨hnone, t, ht, hfirst⟩
    · exact .inl (hsame'.trans hsame)
    · exact .inr ⟨hnone, t, by rw [h'.topics, ht], hsame'.trans hfirst⟩
  · rcases h.received guid name with hsame | ⟨-, t, -, hfirst⟩
    · exact .inr ⟨hsame.symm.trans hnone, hfirst'⟩
    · rw [hfirst] at hnone
      cases hnone

/-- A client is sent the present value of a topic, the first. -/
theorem send (hfed : d.Fed) (hd : st.Behind guid d) (hnew : d.published name = false)
    {t : TopicAt name} (ht : st.topics.lookup name = some (some t)) (time : UInt64) :
    st.TellsFirst (st.setClient guid (d.sendTopicUpdate t.1 time)) := by
  have hnone : d.received name = [] := by
    have hempty := hfed name
    rw [hnew] at hempty
    cases hreceived : d.received name with
    | nil => rfl
    | cons => rw [hreceived] at hempty; cases hempty
  have htopics : (st.setClient guid (d.sendTopicUpdate t.1 time)).topicOf = st.topicOf :=
    funext (topicOf_congr (st.topics_setClient guid _))
  refine ⟨htopics, fun guid' name' ↦ ?_⟩
  rcases hd with ⟨hself, -⟩ | hd
  · rw [Instance.setClient_of_self hself]
    exact .inl (congrFun (congrFun (received_eq rfl) guid') name')
  rw [htopics, Instance.setClient_of_remote hd]
  obtain rfl | hne := eq_or_ne guid' guid
  · cases hmeta : name'.isMeta with
    | true => exact .inl ((received_of_isMeta hmeta).trans (received_of_isMeta hmeta).symm)
    | false =>
      rw [received_of_remote hd hmeta, received_of_remote (AList.lookup_insert _) hmeta,
        ClientData.received_sendTopicUpdate, t.2]
      obtain rfl | hne := eq_or_ne name name'
      · refine .inr ⟨hnone, ⟨t.1.value, t.1.properties⟩, ?_, ?_⟩
        · rw [Instance.topicOf, if_neg (by simp [hmeta]), ht]
          rfl
        · rw [hnone, if_pos rfl, List.nil_append]
      · rw [if_neg hne, List.append_nil]
        exact .inl rfl
  · exact .inl (received_congr (AList.lookup_insert_ne hne) name')

end Instance.TellsFirst

/-- A topic that counts as sent is passed over, so each value that is sent here is the first. -/
theorem publishInitialValues_first (hst : st.Fed) :
    Ends (publishInitialValues env st guid) st.TellsFirst fun _ ↦ True := by
  rw [publishInitialValues]
  refine Ends.bind_any fun _ ↦ ?_
  refine Ends.imp (Ends.foldlM (I := fun s ↦ st.TellsFirst s ∧ s.Fed) (fun name _ s hs ↦ ?_)
    ⟨.refl st, hst⟩) fun _ ↦ And.left
  obtain ⟨hfirst, hfed⟩ := hs
  refine ((s.client_ends guid .clientNull).mono (fun _ ↦ id) fun _ _ ↦ trivial).bind fun d hd ↦ ?_
  split
  · exact ⟨hfirst, hfed⟩
  · next data hdata =>
    split
    · exact ⟨hfirst, hfed⟩
    -- the only branch that sends a value, and the topic does not count as sent yet
    · next hnew =>
      refine Ends.bind_any fun sub ↦ ?_
      split
      · exact ⟨hfirst, hfed⟩
      · split
        · next t ht =>
          have hunpublished : d.published name = false := by
            rw [ClientOutput.published, hdata]
            exact Bool.eq_false_iff.2 hnew
          have hd' := hfed.behind hd
          exact ⟨hfirst.trans (.send hd' hd hunpublished ht _),
            hfed.setClient hd (hd'.sendTopicUpdate _ _)⟩
        · trivial
        · trivial

/-! ### Feeds -/

/-- What has been sent is a feed of the broker, for every client and every topic. -/
def Instance.Delivered (st : Instance) (rs : List Request) : Prop :=
  ∀ guid name, ∃ told : List NTDataValue, st.received guid name = told.map NTDataValue.sent ∧
    PubSub.Broker.Feed NTDataValue.assign Str.isMeta Hub.initial.broker rs name told

/-- The values that a topic takes when the requests are answered. -/
abbrev Broker.takes (b : Broker) (rs : List Request) (name : Str) : List NTDataValue :=
  PubSub.Broker.taken NTDataValue.assign Str.isMeta b rs name

/-- What is sent while requests are answered: nothing before and after, or the first value, or all
that the topic takes. -/
def Instance.Feeds (st : Instance) (rs : List Request) (s : Instance) : Prop :=
  ∀ guid name, s.received guid name = [] ∨
    (∃ t, s.topicOf name = some t ∧ s.received guid name = [t.value.sent]) ∨
    st.received guid name ≠ [] ∧ s.received guid name =
      st.received guid name ++ (st.broker.takes rs name).map NTDataValue.sent

/-- The requests of an operation come after those before it. -/
theorem Instance.Delivered.append {before : List Request} (h : st.Delivered before)
    (hbroker : st.broker = Hub.initial.broker.answer before) (hfeeds : st.Feeds rs s)
    (hs : s.broker = st.broker.answer rs) : s.Delivered (before ++ rs) := by
  have hlater : s.broker = Hub.initial.broker.answer (before ++ rs) := by
    rw [hs, hbroker]
    exact (PubSub.Broker.run_append before rs).symm
  intro guid name
  rcases hfeeds guid name with hnone | ⟨t, ht, hfirst⟩ | ⟨hsome, hmore⟩
  · exact ⟨[], hnone, .inl rfl⟩
  · refine ⟨[t.value], hfirst, .first ?_⟩
    exact (congrArg (fun b : Broker ↦ b.topics name) hlater).symm.trans ht
  · obtain ⟨told, htold, hfeed⟩ := h guid name
    refine ⟨told ++ st.broker.takes rs name, by rw [hmore, htold, List.map_append], ?_⟩
    rw [hbroker]
    refine hfeed.append ?_ rs
    rintro rfl
    exact hsome htold

namespace Instance.Feeds

/-- An operation that puts no value; it may begin with a client that comes or goes. -/
theorem of_tellsFirst (h : s.TellsFirst s')
    (hs : ∀ guid name, s.received guid name = [] ∨ s.received guid name = st.received guid name)
    (htakes : ∀ name, st.broker.takes rs name = []) : st.Feeds rs s' := by
  intro guid name
  rw [htakes, List.map_nil, List.append_nil]
  rcases h.received guid name with hsame | ⟨-, t, ht, hfirst⟩
  · rcases hs guid name with hnone | hold
    · exact .inl (hsame.trans hnone)
    · rcases eq_or_ne (st.received guid name) [] with hnone | hsome
      · exact .inl (hsame.trans (hold.trans hnone))
      · exact .inr (.inr ⟨hsome, hsame.trans hold⟩)
  · exact .inr (.inl ⟨t, ht, hfirst⟩)

/-- Nobody is sent a value, and no topic takes one. -/
theorem of_silent (h : s.received = st.received) (htakes : ∀ name, st.broker.takes rs name = []) :
    st.Feeds rs s :=
  of_tellsFirst (.refl s) (fun guid name ↦ .inr (by rw [h])) htakes

/-- Something else is done afterwards. -/
theorem andThen (h : st.Feeds rs s) (htopics : s'.topicOf = s.topicOf)
    (hreceived : s'.received = s.received) : st.Feeds rs s' := by
  rw [Feeds, hreceived, htopics]
  exact h

end Instance.Feeds

omit [FloatCodec] in
/-- A single request. -/
theorem takes_singleton (r : Request) (name : Str) : st.broker.takes [r] name =
    if (r.given (st.sessionOf r.client) name).isSome then ((r.effect NTDataValue.assign Str.isMeta
      (st.sessionOf r.client) name (st.topicOf name)).map PubSub.Topic.value).toList else [] :=
  List.append_nil _

omit [FloatCodec] in
/-- A request that gives the topic no value, or that meets no topic and makes none. -/
theorem takes_eq_nil {r : Request} (h : r.given (st.sessionOf r.client) name = none ∨
    st.topicOf name = none ∧ r.made Str.isMeta (st.sessionOf r.client) name = none) :
    st.broker.takes [r] name = [] := by
  rw [takes_singleton]
  rcases h with hgiven | ⟨hnone, hmade⟩
  · rw [hgiven]
    rfl
  · rw [hnone, PubSub.Request.effect, hmade]
    exact ite_self _

/-- A broadcast sends the value once to everybody who has been sent a value of the topic. -/
theorem Broadcast.received_self {K : Allow} {topic : Topic} {time : UInt64} {complete : Prop}
    (h : Broadcast K topic time complete st s) (hcomplete : complete) (hst : st.Fed)
    (hmeta : topic.name.isMeta = false) (guid : Guid) :
    st.received guid topic.name = [] ∧ s.received guid topic.name = [] ∨
      s.received guid topic.name = st.received guid topic.name ++ [topic.value.sent] := by
  by_cases hd : ∃ d, st.clients.lookup guid = some (.remote d)
  · obtain ⟨d, hd⟩ := hd
    rw [received_of_remote hd hmeta]
    rcases h.remote guid d hd with ⟨-, hd'⟩ | ⟨hnot, hd'⟩
    · rw [received_of_remote hd' hmeta, ClientData.received_sendTopicUpdate, if_pos rfl]
      exact .inr rfl
    · -- who has been sent a value receives this one
      have hnone : d.received topic.name = [] := by
        by_contra hsome
        have hfed := hst.1 guid d hd topic.name
        rw [List.isEmpty_eq_false_iff.2 hsome, ClientOutput.published] at hfed
        obtain ⟨data, hdata, hpublished⟩ := (Option.any_eq_true _ _).1 hfed
        exact hnot hcomplete ⟨data, hdata, .inl hpublished⟩
      rw [received_of_remote hd' hmeta]
      exact .inl ⟨hnone, hnone⟩
  · have hsame := received_congr (h.other guid fun d hd' ↦ hd ⟨d, hd'⟩) topic.name
    have hnone : st.remote guid = none := by
      rw [Option.eq_none_iff_forall_ne_some]
      intro d hd'
      exact hd ⟨d, Instance.remote_eq_some.1 hd'⟩
    rw [hsame, Instance.received, if_neg (by simp [hmeta]), hnone]
    exact .inl ⟨rfl, rfl⟩

/-- A topic gets a value and it is broadcast: the topic takes the value. -/
theorem Broadcast.feeds {K : Allow} {t : TopicAt name} {time : UInt64} {complete : Prop}
    (h : Broadcast K t.1 time complete (st.setTopic name t) s) (hcomplete : complete)
    (hst : st.Fed) (htakes : name.isMeta = false → st.broker.takes rs name = [t.1.value])
    (hothers : ∀ name' ≠ name, st.broker.takes rs name' = []) : st.Feeds rs s := by
  have hset : (st.setTopic name t).received = st.received := received_eq rfl
  intro guid name'
  obtain rfl | hne := eq_or_ne name' name
  · cases hmeta : name'.isMeta with
    | true => exact .inl (received_of_isMeta hmeta)
    | false =>
      have hself := h.received_self hcomplete hst (by rwa [t.2]) guid
      rw [t.2, hset] at hself
      rcases hself with ⟨-, hnone⟩ | hmore
      · exact .inl hnone
      · rcases eq_or_ne (st.received guid name') [] with hnone | hsome
        · refine .inr (.inl ⟨⟨t.1.value, t.1.properties⟩, ?_, by rw [hmore, hnone]; rfl⟩)
          rw [Instance.topicOf, if_neg (by simp [hmeta]), h.frame]
          dsimp only
          rw [Instance.topics_setTopic, AList.lookup_insert]
          rfl
        · refine .inr (.inr ⟨hsome, ?_⟩)
          rw [hmore, htakes hmeta]
          rfl
  · have hsame : s.received guid name' = st.received guid name' := by
      rw [h.received_of_ne (by rw [t.2]; exact hne.symm), hset]
    rw [hothers name' hne, List.map_nil, List.append_nil, hsame]
    rcases eq_or_ne (st.received guid name') [] with hnone | hsome
    · exact .inl hnone
    · exact .inr (.inr ⟨hsome, rfl⟩)

/-- A value that is put to a topic is sent to all who have been sent one. -/
theorem updatePublished_feeds (hst : st.Fed) (haccepts : env.Accepts) {p : Party} {uid : Int32}
    {pub : Publisher} {value : NTDataValue} {time : Instance → UInt64}
    {session : PubSub.Session Int32 Str Subscription} (hp : st.sessionOf p = some session)
    (hpub : session.publishers uid = some pub.topic) :
    Ends (updatePublished env pub value time st) (st.Feeds [.put p uid value])
      fun _ ↦ True := by
  have hgiven (name : Str) : PubSub.Request.given (.put p uid value : Request) (st.sessionOf p)
      name = if pub.topic = name then some value else none := by
    rw [hp, PubSub.Request.given, Option.bind_some, hpub]
    simp only [Option.some.injEq]
  have hothers (name : Str) (hne : name ≠ pub.topic) :
      st.broker.takes [.put p uid value] name = [] :=
    takes_eq_nil (.inl ((hgiven name).trans (if_neg hne.symm)))
  -- without a topic there is nothing to take the value
  have hmissing (hnone : st.topicOf pub.topic = none) (name : Str) :
      st.broker.takes [.put p uid value] name = [] := by
    obtain rfl | hne := eq_or_ne name pub.topic
    · exact takes_eq_nil (.inr ⟨hnone, rfl⟩)
    · exact hothers name hne
  rw [updatePublished]
  split
  · next t ht =>
    split
    · refine Ends.map ((sendTopicUpdate_ends (K := .all) _ _).mono (fun r hr ↦ ?_)
        fun _ _ ↦ trivial)
      refine hr.1.feeds (hr.2 haccepts) hst (fun hmeta ↦ ?_) hothers
      have hold : st.topicOf pub.topic = some ⟨t.1.value, t.1.properties⟩ := by
        rw [Instance.topicOf, if_neg (by simp [hmeta]), ht]
        rfl
      rw [takes_singleton, PubSub.Request.client, hgiven, if_pos rfl, hold,
        PubSub.Request.effect, hgiven, if_pos rfl]
      rfl
    · trivial
  -- the topic is a null pointer, or becomes one: the value is dropped
  · next hnull =>
    exact Ends.ok_iff.2 (.of_silent rfl (hmissing (topicOf_eq_none (by rw [hnull]; rfl))))
  · next hnew =>
    exact Ends.ok_iff.2 (.of_silent (received_eq rfl)
      (hmissing (topicOf_eq_none (by rw [hnew]; rfl))))

/-! ### Operations -/

/-- The server has answered nobody and sent no values. -/
structure Instance.Discreet (st s : Instance) : Prop where
  received : s.received = st.received
  moves : Moves .tacit st s

namespace Instance.Discreet

theorem trans (h : st.Discreet s) (h' : s.Discreet s') : st.Discreet s' :=
  ⟨h'.received.trans h.received, h.moves.trans h'.moves⟩

/-- In particular it has sent first values at most. -/
theorem tellsFirst (h : st.Discreet s) : st.TellsFirst s :=
  .of_eq (congrArg PubSub.Broker.topics h.moves.answers.broker) h.received

/-- Everybody stays fed. -/
theorem fed (h : st.Discreet s) (hst : st.Fed) : s.Fed :=
  h.moves.changes.fed hst

/-- No client is lost. -/
theorem mem_clients (h : st.Discreet s) (hguid : guid ∈ st.clients) : guid ∈ s.clients :=
  h.moves.mem_clients.2 hguid

/-- A client is told something, but no value. -/
theorem setClient (hd : st.Behind guid d) (hreceived : ∀ name, d'.received name = d.received name)
    (hmove : ∀ self, ClientMove .tacit st.topics self d d') :
    st.Discreet (st.setClient guid d') :=
  ⟨received_setClient hd hreceived, .single (.setClient hd hmove)⟩

end Instance.Discreet

/-- A silent program that makes tacit moves only. -/
theorem Silent.discreet {α : Type} {x : Except Fault α} {final : α → Instance} {Q : α → Prop}
    (h : Silent st x final) (hx : Follows .tacit st x final Q) :
    Ends x (fun a ↦ st.Discreet (final a)) fun _ ↦ True :=
  (h.and hx).mono (fun _ ha ↦ ⟨ha.1, ha.2.1⟩) fun _ _ ↦ trivial

/-- The binary caches are handed over. -/
theorem flushBinary_discreet : Ends (flushBinary env st) st.Discreet fun _ ↦ True :=
  flushBinary_silent.discreet flushBinary_emits

/-- The end of a text frame flushes the texts, sends first values and flushes these. -/
theorem handleTextEnd_first (hst : st.Fed) :
    Ends (handleTextEnd env guid st) st.TellsFirst fun _ ↦ True := by
  refine Ends.bind (flushText_silent.discreet flushText_emits) fun s₁ (h₁ : st.Discreet s₁) ↦ ?_
  refine Ends.bind (publishInitialValues_first (h₁.fed hst)) fun s₂ h₂ ↦ ?_
  exact flushBinary_discreet.imp fun s₃ h₃ ↦ (h₁.tellsFirst.trans h₂).trans h₃.tellsFirst

/-- A value that a client puts. -/
theorem handleValue_feeds (hst : st.Fed) (haccepts : env.Accepts) (m : BinaryMessage) :
    Ends (handleValue env guid m st) (st.Feeds [.put (st.party guid) m.id.toInt32 m.data])
      fun _ ↦ True := by
  refine ((st.client_ends guid .nullDeref).mono (fun _ ↦ id) fun _ _ ↦ trivial).bind fun d hd ↦ ?_
  have hsession := Instance.sessionOf_party hd
  have hupdate : Ends (updateOf env guid d m st)
      (st.Feeds [.put (st.party guid) m.id.toInt32 m.data]) fun _ ↦ True := by
    rw [updateOf]
    split
    · next pub hpub =>
      refine updatePublished_feeds hst haccepts hsession ?_
      show ((d.publishers.lookup m.id.toInt32).join).map Publisher.topic = some pub.topic
      rw [hpub]
      rfl
    · next hunknown =>
      refine Ends.ok_iff.2 (.of_silent (received_setPublishers hd _) fun name ↦
        takes_eq_nil (.inl ?_))
      rw [PubSub.Request.client, hsession]
      refine if_neg ?_
      show ((d.publishers.lookup m.id.toInt32).join).map Publisher.topic ≠ some name
      rw [join_lookup_eq_none hunknown]
      rintro ⟨⟩
  refine hupdate.bind fun s hs ↦ flushBinary_discreet.imp fun s' hs' ↦ ?_
  exact hs.andThen hs'.tellsFirst.topics hs'.received

/-- A value that the local client puts. -/
theorem localUpdateTopic_feeds (hst : st.Fed) (haccepts : env.Accepts) (id : Int32)
    (value : NTDataValue) (time : UInt64) : Ends (localUpdateTopic env id value time st)
      (st.Feeds [.put .server id value]) fun _ ↦ True := by
  have hsession : st.sessionOf .server = some st.thisClient.session := rfl
  rw [localUpdateTopic]
  split
  · next pub hpub =>
    refine updatePublished_feeds hst haccepts hsession ?_
    show ((st.thisClient.publishers.lookup id).join).map Publisher.topic = some pub.topic
    rw [hpub]
    rfl
  · next hunknown =>
    refine Ends.ok_iff.2 (.of_silent (received_eq rfl) fun name ↦ takes_eq_nil (.inl ?_))
    rw [PubSub.Request.client, hsession]
    refine if_neg ?_
    show ((st.thisClient.publishers.lookup id).join).map Publisher.topic ≠ some name
    rw [join_lookup_eq_none hunknown]
    rintro ⟨⟩

/-- The operations on the clients that are there. -/
theorem Operation.run_feeds (hst : st.Fed) (haccepts : env.Accepts) {op : Operation}
    (hclients : op.changesClients = false) :
    Ends (op.run env st) (st.Feeds (op.requests st.party)) fun _ ↦ True := by
  cases op with
  | connect | disconnect => cases hclients
  | message guid m =>
    refine (handleMessage_silent m).imp fun s hs ↦ .of_silent hs fun name ↦ ?_
    cases m <;> rfl
  | textEnd guid =>
    exact (handleTextEnd_first hst).imp fun s hs ↦
      .of_tellsFirst hs (fun _ _ ↦ .inr rfl) fun _ ↦ rfl
  | valueUpdate guid m => exact handleValue_feeds hst haccepts m
  | subscribe topics subuid options =>
    exact (localSubscribe_silent topics subuid options).imp fun s hs ↦ .of_silent hs fun _ ↦ rfl
  | unsubscribe subuid =>
    exact (localUnsubscribe_silent subuid).imp fun s hs ↦ .of_silent hs fun _ ↦ rfl
  | publish name pubuid type properties =>
    exact Ends.map ((localPublish_silent name pubuid type properties).imp fun s hs ↦
      .of_silent hs fun _ ↦ rfl)
  | unpublish pubuid =>
    exact (localUnpublish_silent pubuid).imp fun s hs ↦ .of_silent hs fun _ ↦ rfl
  | setProperties name update =>
    exact (localSetProperties_silent name update).imp fun s hs ↦ .of_silent hs fun _ ↦ rfl
  | updateTopic id value time => exact localUpdateTopic_feeds hst haccepts id value time
  | flush => exact flushBinary_silent.imp fun s hs ↦ .of_silent hs fun _ ↦ rfl

/-- A client that joins may get first values; nothing is known of it before. -/
theorem handleConnect_feeds (hst : st.Fed) (entry : ClientEntry) (requested : Str) :
    Ends (handleConnect env entry requested st) (st.Feeds [.join (.client entry.guid)])
      fun _ ↦ True := by
  rw [handleConnect]
  refine Ends.bind_any fun num ↦ ?_
  dsimp only
  generalize requested ++ ascii "@" ++ decimal num.toNat = n
  have hfed : (st.insertClient entry.guid { guid := entry.guid, name := n }).Fed :=
    Changes.fed (K := .all) (.single (.join entry.guid n)) hst
  have hguid : entry.guid ∈
      (st.insertClient entry.guid { guid := entry.guid, name := n }).clients :=
    (AList.mem_insert _).2 (.inl rfl)
  have hjoin (guid : Guid) (name : Str) :
      (st.insertClient entry.guid { guid := entry.guid, name := n }).received guid name = [] ∨
        (st.insertClient entry.guid { guid := entry.guid, name := n }).received guid name =
          st.received guid name := by
    obtain rfl | hne := eq_or_ne guid entry.guid
    · cases hmeta : name.isMeta with
      | true => exact .inl (received_of_isMeta hmeta)
      | false => exact .inl ((received_of_remote (AList.lookup_insert _) hmeta).trans rfl)
    · exact .inr (received_congr (AList.lookup_insert_ne hne) name)
  generalize st.insertClient entry.guid { guid := entry.guid, name := n } = st₀ at *
  refine Ends.imp ?_ fun s (hs : st₀.TellsFirst s) ↦ .of_tellsFirst hs hjoin fun _ ↦ rfl
  refine Ends.bind ((publishMetaTopic_silent _).discreet (publishMetaTopic_follows rfl))
    fun r₁ (h₁ : st₀.Discreet r₁.1) ↦ ?_
  refine Ends.bind ((publishMetaTopic_silent _).discreet (publishMetaTopic_follows rfl))
    fun r₂ h₂ ↦ ?_
  have h₂ := h₁.trans h₂
  refine Ends.bind (updateClientsMetaTopic_silent.discreet
    (updateClientsMetaTopic_follows (.inl trivial) rfl (.inl trivial))) fun s₃ h₃ ↦ ?_
  have h₃ := h₂.trans h₃
  refine Ends.bind (updateClientSubMetaTopic_silent.discreet
    (updateClientSubMetaTopic_tacit (h₃.mem_clients hguid))) fun s₄ h₄ ↦ ?_
  have h₄ := h₃.trans h₄
  refine Ends.bind (updateClientPubMetaTopic_silent.discreet
    (updateClientPubMetaTopic_tacit (h₄.mem_clients hguid))) fun s₅ h₅ ↦ ?_
  have h₅ := h₄.trans h₅
  refine ((s₅.client_ends entry.guid .nullDeref).mono (fun _ ↦ id) fun _ _ ↦ trivial).bind
    fun d₅ hd₅ ↦ ?_
  have hflush : s₅.Discreet
      (s₅.setClient entry.guid (d₅.flushText MAX_CLIENT_TEXT_CACHE_LENGTH)) :=
    .setClient hd₅ (by simp) fun _ ↦ .flushText _
  have h₆ := h₅.trans hflush
  refine Ends.bind (publishInitialValues_first (h₆.fed hfed)) fun s₇ h₇ ↦ ?_
  refine ((s₇.client_ends entry.guid .nullDeref).mono (fun _ ↦ id) fun _ _ ↦ trivial).bind
    fun d₇ hd₇ ↦ Ends.ok_iff.2 ((h₆.tellsFirst.trans h₇).trans ?_)
  exact Instance.Discreet.tellsFirst (.setClient hd₇ (by simp) fun _ ↦ .flushBinary _)

/-- A client leaves, and what it was sent with it. -/
theorem handleDisconnect_feeds :
    Ends (handleDisconnect env guid st) (st.Feeds [.leave (.client guid)]) fun _ ↦ True := by
  rw [handleDisconnect]
  split
  · trivial
  · trivial
  · trivial
  · have hleave (guid' : Guid) (name : Str) : (st.eraseClient guid).received guid' name = [] ∨
        (st.eraseClient guid).received guid' name = st.received guid' name := by
      obtain rfl | hne := eq_or_ne guid' guid
      · refine .inl ?_
        rw [Instance.received, Instance.remote, Instance.eraseClient, AList.lookup_erase]
        exact ite_self _
      · exact .inr (received_congr (AList.lookup_erase_ne hne) name)
    refine Ends.bind (updateClientsMetaTopic_silent.discreet
      (updateClientsMetaTopic_follows (.inl trivial) rfl (.inl trivial))) fun s₁ h₁ ↦ ?_
    refine flushBinary_discreet.imp fun s₂ h₂ ↦ ?_
    exact .of_tellsFirst (h₁.trans h₂).tellsFirst hleave fun _ ↦ rfl

/-! ### Runs -/

/-- What has been asked for is known, and what was sent are feeds of it. -/
structure Instance.Feeding (rs : List Request) (st : Instance) : Prop where
  broker : st.broker = Hub.initial.broker.answer rs
  fed : st.Fed
  delivered : st.Delivered rs

/-- Every operation goes on with the feeds. -/
theorem feeding_kept : Kept Env.Accepts Instance.Feeding where
  idle rs st s htopics hclients hself h := by
    refine ⟨(answers_nothing htopics hclients hself).broker.trans h.broker, ?_, ?_⟩
    · exact Changes.fed (K := .all) (.single (.idle htopics hclients hself)) h.fed
    · rw [Instance.Delivered, received_eq hclients]
      exact h.delivered
  op env st op before henv hst henabled h := by
    have hbroker : Ends (op.run env st)
        (fun s ↦ s.broker = st.broker.answer (op.requests st.party)) fun _ ↦ True := by
      cases op with
      | connect entry requested =>
        exact (handleConnect_answers entry requested).imp fun _ ↦ And.left
      | disconnect guid => exact (handleDisconnect_answers henabled).imp fun _ hs ↦ hs.broker
      | message | textEnd | valueUpdate | subscribe | unsubscribe | publish | unpublish
      | setProperties | updateTopic | flush =>
        exact (Operation.run_answers hst rfl henabled).imp fun _ hs ↦ hs.broker
    have hfeeds : Ends (op.run env st) (st.Feeds (op.requests st.party)) fun _ ↦ True := by
      cases op with
      | connect entry requested => exact handleConnect_feeds h.fed entry requested
      | disconnect guid => exact handleDisconnect_feeds
      | message | textEnd | valueUpdate | subscribe | unsubscribe | publish | unpublish
      | setProperties | updateTopic | flush => exact Operation.run_feeds h.fed henv rfl
    have hchanges : Ends (op.run env st) (Changes .all st) fun _ ↦ True :=
      (Operation.run_ends henabled (.all env st op)).mono (fun _ ↦ id) fun _ _ ↦ trivial
    refine ((hbroker.and hfeeds).and hchanges).mono (fun s hs ↦ ?_) fun _ _ ↦ trivial
    obtain ⟨⟨hs, hfeeds⟩, hchanges⟩ := hs
    refine ⟨?_, hchanges.fed h.fed, h.delivered.append h.broker hfeeds hs⟩
    rw [hs, h.broker]
    exact (PubSub.Broker.run_append before _).symm

/-- A new server has nobody to send anything to. -/
theorem startServer_feeding (start : Env) :
    Ends (startServer start) (Instance.Feeding []) fun _ ↦ True := by
  have hmoves : Follows .all .initial (startServer start) id _ :=
    startServer_follows (.inl trivial) (fun _ ↦ trivial) fun _ _ ↦ trivial
  refine ((startServer_hub start).and hmoves).mono (fun st hst ↦ ?_) fun _ _ ↦ trivial
  obtain ⟨⟨hhub, -⟩, hm, -⟩ := hst
  refine ⟨congrArg Hub.broker hhub, ?_, fun guid name ↦ ⟨[], ?_, .inl rfl⟩⟩
  · exact hm.changes.fed (Instance.initial_allClients fun _ ↦ rfl)
  · have hsession : (st.remote guid).map (·.session) = none :=
      congrFun (congrArg (fun h : Hub ↦ h.broker.sessions) hhub) (.client guid)
    rw [Instance.received, Option.map_eq_none_iff.1 hsession]
    exact ite_self _

/-- What a client with a connection has been sent of a topic that it knows. -/
theorem Instance.Feeding.received (h : st.Feeding rs)
    (hd : st.clients.lookup guid = some (.remote d)) (hmeta : name.isMeta = false)
    {data : ClientTopicData} (hdata : d.topicData.lookup name = some data) :
    if data.initialPublish then
      ∃ earlier later t, rs = earlier ++ later ∧
        (Hub.initial.broker.answer earlier).topics name = some t ∧
        d.received name = ((PubSub.Broker.puts NTDataValue.assign Str.isMeta
          (Hub.initial.broker.answer earlier) later name).scanl NTDataValue.assign
            t.value).map NTDataValue.sent
    else d.received name = [] := by
  have hpublished : data.initialPublish = !(d.received name).isEmpty := by
    rw [← h.fed.1 guid d hd name, ClientOutput.published, hdata]
    rfl
  obtain ⟨told, htold, hfeed⟩ := h.delivered guid name
  rw [received_of_remote hd hmeta] at htold
  split
  · next hinitial =>
    have hsome : told ≠ [] := by
      rintro rfl
      rw [htold, hinitial] at hpublished
      cases hpublished
    obtain ⟨earlier, later, t, hrequests, ht, rfl⟩ := hfeed.resolve_left hsome
    refine ⟨earlier, later, t, hrequests, ht, ?_⟩
    rw [htold, PubSub.Broker.cons_taken later ht]
  · next hinitial =>
    by_contra hsome
    rw [List.isEmpty_eq_false_iff.2 hsome] at hpublished
    exact hinitial hpublished

omit [FloatCodec] in
/-- What was sent to a client of a topic are the updates that carry its id. -/
theorem ClientOutput.received_eq_updates {topics : Topics} {d : ClientOutput}
    (htold : d.Told topics) (hids : d.Unambiguous) {data : ClientTopicData}
    (hdata : d.topicData.lookup name = some data) :
    (d.updates.filter (·.id = data.id)).map (fun u ↦ (u.type, u.value)) = d.received name := by
  rw [updates, List.filter_filterMap, List.map_filterMap]
  refine List.filterMap_congr fun e he ↦ ?_
  cases e with
  | update topic u =>
    obtain ⟨data', hdata', hid⟩ := htold.ids _ he topic u.id rfl
    have hiff : u.id = data.id ↔ topic = name := by
      constructor
      · intro heq
        exact hids.injective _ _ _ _ hdata' hdata (hid.trans heq)
      · rintro rfl
        rw [hdata] at hdata'
        cases hdata'
        exact hid.symm
    rw [ClientEvent.valueOf, ClientEvent.asUpdate, Option.filter_some]
    by_cases hname : topic = name
    · rw [if_pos hname, if_pos (decide_eq_true (hiff.2 hname))]
      rfl
    · rw [if_neg hname, if_neg (by simpa using fun h ↦ hname (hiff.1 h))]
      rfl
  | text | sentText | sentBinary | announcedCallback | updateCallback | propertiesCallback => rfl

/-- **No value is lost, and none is sent twice.** If the local client's callback accepts every
value, then after every run a client that counts as told of a topic has been sent the value that the
topic had at some time, and then one update for each value put to it since by anybody who published
it: in order, with what the topic held after it. A client that does not count as told of a topic has
been sent no value of it. -/
theorem run_received (start : Env) (events : List (Env × Event)) (hstart : start.Accepts)
    (hevents : ∀ e ∈ events, e.1.Accepts) :
    Ends (run start events)
      (fun st ↦ ∀ guid d name data, st.clients.lookup guid = some (.remote d) →
        name.isMeta = false → d.topicData.lookup name = some data →
        if data.initialPublish then
          ∃ earlier later t, Hub.initial.requestsOf (events.map Prod.snd) = earlier ++ later ∧
            (Hub.initial.broker.answer earlier).topics name = some t ∧
            (d.updates.filter (·.id = data.id)).map (fun u ↦ (u.type, u.value)) =
              ((PubSub.Broker.puts NTDataValue.assign Str.isMeta
                (Hub.initial.broker.answer earlier) later name).scanl NTDataValue.assign
                  t.value).map NTDataValue.sent
        else d.updates.filter (·.id = data.id) = []) fun _ ↦ True := by
  have hguarded (st : Instance) : Guarded step
      (Event.Meets fun env st op ↦ op.Avoids True True False env st) st events :=
    Guarded.of_forall_mem (fun e he ↦ Event.Meets.of_forall fun _ _ ↦
      ⟨.inl trivial, .inl trivial, .inr (hevents e he)⟩) st
  refine ((run_follow feeding_kept (startServer_feeding start) hevents).and
    (run_changes True True False (.inr hstart) fun st _ ↦ hguarded st)).mono
    (fun st hst guid d name data hd hmeta hdata ↦ ?_) fun _ _ ↦ trivial
  obtain ⟨⟨-, hfeeding⟩, hchanges⟩ := hst
  have htold := hchanges.told (Instance.initial_allClients fun h ↦ by cases h)
  have hinitial : Instance.initial.Current := by
    intro guid d hd
    rw [Instance.initial, AList.lookup_insert_ite] at hd
    split at hd <;> cases hd
  have hids := (hchanges.current id hinitial guid d hd).ids
  have hreceived := hfeeding.received hd hmeta hdata
  rwa [← ClientOutput.received_eq_updates (htold.1 guid d hd rfl) hids hdata,
    List.map_eq_nil_iff] at hreceived

end

set_option maxRecDepth 4000 in
/-- A client subscribes to a topic, and its value changes twice. -/
theorem run_received_sample :
    Ends (@run .fractional .accepting [(.accepting, .connect (.sample 1 "a")),
        (.accepting, .text 1 [.subscribe [ascii "/x"] 1 .DEFAULT]),
        (.accepting, .publish (ascii "/x") 2 .int {}),
        (.accepting, .updateTopic 2 { type := .int, bits := 5 } none),
        (.accepting, .updateTopic 2 { type := .int, bits := 6 } none)])
      (fun st ↦ ∀ guid d name data, st.clients.lookup guid = some (.remote d) →
        name.isMeta = false → d.topicData.lookup name = some data →
        if data.initialPublish then
          ∃ earlier later t, Hub.initial.requestsOf [.connect (.sample 1 "a"),
              .text 1 [.subscribe [ascii "/x"] 1 .DEFAULT], .publish (ascii "/x") 2 .int {},
              .updateTopic 2 { type := .int, bits := 5 } none,
              .updateTopic 2 { type := .int, bits := 6 } none] = earlier ++ later ∧
            (Hub.initial.broker.answer earlier).topics name = some t ∧
            (d.updates.filter (·.id = data.id)).map (fun u ↦ (u.type, u.value)) =
              ((PubSub.Broker.puts NTDataValue.assign Str.isMeta
                (Hub.initial.broker.answer earlier) later name).scanl NTDataValue.assign
                  t.value).map (@NTDataValue.sent .fractional)
        else d.updates.filter (·.id = data.id) = []) fun _ ↦ True := by
  refine @run_received .fractional _ _ Env.accepting_accepts fun e he ↦ ?_
  simp only [List.mem_cons, List.not_mem_nil, or_false] at he
  rcases he with rfl | rfl | rfl | rfl | rfl <;> exact Env.accepting_accepts

end NetworkTables
