import PicoRadio.NetworkTables.Broker

/-!
# What the operations of the server ask of the broker

Every handler does one thing that was asked for, between programs that tell clients something and
refresh the server's own topics. These answer nobody (`Follows.answers`), so each operation answers
the request it is about: `Operation.run_answers`.

## One request for an operation

`Answers requests` says of two states that the second is what the broker makes of the first and the
requests. A handler is a sequence of steps, and all but one of them answer the empty list. So the
lemma of a handler finds the one step that changes a session or a topic, and glues the silent rest
to it with `Answers.trans`. A request comes after the changes that are made to the data of the
client, and the session is read off these data.

## Null pointers

The maps of a client are read with the subscript operator in some places, so a uid that nobody has
used may be in a map, with a null pointer. The session of the broker has partial functions, in which
such an entry is not there. That is why the lookups are joined, and why `update_insert` and
`update_erase` stand at the beginning.

## Publications

A publication is the one request with two effects: the publisher is remembered, and the topic is
made if there is none. The source does the first before it looks for the topic. A topic that is
there keeps its value and its properties, whatever the publisher asks for.
-/

namespace NetworkTables

variable {st s : Instance} {guid : Guid} {d d' : ClientData} {name : Str}

/-! ### Changing a session -/

section Update

variable {α γ : Type} (g : Option α → γ) (m : AList fun _ : Int32 ↦ Option α) (uid : Int32)

/-- A session is updated as the map it is read off. -/
theorem update_insert (a : α) :
    Function.update (fun uid' ↦ g (m.lookup uid').join) uid (g (some a)) =
      fun uid' ↦ g ((m.insert uid (some a)).lookup uid').join := by
  funext uid'
  rw [AList.lookup_insert_ite, Function.update_apply]
  split <;> rfl

/-- What is erased from the map is gone from the session. -/
theorem update_erase :
    Function.update (fun uid' ↦ g (m.lookup uid').join) uid (g none) =
      fun uid' ↦ g ((m.erase uid).lookup uid').join := by
  funext uid'
  rw [AList.lookup_erase_ite, Function.update_apply]
  split <;> rfl

variable {m uid} (h : ∀ a, m.lookup uid = some (some a) → False)

include h

/-- A uid that is not in the map, or has a null pointer, has nothing in the session. -/
theorem join_lookup_eq_none : (m.lookup uid).join = none := by
  cases hp : m.lookup uid with
  | none => rfl
  | some p =>
    cases p with
    | none => rfl
    | some a => exact (h a hp).elim

/-- Asking for an unknown id to be forgotten. -/
theorem update_subscript :
    Function.update (fun uid' ↦ g (m.lookup uid').join) uid (g none) =
      fun uid' ↦ g ((m.subscript uid none).lookup uid').join := by
  funext uid'
  rw [join_lookup_subscript, Function.update_apply]
  split
  · next heq => rw [heq, join_lookup_eq_none h]
  · rfl

end Update

theorem Instance.Behind.mem (hd : st.Behind guid d) : guid ∈ st.clients :=
  hd.elim (fun h ↦ AList.mem_of_lookup h.1) AList.mem_of_lookup

/-- The data that are put in place are those behind the guid. -/
theorem Instance.Behind.update (hd : st.Behind guid d) (d' : ClientData) :
    (st.setClient guid d').Behind guid d' := by
  rcases hd with ⟨hself, -⟩ | hd
  · rw [setClient_of_self hself]
    exact .inl ⟨hself, rfl⟩
  · rw [setClient_of_remote hd]
    exact .inr (AList.lookup_insert _)

/-- Changing what is behind a pointer changes the session of that client. -/
theorem sessionOf_setClient (hd : st.Behind guid d) (d' : ClientData) :
    (st.setClient guid d').sessionOf (st.party guid) = some d'.session ∧
      (∀ p ≠ st.party guid, (st.setClient guid d').sessionOf p = st.sessionOf p) ∧
      ∀ guid', (st.setClient guid d').isSelf guid' = st.isSelf guid' := by
  rcases hd with ⟨hself, rfl⟩ | hd
  -- the local client, whose session belongs to no guid
  · rw [Instance.setClient_of_self hself, Instance.party, if_pos (by simp [Instance.isSelf, hself])]
    refine ⟨rfl, fun p hp ↦ ?_, fun _ ↦ rfl⟩
    cases p with
    | server => exact absurd rfl hp
    | client guid => rfl
  -- a connection, whose session belongs to its guid alone
  · rw [Instance.setClient_of_remote hd, Instance.party, if_neg (by simp [Instance.isSelf, hd])]
    refine ⟨?_, fun p hp ↦ ?_, fun guid' ↦ ?_⟩
    · rw [Instance.sessionOf, Instance.remote_eq_some.2 (AList.lookup_insert _), Option.map_some]
    · cases p with
      | server => rfl
      | client guid' =>
        have hne : guid' ≠ guid := fun heq ↦ hp (by rw [heq])
        rw [Instance.sessionOf, Instance.sessionOf, Instance.remote, Instance.remote,
          AList.lookup_insert_ne hne]
    · rw [Instance.isSelf, Instance.isSelf, AList.lookup_insert_ite]
      split
      · next heq =>
        rw [heq, hd]
        simp
      · rfl

/-- A request of a client that is not about a topic. -/
theorem setClient_answers (hd : st.Behind guid d) {r : Request} (hclient : r.client = st.party guid)
    (hask : r.ask (some d.session) = some d'.session)
    (htopics : ∀ name, r.effect NTDataValue.assign Str.isMeta (some d.session) name
      (st.topicOf name) = st.topicOf name) : st.Answers [r] (st.setClient guid d') := by
  have hsession : st.sessionOf r.client = some d.session := by
    rw [hclient, Instance.sessionOf_party hd]
  obtain ⟨hown, hothers, hself⟩ := sessionOf_setClient hd d'
  rw [← hclient] at hown hothers
  refine .single (fun name ↦ ?_) (by rw [hown, hsession, hask]) hothers hself
  rw [hsession, htopics, topicOf_congr (st.topics_setClient guid d')]

/-- A request that is about a topic only. -/
theorem setTopic_answers {r : Request} {t t' : TopicAt name}
    (ht : st.topics.lookup name = some (some t))
    (hask : r.ask (st.sessionOf r.client) = st.sessionOf r.client)
    (hvalue : (r.given (st.sessionOf r.client) name).elim t.1.value t.1.value.assign = t'.1.value)
    (hproperties : (r.change (st.sessionOf r.client) name).elim t.1.properties
      (fun f ↦ f t.1.properties) = t'.1.properties)
    (hothers : ∀ name' ≠ name, r.given (st.sessionOf r.client) name' = none ∧
      r.change (st.sessionOf r.client) name' = none)
    (hmade : ∀ name', r.made Str.isMeta (st.sessionOf r.client) name' = none) :
    st.Answers [r] (st.setTopic name t') := by
  refine .single (fun name' ↦ ?_) ?_ (fun p _ ↦ by cases p <;> rfl) fun _ ↦ rfl
  · obtain rfl | hne := eq_or_ne name' name
    · rw [Instance.topicOf, Instance.topicOf, ht, Instance.topics_setTopic, AList.lookup_insert]
      split
      -- a reserved topic is none for the broker, before and after
      · exact (hmade _).symm
      · show some _ = some (PubSub.Topic.mk _ _)
        rw [hvalue, hproperties]
    · rw [PubSub.Request.effect_eq_self _ _ (hothers name' hne).1 (hothers name' hne).2
        fun _ ↦ hmade name', Instance.topicOf, Instance.topicOf, Instance.topics_setTopic,
        AList.lookup_insert_ne hne]
  · rw [hask]
    cases r.client <;> rfl

/-! ### Messages of clients -/

/-- What a message asks for. -/
def ClientMessage.requests (p : Party) : ClientMessage → List Request
  | subscribe topics subuid options => [.subscribe p subuid ⟨subuid, topics, options⟩]
  | publish name pubuid type properties => [.publish p pubuid name ⟨{ type }, properties⟩]
  | unsubscribe subuid => [.unsubscribe p subuid]
  | unpublish pubuid => [.unpublish p pubuid]
  | setproperties name persistent retained cached => [.configure p name fun old ↦
      ⟨persistent.getD old.persistent, retained.getD old.retained, cached.getD old.cached⟩]
  | unknown => []

/-- What an operation asks for; a guid stands for a client. -/
def Operation.requests (party : Guid → Party) : Operation → List Request
  | connect entry _ => [.join (.client entry.guid)]
  | disconnect guid => [.leave (.client guid)]
  | message guid m => m.requests (party guid)
  | valueUpdate guid m => [.put (party guid) m.id.toInt32 m.data]
  | subscribe topics subuid options => [.subscribe .server subuid ⟨subuid, topics, options⟩]
  | unsubscribe subuid => [.unsubscribe .server subuid]
  | publish name pubuid type properties =>
    [.publish .server pubuid name ⟨{ type }, properties⟩]
  | unpublish pubuid => [.unpublish .server pubuid]
  | setProperties name update => [.configure .server name fun _ ↦ update]
  | updateTopic id value _ => [.put .server id value]
  | textEnd _ | flush => []

section Handlers

variable [FloatCodec] {env : Env}

omit [FloatCodec] in
/-- Follow the pointer of a client. -/
theorem client_answers {f : ClientData → Except Fault Instance} {fault : Fault} {rs : List Request}
    (hf : ∀ d, st.Behind guid d → Ends (f d) (st.Answers rs) fun _ ↦ True) :
    Ends (st.client guid fault >>= f) (st.Answers rs) fun _ ↦ True :=
  ((st.client_ends guid fault).mono (fun _ ↦ id) fun _ _ ↦ trivial).bind hf

/-- What comes after a request was answered answers nobody. -/
theorem tacitly {α : Type} {x : Except Fault α} {final : α → Instance} {rs : List Request}
    (h : st.Answers rs s) (hx : Follows .tacit s x final fun _ ↦ True) :
    Ends x (fun a ↦ st.Answers rs (final a)) fun _ ↦ True :=
  hx.answers.imp fun _ ha ↦ h.andThen ha

/-- The records of the topics are refreshed, which answers nobody. -/
theorem updateTopicSubMetaTopics_tacit {sub : Subscription} :
    Follows .tacit st (updateTopicSubMetaTopics env st sub) id fun _ ↦ True := by
  refine .foldlM (fun name _ s _ _ ↦ ?_) .refl trivial
  split
  · exact updateTopicSubMetaTopic_follows (.inl trivial) rfl (.inl trivial)
  · exact .ok .refl trivial

theorem updateClientSubMetaTopic_tacit (hguid : guid ∈ st.clients) :
    Follows .tacit st (updateClientSubMetaTopic env st guid) id fun _ ↦ True :=
  updateClientSubMetaTopic_follows (.inl trivial) hguid (fun _ _ ↦ rfl) fun _ _ ↦ .inl trivial

theorem updateClientPubMetaTopic_tacit (hguid : guid ∈ st.clients) :
    Follows .tacit st (updateClientPubMetaTopic env st guid) id fun _ ↦ True :=
  updateClientPubMetaTopic_follows (.inl trivial) hguid (fun _ _ ↦ rfl) fun _ _ ↦ .inl trivial

theorem updateTopicPubMetaTopic_tacit :
    Follows .tacit st (updateTopicPubMetaTopic env st name) id fun _ ↦ True :=
  updateTopicPubMetaTopic_follows (.inl trivial) rfl (.inl trivial)

/-- The subscription is the last one under its uid, and an older one is overwritten. -/
theorem handleSubscribe_answers (topics : List Str) (subuid : Int32)
    (options : SubscriptionOptions) : Ends (handleSubscribe env guid topics subuid options st)
      (st.Answers [.subscribe (st.party guid) subuid ⟨subuid, topics, options⟩]) fun _ ↦ True := by
  refine client_answers fun d hd ↦ ?_
  have hasked : st.Answers [.subscribe (st.party guid) subuid ⟨subuid, topics, options⟩]
      (st.setSubscriptions guid d (d.subscriptions.insert subuid
        (some ⟨subuid, topics, options⟩))) := by
    refine setClient_answers hd rfl ?_ fun _ ↦ PubSub.Request.effect_eq_self _ _ rfl rfl fun _ ↦ rfl
    exact congrArg (fun subscriptions ↦ some (PubSub.Session.mk subscriptions _))
      (update_insert (fun sub ↦ sub) d.subscriptions subuid ⟨subuid, topics, options⟩)
  have hguid : guid ∈ (st.setSubscriptions guid d (d.subscriptions.insert subuid
      (some ⟨subuid, topics, options⟩))).clients := (hd.update _).mem
  -- the rest refreshes meta topics and announces, which the broker does not see
  refine tacitly hasked ((updateClientSubMetaTopic_tacit hguid).bind fun st₂ hm₂ _ ↦ ?_)
  refine updateTopicSubMetaTopics_tacit.bind fun st₃ hm₃ _ ↦ ?_
  exact (announceCachedTopics_emits (hm₃.mem_clients.2 (hm₂.mem_clients.2 hguid))).imp
    fun _ _ ↦ trivial

/-- An unknown uid answers the same request, and leaves a null pointer behind. -/
theorem handleUnsubscribe_answers (subuid : Int32) : Ends (handleUnsubscribe env guid subuid st)
    (st.Answers [.unsubscribe (st.party guid) subuid]) fun _ ↦ True := by
  refine client_answers fun d hd ↦ ?_
  have hasked {subscriptions : AList fun _ : Int32 ↦ Option Subscription}
      (h : Function.update (fun uid ↦ (d.subscriptions.lookup uid).join) subuid none =
        fun uid ↦ (subscriptions.lookup uid).join) :
      st.Answers [.unsubscribe (st.party guid) subuid]
        (st.setSubscriptions guid d subscriptions) := by
    refine setClient_answers hd rfl ?_ fun _ ↦ PubSub.Request.effect_eq_self _ _ rfl rfl fun _ ↦ rfl
    exact congrArg (fun subscriptions ↦ some (PubSub.Session.mk subscriptions _)) h
  split
  · next sub hsub =>
    refine tacitly (hasked (update_erase (fun sub ↦ sub) d.subscriptions subuid))
      ((updateClientSubMetaTopic_tacit (hd.update _).mem).bind fun st₂ hm₂ _ ↦ ?_)
    exact updateTopicSubMetaTopics_tacit
  -- the subscript operator has inserted a null pointer
  · next hunknown => exact hasked (update_subscript (fun sub ↦ sub) hunknown)

/-- An unknown uid answers the same request here as well. -/
theorem handleUnpublish_answers (pubuid : Int32) : Ends (handleUnpublish env guid pubuid st)
    (st.Answers [.unpublish (st.party guid) pubuid]) fun _ ↦ True := by
  refine client_answers fun d hd ↦ ?_
  have hasked {publishers : AList fun _ : Int32 ↦ Option Publisher}
      (h : Function.update (fun uid ↦ (d.publishers.lookup uid).join.map Publisher.topic) pubuid
        none = fun uid ↦ (publishers.lookup uid).join.map Publisher.topic) :
      st.Answers [.unpublish (st.party guid) pubuid] (st.setPublishers guid d publishers) := by
    refine setClient_answers hd rfl ?_ fun _ ↦ PubSub.Request.effect_eq_self _ _ rfl rfl fun _ ↦ rfl
    exact congrArg (fun publishers ↦ some (PubSub.Session.mk _ publishers)) h
  split
  · next pub hpub =>
    refine tacitly (hasked (update_erase (Option.map Publisher.topic) d.publishers pubuid))
      ((updateClientPubMetaTopic_tacit (hd.update _).mem).bind fun st₂ hm₂ _ ↦ ?_)
    exact updateTopicPubMetaTopic_tacit
  -- a null pointer is inserted here too
  · next hunknown =>
    exact hasked (update_subscript (Option.map Publisher.topic) hunknown)

omit [FloatCodec] in
/-- The session of a client that publishes remembers the name under the uid. -/
theorem ask_publish (d : ClientInfo) (p : Party) (pubuid : Int32) (name : Str)
    (t : PubSub.Topic NTDataValue TopicProperties) :
    PubSub.Request.ask (.publish p pubuid name t) (some d.session) = some (ClientInfo.session
      { d with publishers := d.publishers.insert pubuid (some ⟨pubuid, name⟩) }) :=
  congrArg (fun publishers ↦ some (PubSub.Session.mk _ publishers))
    (update_insert (Option.map Publisher.topic) d.publishers pubuid ⟨pubuid, name⟩)

omit [FloatCodec] in
/-- Publishing one topic does nothing to another, to one that is there and to one that is
reserved. -/
theorem effect_publish {p : Party} {pubuid : Int32}
    {made : PubSub.Topic NTDataValue TopicProperties}
    {session : Option (PubSub.Session Int32 Str Subscription)} {name' : Str}
    (h : name = name' → name.isMeta = false → st.topicOf name' ≠ none) :
    PubSub.Request.effect NTDataValue.assign Str.isMeta (.publish p pubuid name made) session name'
      (st.topicOf name') = st.topicOf name' := by
  refine PubSub.Request.effect_eq_self _ _ rfl rfl fun hnone ↦ if_neg ?_
  rintro ⟨rfl, hmeta, -⟩
  exact h rfl hmeta hnone

omit [FloatCodec] in
/-- A topic that is new is made after its publisher was put into the map. -/
theorem setTopic_publish_answers {p : Party} {pubuid : Int32} {value : NTDataValue}
    {properties : TopicProperties} {session : PubSub.Session Int32 Str Subscription}
    (hsession : st.sessionOf p = some session) (hnew : st.topics.lookup name = none)
    (htopics : s.topics = st.topics)
    (hown : s.sessionOf p =
      PubSub.Request.ask (.publish p pubuid name ⟨value, properties⟩) (some session))
    (hothers : ∀ p' ≠ p, s.sessionOf p' = st.sessionOf p')
    (hself : ∀ guid, s.isSelf guid = st.isSelf guid) :
    st.Answers [.publish p pubuid name ⟨value, properties⟩]
      (s.setTopic name ⟨{ name, value, properties }, rfl⟩) := by
  have hframe (p : Party) (t : TopicAt name) : (s.setTopic name t).sessionOf p = s.sessionOf p := by
    cases p <;> rfl
  refine .single (fun name' ↦ ?_) ?_ (fun p' hp' ↦ (hframe p' _).trans (hothers p' hp')) hself
  · show _ = PubSub.Request.effect _ _ _ (st.sessionOf p) _ _
    rw [hsession]
    obtain rfl | hne := eq_or_ne name' name
    · have hnone : st.topicOf name' = none := by
        rw [Instance.topicOf, hnew, Option.join_none, Option.map_none, ite_self]
      rw [hnone, Instance.topicOf, Instance.topics_setTopic, AList.lookup_insert]
      show _ = ite _ _ _
      cases hmeta : name'.isMeta with
      -- a reserved name: the server makes a topic, the broker none
      | true => rw [if_pos rfl, if_neg (by simp)]
      | false => rw [if_neg (by simp), if_pos ⟨rfl, rfl, rfl⟩]; rfl
    · rw [effect_publish fun heq ↦ absurd heq.symm hne, Instance.topicOf, Instance.topicOf,
        Instance.topics_setTopic, AList.lookup_insert_ne hne, htopics]
  · exact (hframe p _).trans (hown.trans (by rw [← hsession]; rfl))

omit [FloatCodec] in
theorem Allow.MetaTopicsOf.tacit (name : Str) : Allow.tacit.MetaTopicsOf name :=
  ⟨⟨rfl, rfl⟩, rfl, rfl⟩

/-- The publisher is known already, and the topic may be new. -/
theorem publishOrAnswer_answers (hd : st.Behind guid d) (pubuid : Int32) (type : NTDataType)
    (properties : TopicProperties) :
    Ends (publishOrAnswer env guid name pubuid type properties (st.setPublishers guid d
        (d.publishers.insert pubuid (some ⟨pubuid, name⟩))))
      (st.Answers [.publish (st.party guid) pubuid name ⟨{ type }, properties⟩]) fun _ ↦ True := by
  have hask := ask_publish d.toClientInfo (st.party guid) pubuid name ⟨{ type }, properties⟩
  rw [publishOrAnswer, Instance.setPublishers, Instance.topics_setClient]
  split
  · next hnew =>
    obtain ⟨hown, hothers, hself⟩ := sessionOf_setClient hd
      { d with publishers := d.publishers.insert pubuid (some ⟨pubuid, name⟩) }
    have htopics := st.topics_setClient guid
      { d with publishers := d.publishers.insert pubuid (some ⟨pubuid, name⟩) }
    -- what follows needs of this state only what was just said of it
    generalize st.setClient guid _ = st₁ at hown hothers hself htopics ⊢
    have hmade := setTopic_publish_answers (Instance.sessionOf_party hd) hnew htopics
      (hown.trans hask.symm) hothers hself
    have hfollows : Follows .tacit (getOrCreateTopic st₁ name { type } properties).1
        (publishTopicToPublisher env st₁ name { type } guid pubuid properties) Prod.fst _ :=
      publishTopicToPublisher_follows (.inl trivial) fun _ ↦ .tacit name
    rw [getOrCreateTopic, htopics, hnew] at hfollows
    exact Ends.map (tacitly hmade (hfollows.imp fun _ _ ↦ trivial))
  · trivial
  · next t ht =>
    have hasked : st.Answers [.publish (st.party guid) pubuid name ⟨{ type }, properties⟩]
        (st.setClient guid
          { d with publishers := d.publishers.insert pubuid (some ⟨pubuid, name⟩) }) :=
      setClient_answers hd rfl hask fun name' ↦ effect_publish fun heq hmeta ↦ ?_
    -- the topic was there: the publisher is told its id
    · refine tacitly hasked (Follows.client rfl (hd.update _).mem fun d' hd' ↦ ?_)
      refine .ok (.single (.setClient hd' fun _ ↦ .announceToPublisher ?_ pubuid)) trivial
      rw [Instance.topics_setClient, ht]
    · rw [← heq, Instance.topicOf, if_neg (by simp [hmeta]), ht]
      simp

/-- A client publishes: the topic is made if it is new, and the publisher remembered in any case. -/
theorem handlePublish_answers (pubuid : Int32) (type : NTDataType) (properties : TopicProperties) :
    Ends (handlePublish env guid name pubuid type properties st)
      (st.Answers [.publish (st.party guid) pubuid name ⟨{ type }, properties⟩]) fun _ ↦ True := by
  refine client_answers fun d hd ↦ ?_
  have hmoves : Follows .all st (publishOrAnswer env guid name pubuid type properties
      (st.setPublishers guid d (d.publishers.insert pubuid (some ⟨pubuid, name⟩)))) id
      (Published env name st) :=
    publishOrAnswer_follows (.inl trivial) (fun _ ↦ trivial) hd trivial fun _ ↦
      ⟨⟨trivial, trivial⟩, trivial, trivial⟩
  refine Ends.bind (((publishOrAnswer_answers hd pubuid type properties).and hmoves).mono
    (fun _ ↦ id) fun _ _ ↦ trivial) fun s hs ↦ ?_
  -- the client is still there, so the pointer can be followed again
  have hguid : guid ∈ s.clients := hs.2.1.mem_clients.2 hd.mem
  exact tacitly hs.1 ((updateClientPubMetaTopic_tacit hguid).bind fun _ _ _ ↦
    updateTopicPubMetaTopic_tacit)

/-! ### Properties and values -/

omit [FloatCodec] in
/-- A request that is about no topic there is. -/
theorem idle_answers {r : Request} (hs : st.Answers [] s)
    (hask : r.ask (st.sessionOf r.client) = st.sessionOf r.client)
    (hmade : ∀ name, r.made Str.isMeta (st.sessionOf r.client) name = none)
    (h : ∀ name, st.topicOf name ≠ none → r.given (st.sessionOf r.client) name = none ∧
      r.change (st.sessionOf r.client) name = none) : st.Answers [r] s := by
  have htopics : s.topicOf = st.topicOf := congrArg PubSub.Broker.topics hs.broker
  have hsessions : s.sessionOf = st.sessionOf := congrArg PubSub.Broker.sessions hs.broker
  refine .single (fun name ↦ ?_) (by rw [hsessions, hask]) (fun p _ ↦ by rw [hsessions]) hs.self
  rw [htopics]
  cases ht : st.topicOf name with
  | none => exact (hmade name).symm
  | some t =>
    obtain ⟨hgiven, hchange⟩ := h name (by rw [ht]; simp)
    rw [PubSub.Request.effect_eq_self _ _ hgiven hchange (by simp)]

omit [FloatCodec] in
/-- A null pointer is no topic for the broker. -/
theorem topicOf_eq_none (h : (st.topics.lookup name).join = none) : st.topicOf name = none := by
  rw [Instance.topicOf, h, Option.map_none, ite_self]

omit [FloatCodec] in
/-- A null pointer in the map of topics is no topic. -/
theorem insertNullTopic_answers (hnone : st.topics.lookup name = none) :
    st.Answers [] (st.insertNullTopic name) := by
  refine .nil (fun name' ↦ ?_) (fun p ↦ by cases p <;> rfl) fun _ ↦ rfl
  have htopics : (st.insertNullTopic name).topics = st.topics.insert name none := rfl
  obtain rfl | hne := eq_or_ne name' name
  · have hnull : st.topicOf name' = none := topicOf_eq_none (by rw [hnone]; rfl)
    rw [hnull, topicOf_eq_none]
    rw [htopics, AList.lookup_insert]
    rfl
  · rw [Instance.topicOf, Instance.topicOf, htopics, AList.lookup_insert_ne hne]

/-- A topic that exists gets the properties, and keeps its value. -/
theorem setProperties_answers {p : Party} {session : PubSub.Session Int32 Str Subscription}
    (hp : st.sessionOf p = some session) {t : TopicAt name}
    (ht : st.topics.lookup name = some (some t)) {f : TopicProperties → TopicProperties}
    {properties : TopicProperties} (hf : f t.1.properties = properties)
    (updaterGuid : Option Guid) :
    Ends (updateTopicProperties env (st.setTopic name (t.setProperties properties))
      (t.setProperties properties).1 updaterGuid) (st.Answers [.configure p name f])
      fun _ ↦ True := by
  have hset : st.Answers [.configure p name f]
      (st.setTopic name (t.setProperties properties)) := by
    refine setTopic_answers ht rfl rfl ?_ (fun name' hne ↦ ⟨rfl, ?_⟩) fun _ ↦ rfl
    · show Option.elim (ite _ _ _) _ _ = _
      rw [PubSub.Request.client, hp, if_pos ⟨rfl, rfl⟩]
      exact hf
    · exact if_neg fun h ↦ hne h.1.symm
  -- telling the clients of the new properties answers nobody
  exact tacitly hset ((updateTopicProperties_emits (AList.lookup_insert _)).imp fun _ _ ↦ trivial)

omit [FloatCodec] in
/-- There is nothing to configure where there is no topic. -/
theorem configure_answers {p : Party} {f : TopicProperties → TopicProperties}
    (hs : st.Answers [] s) (hnone : st.topicOf name = none) :
    st.Answers [.configure p name f] s := by
  refine idle_answers hs rfl (fun _ ↦ rfl) fun name' hname' ↦ ⟨rfl, if_neg fun h ↦ hname' ?_⟩
  rw [← h.1, hnone]

/-- A property that the message does not name stays as it is. -/
theorem handleSetProperties_answers (hd : st.Behind guid d)
    (persistent retained cached : Option Bool) :
    Ends (handleSetProperties env guid name persistent retained cached st)
      (st.Answers [.configure (st.party guid) name fun old ↦ ⟨persistent.getD old.persistent,
        retained.getD old.retained, cached.getD old.cached⟩]) fun _ ↦ True := by
  rw [handleSetProperties]
  split
  · next t ht =>
    refine setProperties_answers (Instance.sessionOf_party hd) ht ?_ _
    rfl
  · next hnull =>
    exact Ends.ok_iff.2 (configure_answers (.refl st) (topicOf_eq_none (by rw [hnull]; rfl)))
  -- the subscript operator makes a topic that is a null pointer
  · next hnone =>
    exact Ends.ok_iff.2 (configure_answers (insertNullTopic_answers hnone)
      (topicOf_eq_none (by rw [hnone]; rfl)))

/-- The local client sets all three properties. -/
theorem localSetProperties_answers (update : TopicProperties) :
    Ends (localSetProperties env name update st)
      (st.Answers [.configure .server name fun _ ↦ update]) fun _ ↦ True := by
  rw [localSetProperties]
  split
  · next t ht =>
    have hserver : st.sessionOf .server = some st.thisClient.session := rfl
    refine setProperties_answers hserver ht ?_ _
    rfl
  · next hnull =>
    exact Ends.ok_iff.2 (configure_answers (.refl st) (topicOf_eq_none (by rw [hnull]; rfl)))
  · next hnone =>
    exact Ends.ok_iff.2 (configure_answers (insertNullTopic_answers hnone)
      (topicOf_eq_none (by rw [hnone]; rfl)))

omit [FloatCodec] in
/-- A value for a uid that publishes no topic is no value at all. -/
theorem put_answers {p : Party} {uid : Int32} {value : NTDataValue}
    {session : PubSub.Session Int32 Str Subscription} (hp : st.sessionOf p = some session)
    (hs : st.Answers [] s) (hnone : ∀ name, session.publishers uid = some name →
      st.topicOf name = none) : st.Answers [.put p uid value] s := by
  refine idle_answers hs rfl (fun _ ↦ rfl) fun name hname ↦ ⟨if_neg fun h ↦ hname ?_, rfl⟩
  rw [PubSub.Request.client, hp] at h
  exact hnone name h

omit [FloatCodec] in
/-- A value under an id that no publisher has. -/
theorem put_answers_of_unknown {p : Party} {uid : Int32} {value : NTDataValue} {d : ClientInfo}
    (hp : st.sessionOf p = some d.session) (hs : st.Answers [] s)
    (hunknown : ∀ pub, d.publishers.lookup uid = some (some pub) → False) :
    st.Answers [.put p uid value] s := by
  refine put_answers hp hs fun name hname ↦ ?_
  rw [ClientInfo.session] at hname
  dsimp only at hname
  rw [join_lookup_eq_none hunknown] at hname
  cases hname

/-- The value is assigned to the topic of the publisher, by the rules of assignment. -/
theorem updatePublished_answers {p : Party} {uid : Int32} {pub : Publisher} {value : NTDataValue}
    {time : Instance → UInt64} {session : PubSub.Session Int32 Str Subscription}
    (hp : st.sessionOf p = some session) (hpub : session.publishers uid = some pub.topic) :
    Ends (updatePublished env pub value time st) (st.Answers [.put p uid value])
      fun _ ↦ True := by
  have hnone (h : st.topicOf pub.topic = none) (name : Str)
      (hname : session.publishers uid = some name) : st.topicOf name = none := by
    rw [hpub] at hname
    exact Option.some.inj hname ▸ h
  rw [updatePublished]
  split
  · next t ht =>
    split
    · have hset : st.Answers [.put p uid value]
          (st.setTopic pub.topic (t.setValue (t.1.value.assign value))) := by
        refine setTopic_answers ht rfl ?_ rfl (fun name' hne ↦ ⟨if_neg fun h ↦ hne ?_, rfl⟩)
          fun _ ↦ rfl
        · show Option.elim (ite _ _ _) _ _ = _
          rw [PubSub.Request.client, hp, Option.bind_some, if_pos hpub]
          rfl
        · rw [PubSub.Request.client, hp] at h
          exact Option.some.inj (h.symm.trans hpub)
      -- the broadcast tells clients and the local callback, and changes no topic
      exact Ends.map ((sendTopicUpdate_ends (K := .tacit) _ _).mono
        (fun r hr ↦ hset.andThen hr.1.answers) fun _ _ ↦ trivial)
    · trivial
  · next hnull =>
    exact Ends.ok_iff.2 (put_answers hp (.refl st) (hnone (topicOf_eq_none (by rw [hnull]; rfl))))
  -- a null pointer is inserted under the name, which is no topic for the broker
  · next hnew =>
    exact Ends.ok_iff.2 (put_answers hp (insertNullTopic_answers hnew)
      (hnone (topicOf_eq_none (by rw [hnew]; rfl))))

/-- A client sends a value under the uid of one of its publishers. -/
theorem handleValue_answers (m : BinaryMessage) : Ends (handleValue env guid m st)
    (st.Answers [.put (st.party guid) m.id.toInt32 m.data]) fun _ ↦ True := by
  refine client_answers fun d hd ↦ ?_
  have hsession := Instance.sessionOf_party hd
  have hupdate : Ends (updateOf env guid d m st)
      (st.Answers [.put (st.party guid) m.id.toInt32 m.data]) fun _ ↦ True := by
    rw [updateOf]
    split
    · next pub hpub =>
      refine updatePublished_answers hsession ?_
      show ((d.publishers.lookup m.id.toInt32).join).map Publisher.topic = some pub.topic
      rw [hpub]
      rfl
    · next hunknown =>
      -- an id that no publisher has: a null pointer is inserted, and the value is dropped
      have hmove : Moves .tacit st
          (st.setPublishers guid d (d.publishers.subscript m.id.toInt32 none)) :=
        .single (.setClient hd fun _ ↦ .nullPublisher trivial _)
      exact Ends.ok_iff.2 (put_answers_of_unknown hsession hmove.answers hunknown)
  exact hupdate.bind fun s hs ↦ tacitly hs (flushBinary_emits.imp fun _ _ ↦ trivial)

/-! ### The local interface -/

omit [FloatCodec] in
/-- A request of the local client that is not about a topic. -/
theorem setSelf_answers {r : Request} (hclient : r.client = .server)
    (hask : r.ask (some st.thisClient.session) = some d'.session)
    (htopics : ∀ name, r.effect NTDataValue.assign Str.isMeta (some st.thisClient.session) name
      (st.topicOf name) = st.topicOf name) : st.Answers [r] { st with thisClient := d' } := by
  have hsession : st.sessionOf r.client = some st.thisClient.session := by
    rw [hclient]
    rfl
  refine .single (fun name ↦ ?_) ?_ (fun p hp ↦ ?_) fun _ ↦ rfl
  · rw [hsession, htopics]
    rfl
  · rw [hsession, hask, hclient]
    rfl
  · cases p with
    | server => exact absurd hclient.symm hp
    | client guid => rfl

/-- The server itself is one of the parties. -/
theorem localSubscribe_answers (topics : List Str) (subuid : Int32)
    (options : SubscriptionOptions) : Ends (localSubscribe env topics subuid options st)
      (st.Answers [.subscribe .server subuid ⟨subuid, topics, options⟩]) fun _ ↦ True := by
  have hasked : st.Answers [.subscribe .server subuid ⟨subuid, topics, options⟩]
      { st with
        thisClient := { st.thisClient with
          subscriptions := st.thisClient.subscriptions.insert subuid
            (some ⟨subuid, topics, options⟩) } } :=
    setSelf_answers rfl (congrArg (fun subscriptions ↦ some (PubSub.Session.mk subscriptions _))
      (update_insert (fun sub ↦ sub) st.thisClient.subscriptions subuid ⟨subuid, topics, options⟩))
      fun _ ↦ PubSub.Request.effect_eq_self _ _ rfl rfl fun _ ↦ rfl
  refine tacitly hasked ((updateServerSubMetaTopic_follows (.inl trivial) rfl
    (.inl trivial)).bind fun _ _ _ ↦ ?_)
  refine announceCachedTopicsSelf_emits.bind fun _ _ _ ↦ ?_
  exact publishInitialValuesSelf_emits.imp fun _ _ ↦ trivial

theorem localUnsubscribe_answers (subuid : Int32) : Ends (localUnsubscribe env subuid st)
    (st.Answers [.unsubscribe .server subuid]) fun _ ↦ True := by
  have hasked {subscriptions : AList fun _ : Int32 ↦ Option Subscription}
      (h : Function.update (fun uid ↦ (st.thisClient.subscriptions.lookup uid).join) subuid none =
        fun uid ↦ (subscriptions.lookup uid).join) : st.Answers [.unsubscribe .server subuid]
      { st with thisClient := { st.thisClient with subscriptions } } :=
    setSelf_answers rfl (congrArg (fun subscriptions ↦ some (PubSub.Session.mk subscriptions _)) h)
      fun _ ↦ PubSub.Request.effect_eq_self _ _ rfl rfl fun _ ↦ rfl
  rw [localUnsubscribe]
  split
  · exact tacitly (hasked (update_erase (fun sub ↦ sub) _ subuid))
      (updateServerSubMetaTopic_follows (.inl trivial) rfl (.inl trivial))
  · next hunknown => exact Ends.ok_iff.2 (hasked (update_subscript (fun sub ↦ sub) hunknown))

theorem localUnpublish_answers (pubuid : Int32) : Ends (localUnpublish env pubuid st)
    (st.Answers [.unpublish .server pubuid]) fun _ ↦ True := by
  have hasked {publishers : AList fun _ : Int32 ↦ Option Publisher}
      (h : Function.update (fun uid ↦ (st.thisClient.publishers.lookup uid).join.map
        Publisher.topic) pubuid none = fun uid ↦ (publishers.lookup uid).join.map Publisher.topic) :
      st.Answers [.unpublish .server pubuid]
        { st with thisClient := { st.thisClient with publishers } } :=
    setSelf_answers rfl (congrArg (fun publishers ↦ some (PubSub.Session.mk _ publishers)) h)
      fun _ ↦ PubSub.Request.effect_eq_self _ _ rfl rfl fun _ ↦ rfl
  rw [localUnpublish]
  split
  · exact tacitly (hasked (update_erase (Option.map Publisher.topic) _ pubuid))
      (updateServerPubMetaTopic_follows (.inl trivial) rfl (.inl trivial))
  · next hunknown =>
    exact Ends.ok_iff.2 (hasked (update_subscript (Option.map Publisher.topic) hunknown))

/-- The local client puts a value in the same way. -/
theorem localUpdateTopic_answers (id : Int32) (value : NTDataValue) (time : UInt64) :
    Ends (localUpdateTopic env id value time st) (st.Answers [.put .server id value])
      fun _ ↦ True := by
  have hserver : st.sessionOf .server = some st.thisClient.session := rfl
  rw [localUpdateTopic]
  split
  · next pub hpub =>
    refine updatePublished_answers hserver ?_
    show ((st.thisClient.publishers.lookup id).join).map Publisher.topic = some pub.topic
    rw [hpub]
    rfl
  · next hunknown =>
    have hmove : Moves .tacit st { st with thisClient := { st.thisClient with
        publishers := st.thisClient.publishers.subscript id none } } :=
      .single (.self (.nullPublisher trivial id))
    exact Ends.ok_iff.2 (put_answers_of_unknown hserver hmove.answers hunknown)

/-- A topic that exists is looked up, and only its id may be new. -/
theorem publishOrLookUp_answers (pubuid : Int32) (type : NTDataType)
    (properties : TopicProperties) :
    Ends (publishOrLookUp env name type properties { st with thisClient := { st.thisClient with
        publishers := st.thisClient.publishers.insert pubuid (some ⟨pubuid, name⟩) } })
      (fun r ↦ st.Answers [.publish .server pubuid name ⟨{ type }, properties⟩] r.1)
      fun _ ↦ True := by
  have hserver : st.sessionOf .server = some st.thisClient.session := rfl
  have hask := ask_publish st.thisClient.toClientInfo .server pubuid name ⟨{ type }, properties⟩
  -- the publisher is put into the map before the topic is looked up
  generalize hst₁ : ({ st with thisClient := { st.thisClient with
    publishers := st.thisClient.publishers.insert pubuid (some ⟨pubuid, name⟩) } } : Instance) = st₁
  have htopics : st₁.topics = st.topics := by rw [← hst₁]
  rw [publishOrLookUp]
  split
  · next hnew =>
    rw [htopics] at hnew
    have hmade := @setTopic_publish_answers st st₁ name .server pubuid { type } properties _ hserver
      hnew htopics (by rw [hask, ← hst₁]; rfl) (fun p hp ↦ ?_) fun _ ↦ by rw [← hst₁]; rfl
    · have hfollows : Follows .tacit (getOrCreateTopic st₁ name { type } properties).1
          (publishTopicSelfSync env st₁ name { type } properties) Prod.fst _ :=
        publishTopicSelfSync_follows (.inl trivial) (fun _ ↦ .tacit name) (.inl trivial)
      rw [getOrCreateTopic, htopics, hnew] at hfollows
      exact tacitly hmade (hfollows.imp fun _ _ ↦ trivial)
    · rw [← hst₁]
      cases p with
      | server => exact absurd rfl hp
      | client guid => rfl
  · trivial
  · next t ht =>
    have hasked : st.Answers [.publish .server pubuid name ⟨{ type }, properties⟩] st₁ := by
      rw [← hst₁]
      refine setSelf_answers rfl hask fun name' ↦ effect_publish fun heq hmeta ↦ ?_
      rw [← heq, Instance.topicOf, if_neg (by simp [hmeta]), ← htopics, ht]
      simp
    exact Ends.ok_iff.2 (hasked.andThen (Moves.answers (.single (.self (.announceSelf ht)))))

/-- The local client publishes as others do, and is given the topic back. -/
theorem localPublish_answers (pubuid : Int32) (type : NTDataType) (properties : TopicProperties) :
    Ends (localPublish env name pubuid type properties st)
      (fun r ↦ st.Answers [.publish .server pubuid name ⟨{ type }, properties⟩] r.1)
      fun _ ↦ True := by
  refine (publishOrLookUp_answers pubuid type properties).bind fun r hr ↦ ?_
  refine Ends.bind (tacitly hr (updateServerPubMetaTopic_follows (.inl trivial) rfl
    (.inl trivial))) fun s hs ↦ ?_
  exact Ends.ok_iff.2 hs

/-! ### Every operation -/

/-- An operation answers the request it is about. -/
theorem Operation.run_answers {op : Operation} (hst : st.Wired)
    (hclients : op.changesClients = false) (henabled : op.Enabled st) :
    Ends (op.run env st) (st.Answers (op.requests st.party)) fun _ ↦ True := by
  cases op with
  | connect | disconnect => cases hclients
  | message guid m =>
    obtain ⟨d, hd⟩ := hst.exists_behind henabled
    cases m with
    | subscribe topics subuid options => exact handleSubscribe_answers topics subuid options
    | publish name pubuid type properties => exact handlePublish_answers pubuid type properties
    | unsubscribe subuid => exact handleUnsubscribe_answers subuid
    | unpublish pubuid => exact handleUnpublish_answers pubuid
    | setproperties name persistent retained cached =>
      exact handleSetProperties_answers hd persistent retained cached
    | unknown => exact Ends.ok_iff.2 (.refl st)
  | textEnd guid => exact (Follows.imp (handleTextEnd_emits henabled) fun _ _ ↦ trivial).answers
  | valueUpdate guid m => exact handleValue_answers m
  | subscribe topics subuid options => exact localSubscribe_answers topics subuid options
  | unsubscribe subuid => exact localUnsubscribe_answers subuid
  | publish name pubuid type properties =>
    exact Ends.map (localPublish_answers pubuid type properties)
  | unpublish pubuid => exact localUnpublish_answers pubuid
  | setProperties name update => exact localSetProperties_answers update
  | updateTopic id value time => exact localUpdateTopic_answers id value time
  | flush => exact (Follows.imp flushBinary_emits fun _ _ ↦ trivial).answers

/-! ### Connections -/

/-- A client joins; its guid means no other any more. -/
theorem handleConnect_answers (entry : ClientEntry) (requested : Str) :
    Ends (handleConnect env entry requested st)
      (fun s ↦ s.broker = st.broker.answer [.join (.client entry.guid)] ∧
        s.isSelf = Function.update st.isSelf entry.guid false) fun _ ↦ True := by
  refine (handleConnect_ends (K := .tacit) (.inl trivial) rfl (.inl trivial) (fun _ ↦ id)
    fun _ ↦ ⟨rfl, rfl⟩).mono ?_ fun _ _ ↦ trivial
  rintro s ⟨n, hm, -⟩
  have hanswers := hm.answers
  have hbroker : (st.insertClient entry.guid { guid := entry.guid, name := n }).broker =
      st.broker.answer [.join (.client entry.guid)] := by
    refine congrArg₂ PubSub.Broker.mk (funext fun name ↦
      (PubSub.Request.effect_eq_self _ _ rfl rfl fun _ ↦ rfl).symm) (funext fun p ↦ ?_)
    rw [Function.update_apply]
    split
    · next heq =>
      rw [heq]
      show Option.map _ (Instance.remote _ entry.guid) = _
      rw [Instance.remote_eq_some.2 (AList.lookup_insert _)]
      rfl
    · next hne =>
      cases p with
      | server => rfl
      | client guid =>
        have hguid : guid ≠ entry.guid := fun heq ↦ hne (by rw [heq]; rfl)
        show Option.map _ (Instance.remote _ guid) = Option.map _ (Instance.remote _ guid)
        rw [Instance.remote, Instance.remote, Instance.insertClient, AList.lookup_insert_ne hguid]
  refine ⟨hanswers.broker.trans hbroker, funext fun guid ↦ ?_⟩
  rw [hanswers.self, Instance.isSelf, Instance.insertClient, AList.lookup_insert_ite,
    Function.update_apply]
  split
  · simp
  · rfl

/-- A client leaves. -/
theorem handleDisconnect_answers (hguid : guid ∈ st.clients) :
    Ends (handleDisconnect env guid st) (st.Answers [.leave (.client guid)]) fun _ ↦ True := by
  refine (handleDisconnect_ends (K := .tacit) (.inl trivial) rfl (.inl trivial) hguid).mono ?_
    fun _ _ ↦ trivial
  rintro s ⟨⟨d, hd⟩, hm⟩
  have hleave : st.Answers [.leave (.client guid)] (st.eraseClient guid) := by
    refine .single (fun _ ↦ (PubSub.Request.effect_eq_self _ _ rfl rfl fun _ ↦ rfl).symm) ?_
      (fun p hp ↦ ?_) fun guid' ↦ ?_
    · show Option.map _ (Instance.remote _ guid) = none
      rw [Instance.remote, Instance.eraseClient, AList.lookup_erase]
      rfl
    · cases p with
      | server => rfl
      | client guid' =>
        have hne : guid' ≠ guid := fun heq ↦ hp (by rw [heq]; rfl)
        rw [Instance.sessionOf, Instance.sessionOf, Instance.remote, Instance.remote,
          Instance.eraseClient, AList.lookup_erase_ne hne]
    · rw [Instance.isSelf, Instance.isSelf, Instance.eraseClient, AList.lookup_erase_ite]
      split
      · next heq =>
        rw [heq, hd]
        simp
      · rfl
  exact hleave.andThen hm.answers

/-- A new server has no topic that is not reserved, and knows the local client only. -/
theorem startServer_answers (start : Env) :
    Ends (startServer start) (Instance.initial.Answers []) fun _ ↦ True := by
  refine Follows.answers (Q := fun _ ↦ True) ?_
  refine (publishMetaTopic_follows rfl).bind fun _ _ _ ↦ ?_
  refine (publishMetaTopic_follows rfl).bind fun _ _ _ ↦ ?_
  refine (publishMetaTopic_follows rfl).bind fun _ _ _ ↦ ?_
  refine (updateClientsMetaTopic_follows (.inl trivial) rfl (.inl trivial)).bind fun _ _ _ ↦ ?_
  refine (updateServerSubMetaTopic_follows (.inl trivial) rfl (.inl trivial)).bind fun _ _ _ ↦ ?_
  refine (updateServerPubMetaTopic_follows (.inl trivial) rfl (.inl trivial)).bind fun _ _ _ ↦ ?_
  exact flushText_emits.bind fun _ _ _ ↦ flushBinary_emits.imp fun _ _ ↦ trivial

end Handlers

end NetworkTables
