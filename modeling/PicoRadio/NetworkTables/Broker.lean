import PicoRadio.Library.PubSub
import PicoRadio.NetworkTables.MalformedUpdates

/-!
# The server as a broker

What the server is for, with everything left out that it does to get there: a broker of topics and
sessions. The names that start with `$` are reserved for what the server says about itself. Neither
the ids, the announcements and the caches of its clients nor the order in which its maps are
traversed, the clock and the callbacks of the user have a place in it.

`Instance.broker` is what the broker's state is in a state of the server. A null pointer, which the
subscript operators leave behind, is as good as none. The moves that answer nobody's request leave
the broker as it is (`Moves.answers`), so an operation of the server is followed to the one place
where it does what was asked for: `Operation.run_answers`.
-/

namespace NetworkTables

open Relation

/-! ### The broker's state -/

/-- Whose session it is: the local client's, or that of the client behind a connection. -/
inductive Party
  | server
  | client (guid : Guid)
  deriving DecidableEq

/-- The library's broker with the ids, options, values and properties of this server. -/
abbrev Broker :=
  PubSub.Broker Party Int32 Str Subscription NTDataValue TopicProperties

/-- What is asked of it. -/
abbrev Request :=
  PubSub.Request Party Int32 Str Subscription NTDataValue TopicProperties

/-- Answer requests: values are assigned, and the names that start with `$` are reserved. -/
abbrev Broker.answer (b : Broker) (rs : List Request) : Broker :=
  PubSub.Broker.run NTDataValue.assign Str.isMeta b rs

/-- The session of a client. -/
def ClientInfo.session (d : ClientInfo) : PubSub.Session Int32 Str Subscription where
  subscriptions uid := (d.subscriptions.lookup uid).join
  publishers uid := (d.publishers.lookup uid).join.map Publisher.topic

namespace Instance

/-- What the broker keeps of a topic. -/
def topicOf (st : Instance) (name : Str) : Option (PubSub.Topic NTDataValue TopicProperties) :=
  if name.isMeta then none
  else (st.topics.lookup name).join.map fun t ↦ ⟨t.1.value, t.1.properties⟩

/-- The session of a party; a guid without a connection has none. -/
def sessionOf (st : Instance) : Party → Option (PubSub.Session Int32 Str Subscription)
  | .server => some st.thisClient.session
  | .client guid => (st.remote guid).map (·.session)

/-- The broker that the server is. -/
def broker (st : Instance) : Broker where
  topics := st.topicOf
  sessions := st.sessionOf

/-- Who is meant by a guid. -/
def party (st : Instance) (guid : Guid) : Party :=
  if st.isSelf guid then .server else .client guid

/-- The server has answered the requests. -/
structure Answers (st : Instance) (rs : List Request) (s : Instance) : Prop where
  broker : s.broker = st.broker.answer rs
  self : ∀ guid, s.isSelf guid = st.isSelf guid

end Instance

variable {st s s' : Instance} {guid : Guid} {d d' : ClientData} {name : Str} {rs rs' : List Request}

/-- A guid stands for the local client or for a connection, and the session is the one of the data
behind it. -/
theorem Instance.sessionOf_party (hd : st.Behind guid d) :
    st.sessionOf (st.party guid) = some d.session := by
  rcases hd with ⟨hself, rfl⟩ | hd
  · rw [party, if_pos (by simp [isSelf, hself]), sessionOf]
  · rw [party, if_neg (by simp [isSelf, hd]), sessionOf, Instance.remote_eq_some.2 hd,
      Option.map_some]

namespace Instance.Answers

/-- Nothing was asked. -/
theorem refl (st : Instance) : st.Answers [] st :=
  ⟨rfl, fun _ ↦ rfl⟩

/-- First these requests, then those. -/
theorem trans (h : st.Answers rs s) (h' : s.Answers rs' s') : st.Answers (rs ++ rs') s' where
  broker := by
    rw [h'.broker, h.broker]
    exact (PubSub.Broker.run_append rs rs').symm
  self guid := (h'.self guid).trans (h.self guid)

/-- Nothing was asked for at first. -/
theorem after (h : st.Answers [] s) (h' : s.Answers rs s') : st.Answers rs s' :=
  h.trans h'

/-- Nothing more was asked for. -/
theorem andThen (h : st.Answers rs s) (h' : s.Answers [] s') : st.Answers rs s' := by
  have htrans := h.trans h'
  rwa [List.append_nil] at htrans

/-- Topics and sessions are what they were, so nobody need have asked. -/
theorem nil (htopics : ∀ name, s.topicOf name = st.topicOf name)
    (hsessions : ∀ p, s.sessionOf p = st.sessionOf p)
    (hself : ∀ guid, s.isSelf guid = st.isSelf guid) : st.Answers [] s where
  broker := by
    rw [Instance.broker, funext htopics, funext hsessions]
    rfl
  self := hself

/-- A single request is answered if the topics and the sessions are as it leaves them. -/
theorem single {r : Request}
    (htopics : ∀ name, s.topicOf name =
      r.effect NTDataValue.assign Str.isMeta (st.sessionOf r.client) name (st.topicOf name))
    (hsession : s.sessionOf r.client = r.ask (st.sessionOf r.client))
    (hsessions : ∀ p, p ≠ r.client → s.sessionOf p = st.sessionOf p)
    (hself : ∀ guid, s.isSelf guid = st.isSelf guid) : st.Answers [r] s where
  broker := by
    have hall : s.sessionOf =
        Function.update st.sessionOf r.client (r.ask (st.sessionOf r.client)) := by
      funext p
      obtain rfl | hne := eq_or_ne p r.client
      · rw [Function.update_self, hsession]
      · rw [Function.update_of_ne hne, hsessions p hne]
    rw [Instance.broker, funext htopics, hall]
    rfl
  self := hself

end Instance.Answers

/-! ### Moves that answer nobody -/

/-- Nobody asks for anything: only topics that are reserved are made or changed. Null pointers may
be inserted. -/
def Allow.tacit : Allow :=
  { Allow.all with
    asks := fun _ ↦ False
    creates := fun name ↦ name.isMeta
    assigns := fun name ↦ name.isMeta
    configures := fun _ ↦ False }

/-- The subscript operator leaves a null pointer where there was nothing, and this is as good as
nothing. -/
theorem join_lookup_subscript {α : Type} (m : AList fun _ : Int32 ↦ Option α) (uid uid' : Int32) :
    ((m.subscript uid none).lookup uid').join = (m.lookup uid').join := by
  rw [AList.lookup_subscript]
  split
  · next heq =>
    rw [heq]
    cases m.lookup uid <;> rfl
  · rfl

/-- Making or changing a topic that is reserved. -/
theorem topicOf_insert_meta (hmeta : name.isMeta) {p : Option (TopicAt name)}
    (hs : s.topics = st.topics.insert name p) (name' : Str) :
    s.topicOf name' = st.topicOf name' := by
  rw [Instance.topicOf, Instance.topicOf, hs]
  obtain rfl | hne := eq_or_ne name' name
  · rw [if_pos hmeta, if_pos hmeta]
  · rw [AList.lookup_insert_ne hne]

/-- The broker's topics are read off the map of topics alone. -/
theorem topicOf_congr (hs : s.topics = st.topics) (name : Str) :
    s.topicOf name = st.topicOf name := by
  rw [Instance.topicOf, Instance.topicOf, hs]

section Moves

variable [FloatCodec]

/-- A move that answers nobody leaves the client's session. -/
theorem ClientMove.session {topics : Topics} {self : Bool}
    (h : ClientMove .tacit topics self d d') : d'.session = d.session := by
  have hinfo (hd : d'.toClientInfo = d.toClientInfo) : d'.session = d.session :=
    congrArg ClientInfo.session hd
  cases h with
  | announce _ => exact hinfo (d.toClientInfo_announceTopic _)
  | announceToPublisher _ pubuid => exact hinfo (d.toClientInfo_announceTopicToPublisher _ pubuid)
  | properties _ ack => exact hinfo (d.toClientInfo_sendPropertyUpdate _ ack)
  | update _ _ time => exact hinfo (d.toClientInfo_sendTopicUpdate _ time)
  | flushText n => exact hinfo (d.toClientInfo_flushText n)
  | flushBinary n => exact hinfo (d.toClientInfo_flushBinary n)
  | subscribe hK _ => exact hK.1.elim
  | unsubscribe hK _ => exact hK.elim
  | publish hK _ _ => exact hK.elim
  | unpublish hK _ => exact hK.elim
  | nullSubscription _ uid =>
    rw [ClientInfo.session, ClientInfo.session]
    exact congrArg (PubSub.Session.mk · _) (funext fun uid' ↦ join_lookup_subscript _ uid uid')
  | nullPublisher _ uid =>
    rw [ClientInfo.session, ClientInfo.session]
    refine congrArg (PubSub.Session.mk _ ·) (funext fun uid' ↦ ?_)
    rw [join_lookup_subscript _ uid uid']
  | announceSelf _ => exact hinfo (d.toClientInfo_assignId _)
  | callback e _ => exact hinfo (d.toClientInfo_record e)
  | unnumbered _ _ => rfl

/-- Any number of them. -/
theorem ClientMoves.session {topics : Topics} {self : Bool}
    (h : ReflTransGen (ClientMove .tacit topics self) d d') : d'.session = d.session := by
  induction h with
  | refl => rfl
  | tail _ h ih => rw [h.session, ih]

omit [FloatCodec] in
/-- The pointers to connections stay, and so do the sessions behind them. -/
theorem pointers_congr
    (hremote : ∀ guid d, st.clients.lookup guid = some (.remote d) →
      ∃ d', s.clients.lookup guid = some (.remote d') ∧ d'.session = d.session)
    (hother : ∀ guid, (∀ d, st.clients.lookup guid ≠ some (.remote d)) →
      s.clients.lookup guid = st.clients.lookup guid) (guid : Guid) :
    s.sessionOf (.client guid) = st.sessionOf (.client guid) ∧ s.isSelf guid = st.isSelf guid := by
  rw [Instance.sessionOf, Instance.sessionOf]
  by_cases hd : ∃ d, st.clients.lookup guid = some (.remote d)
  · obtain ⟨d, hd⟩ := hd
    obtain ⟨d', hd', hsession⟩ := hremote guid d hd
    rw [Instance.remote_eq_some.2 hd, Instance.remote_eq_some.2 hd', Option.map_some,
      Option.map_some, hsession, Instance.isSelf, Instance.isSelf, hd, hd']
    exact ⟨rfl, by simp⟩
  · have hlookup := hother guid fun d hd' ↦ hd ⟨d, hd'⟩
    rw [Instance.remote, Instance.remote, Instance.isSelf, Instance.isSelf, hlookup]
    exact ⟨rfl, rfl⟩

/-- A broadcast answers nobody. -/
theorem Broadcast.answers {topic : Topic} {time : UInt64} {complete : Prop}
    (h : Broadcast .tacit topic time complete st s) : st.Answers [] s := by
  have hpointers := pointers_congr (fun guid d hd ↦ ?_) h.other
  · refine .nil (topicOf_congr (by rw [h.frame])) (fun p ↦ ?_) fun guid ↦ (hpointers guid).2
    cases p with
    | server => exact congrArg some (ClientMoves.session h.self)
    | client guid => exact (hpointers guid).1
  · rcases h.remote guid d hd with ⟨-, hd'⟩ | ⟨-, hd'⟩
    · exact ⟨_, hd', congrArg ClientInfo.session (d.toClientInfo_sendTopicUpdate _ _)⟩
    · exact ⟨d, hd', rfl⟩

/-- The step: the broker stays. -/
theorem Move.answers (h : Move .tacit st s) : st.Answers [] s := by
  cases h with
  | @remote guid d d' hd h =>
    have hpointers := @pointers_congr st { st with clients := st.clients.insert guid (.remote d') }
      (fun guid' d₀ hd₀ ↦ ?_) (fun guid' hother ↦ ?_)
    · refine .nil (fun _ ↦ rfl) (fun p ↦ ?_) fun guid' ↦ (hpointers guid').2
      cases p with
      | server => rfl
      | client guid' => exact (hpointers guid').1
    · rw [AList.lookup_insert_ite]
      split
      · next heq =>
        rw [heq, hd] at hd₀
        cases hd₀
        exact ⟨d', rfl, h.session⟩
      · exact ⟨d₀, hd₀, rfl⟩
    · rw [AList.lookup_insert_ite, if_neg]
      rintro rfl
      exact hother _ hd
  | self h =>
    refine .nil (fun _ ↦ rfl) (fun p ↦ ?_) fun _ ↦ rfl
    cases p with
    | server => exact congrArg some h.session
    | client guid => rfl
  | create hK _ value properties =>
    exact .nil (topicOf_insert_meta hK rfl) (fun p ↦ by cases p <;> rfl) fun _ ↦ rfl
  | properties hK => exact hK.elim
  | nullTopic hK =>
    exact .nil (topicOf_insert_meta hK.1 rfl) (fun p ↦ by cases p <;> rfl) fun _ ↦ rfl
  | assign hK ht value htype time complete _ h =>
    refine .after ?_ h.answers
    exact .nil (topicOf_insert_meta hK rfl) (fun p ↦ by cases p <;> rfl) fun _ ↦ rfl

/-- Any number of moves. -/
theorem Moves.answers (h : Moves .tacit st s) : st.Answers [] s := by
  induction h with
  | refl => exact .refl st
  | tail _ h ih => exact ih.andThen h.answers

/-- A program that answers nobody, however it fails. -/
theorem Follows.answers {α : Type} {x : Except Fault α} {final : α → Instance} {Q : α → Prop}
    (h : Follows .tacit st x final Q) : Ends x (fun a ↦ st.Answers [] (final a)) fun _ ↦ True :=
  h.mono (fun _ h ↦ Moves.answers h.1) fun _ _ ↦ trivial

end Moves

end NetworkTables
