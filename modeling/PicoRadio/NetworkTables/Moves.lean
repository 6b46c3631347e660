import Mathlib.Logic.Relation
import PicoRadio.NetworkTables.Server

/-!
# Moves

What the server does between taking the mutex and giving it back is a sequence of **moves**: one
client is told something, or the record of what a client asked for changes, or a topic is made or
changed. A value is changed and broadcast in one move, since the source never does the one without
the other. A property of all reachable states is checked once for every move, and every operation
of the server is shown once to be a sequence of moves.

A sequence of moves is taken under an `Allow`. It tells which slips of the source may occur, so that
one relation serves the properties that survive a slip and those that do not: a subscript operator
inserts a null pointer, the local client gets an entry for a topic it has no id for, a broadcast
stops at the local client, a meta topic is looked up that was never made. And it tells which topics
may be made, which may get a value and which other properties, and whether what clients asked for
may change, so that a move can be said to leave the rest alone.
-/

namespace NetworkTables

open Relation

/-- The map of topics. -/
abbrev Topics :=
  AList fun name : Str ↦ Option (TopicAt name)

/-- What may occur in a sequence of moves. -/
structure Allow where
  /-- A subscript operator may insert a null pointer. -/
  nulls : Prop
  /-- The local client may get an entry for a topic it has no id for. -/
  unnumbered : Prop
  /-- A broadcast may stop before it has visited every client. -/
  partly : Prop
  /-- A meta topic may be missing when it is looked up. -/
  missing : Prop
  /-- What a client subscribes to or publishes may change: the local client (`true`), or one with a
  connection (`false`). -/
  asks : Bool → Prop
  /-- A client may get a new subscription. -/
  subscribes : Bool → Prop
  /-- A topic of this name may be made. -/
  creates : Str → Prop
  /-- A topic of this name may get a value. -/
  assigns : Str → Prop
  /-- The properties of a topic of this name may change. -/
  configures : Str → Prop

/-- Everything may occur. -/
def Allow.all : Allow where
  nulls := True
  unnumbered := True
  partly := True
  missing := True
  asks _ := True
  subscribes _ := True
  creates _ := True
  assigns _ := True
  configures _ := True

/-! ### What happens to one client -/

/-- The history events of the local client: the calls of its callbacks. -/
def ClientEvent.isCallback : ClientEvent → Bool
  | announcedCallback _ | updateCallback _ _ _ | propertiesCallback _ _ => true
  | text _ | update _ _ | sentText _ | sentBinary _ => false

/-- One client is told something, or the record of what it asked for changes. The moves of the
local client are marked `true`; a client with a connection makes the unmarked ones only. -/
inductive ClientMove [FloatCodec] (K : Allow) (topics : Topics) :
    Bool → ClientData → ClientData → Prop
  | announce {self d name} {t : TopicAt name} (ht : topics.lookup name = some (some t)) :
    ClientMove K topics self d (d.announceTopic t.1)
  | announceToPublisher {self d name} {t : TopicAt name}
    (ht : topics.lookup name = some (some t)) (pubuid : Int32) :
    ClientMove K topics self d (d.announceTopicToPublisher t.1 pubuid)
  | properties {self d name} {t : TopicAt name} (ht : topics.lookup name = some (some t))
    (ack : Bool) : ClientMove K topics self d (d.sendPropertyUpdate t.1 ack)
  | update {self d name} {t : TopicAt name} (ht : topics.lookup name = some (some t))
    (hname : name ∈ d.topicData) (time : UInt64) :
    ClientMove K topics self d (d.sendTopicUpdate t.1 time)
  | flushText {self d} (uncachedSize : ℕ) : ClientMove K topics self d (d.flushText uncachedSize)
  | flushBinary {self d} (uncachedSize : ℕ) :
    ClientMove K topics self d (d.flushBinary uncachedSize)
  | subscribe {self : Bool} {d : ClientData} (hK : K.asks self ∧ K.subscribes self)
    (sub : Subscription) :
    ClientMove K topics self d
      { d with subscriptions := d.subscriptions.insert sub.uid (some sub) }
  | unsubscribe {self : Bool} {d : ClientData} (hK : K.asks self) (uid : Int32) :
    ClientMove K topics self d { d with subscriptions := d.subscriptions.erase uid }
  | publish {self : Bool} {d : ClientData} (hK : K.asks self) (pub : Publisher)
    (htopic : pub.topic ∈ topics) :
    ClientMove K topics self d { d with publishers := d.publishers.insert pub.uid (some pub) }
  | unpublish {self : Bool} {d : ClientData} (hK : K.asks self) (uid : Int32) :
    ClientMove K topics self d { d with publishers := d.publishers.erase uid }
  | nullSubscription {self} {d : ClientData} (hK : K.nulls) (uid : Int32) :
    ClientMove K topics self d { d with subscriptions := d.subscriptions.subscript uid none }
  | nullPublisher {self} {d : ClientData} (hK : K.nulls) (uid : Int32) :
    ClientMove K topics self d { d with publishers := d.publishers.subscript uid none }
  | announceSelf {d name} {t : TopicAt name} (ht : topics.lookup name = some (some t)) :
    ClientMove K topics true d (d.announceTopicSelfSync t.1).1
  | callback {d} (e : ClientEvent) (he : e.isCallback) : ClientMove K topics true d (d.record e)
  | unnumbered {d : ClientData} {name} (hK : K.unnumbered) (hname : name ∈ topics) :
    ClientMove K topics true d { d with topicData := d.topicData.subscript name {} }

/-! ### Broadcasts -/

/-- Whether `sendTopicUpdate` sends a value of the topic to the client: it knows the topic, and
either got a value of it before or holds a subscription that asks for values. -/
def ClientData.Receives (d : ClientData) (name : Str) : Prop :=
  ∃ data, d.topicData.lookup name = some data ∧
    (data.initialPublish ∨
      ∃ uid sub, d.subscriptions.lookup uid = some (some sub) ∧ sub.covers name true)

/-- What a broadcast of a topic does: a client that receives it is sent the value, unless the
broadcast stopped before the client; nothing else changes but the local client. -/
structure Broadcast [FloatCodec] (K : Allow) (topic : Topic) (time : UInt64) (complete : Prop)
    (st st' : Instance) : Prop where
  frame : st' = { st with clients := st'.clients, thisClient := st'.thisClient }
  self : ReflTransGen (ClientMove K st.topics true) st.thisClient st'.thisClient
  other : ∀ guid, (∀ d, st.clients.lookup guid ≠ some (.remote d)) →
    st'.clients.lookup guid = st.clients.lookup guid
  remote : ∀ guid d, st.clients.lookup guid = some (.remote d) →
    d.Receives topic.name ∧
        st'.clients.lookup guid = some (.remote (d.sendTopicUpdate topic time)) ∨
      (complete → ¬d.Receives topic.name) ∧ st'.clients.lookup guid = some (.remote d)

/-! ### Moves of the server -/

inductive Move [FloatCodec] (K : Allow) : Instance → Instance → Prop
  | remote {st : Instance} {guid d d'} (hd : st.clients.lookup guid = some (.remote d))
    (h : ClientMove K st.topics false d d') :
    Move K st { st with clients := st.clients.insert guid (.remote d') }
  | self {st : Instance} {d'} (h : ClientMove K st.topics true st.thisClient d') :
    Move K st { st with thisClient := d' }
  | create {st : Instance} {name : Str} (hK : K.creates name) (hname : name ∉ st.topics)
    (value : NTDataValue) (properties : TopicProperties) :
    Move K st (st.setTopic name ⟨{ name, value, properties }, rfl⟩)
  | properties {st : Instance} {name} {t : TopicAt name} (hK : K.configures name)
    (ht : st.topics.lookup name = some (some t)) (properties : TopicProperties) :
    Move K st (st.setTopic name (t.setProperties properties))
  | nullTopic {st : Instance} {name} (hK : K.creates name ∧ K.nulls) (hname : name ∉ st.topics) :
    Move K st (st.insertNullTopic name)
  /-- A topic gets a value, of the type it has if that is a valid one, and it is broadcast. -/
  | assign {st st' : Instance} {name} {t : TopicAt name} (hK : K.assigns name)
    (ht : st.topics.lookup name = some (some t)) (value : NTDataValue)
    (htype : t.1.value.isValid → value.type = t.1.value.type) (time : UInt64) (complete : Prop)
    (hcomplete : K.partly ∨ complete)
    (h : Broadcast K (t.setValue value).1 time complete (st.setTopic name (t.setValue value)) st') :
    Move K st st'

/-- A sequence of moves. -/
abbrev Moves [FloatCodec] (K : Allow) : Instance → Instance → Prop :=
  ReflTransGen (Move K)

/-! ### What a move leaves alone -/

/-- A topic once made stays, and so does its type once it has one. -/
structure TopicsLater (topics topics' : Topics) : Prop where
  mem : ∀ name ∈ topics, name ∈ topics'
  type : ∀ name t, topics.lookup name = some (some t) →
    ∃ t', topics'.lookup name = some (some t') ∧
      (t.1.value.isValid → t'.1.value.type = t.1.value.type)

/-- The same topics. -/
theorem TopicsLater.refl (topics : Topics) : TopicsLater topics topics :=
  ⟨fun _ ↦ id, fun _ t ht ↦ ⟨t, ht, fun _ ↦ rfl⟩⟩

/-- Later and later still. -/
theorem TopicsLater.trans {topics topics' topics'' : Topics} (h : TopicsLater topics topics')
    (h' : TopicsLater topics' topics'') : TopicsLater topics topics'' := by
  refine ⟨fun name hname ↦ h'.mem name (h.mem name hname), fun name t ht ↦ ?_⟩
  obtain ⟨t', ht', htype⟩ := h.type name t ht
  obtain ⟨t'', ht'', htype'⟩ := h'.type name t' ht'
  refine ⟨t'', ht'', fun hvalid ↦ (htype' ?_).trans (htype hvalid)⟩
  rw [NTDataValue.isValid, htype hvalid]
  exact hvalid

/-- A topic changes, and keeps its type if its value is valid. -/
theorem TopicsLater.insert {topics : Topics} {name : Str} {p : Option (TopicAt name)}
    (h : ∀ t, topics.lookup name = some (some t) →
      ∃ t', p = some t' ∧ (t.1.value.isValid → t'.1.value.type = t.1.value.type)) :
    TopicsLater topics (topics.insert name p) := by
  refine ⟨fun name' hname' ↦ (AList.mem_insert _).2 (.inr hname'), fun name' t ht ↦ ?_⟩
  obtain rfl | hne := eq_or_ne name' name
  · obtain ⟨t', rfl, htype⟩ := h t ht
    exact ⟨t', AList.lookup_insert _, htype⟩
  · exact ⟨t, by rwa [AList.lookup_insert_ne hne], fun _ ↦ rfl⟩

/-- A topic is new. -/
theorem TopicsLater.insert_absent {topics : Topics} {name : Str} (hname : name ∉ topics)
    (p : Option (TopicAt name)) : TopicsLater topics (topics.insert name p) :=
  .insert fun _ ht ↦ absurd (AList.mem_of_lookup ht) hname

/-- A topic that is there changes. -/
theorem TopicsLater.insert_some {topics : Topics} {name : Str} {t : TopicAt name}
    (ht : topics.lookup name = some (some t)) {t' : TopicAt name}
    (htype : t.1.value.isValid → t'.1.value.type = t.1.value.type) :
    TopicsLater topics (topics.insert name (some t')) :=
  .insert fun t₀ ht₀ ↦ ⟨t', rfl, by rw [ht] at ht₀; cases ht₀; exact htype⟩

/-- Who receives a value knows the topic. -/
theorem ClientData.Receives.mem {d : ClientData} {name : Str} (h : d.Receives name) :
    name ∈ d.topicData := by
  obtain ⟨data, hdata, -⟩ := h
  exact AList.mem_of_lookup hdata

section Frame

variable [FloatCodec] {K : Allow}

/-- A client keeps its guid and its name. -/
theorem ClientMove.identity {topics : Topics} {self : Bool} {d d' : ClientData}
    (h : ClientMove K topics self d d') : d'.guid = d.guid ∧ d'.name = d.name := by
  cases h <;> simp

/-- A client does not forget a topic. -/
theorem ClientMove.mem_topicData {topics : Topics} {self : Bool} {d d' : ClientData}
    (h : ClientMove K topics self d d') {name : Str} (hname : name ∈ d.topicData) :
    name ∈ d'.topicData := by
  cases h with
  | announce =>
    rw [(ClientData.topicData_announceTopic d _).1]
    exact ClientData.mem_assignId.2 (.inl hname)
  | announceToPublisher =>
    rw [ClientData.topicData_announceTopicToPublisher]
    exact ClientData.mem_assignId.2 (.inl hname)
  | announceSelf => exact ClientData.mem_assignId.2 (.inl hname)
  | properties | flushText | flushBinary | callback => simpa using hname
  | update =>
    rw [ClientData.topicData_sendTopicUpdate]
    exact (AList.mem_insert _).2 (.inr hname)
  | unnumbered => exact AList.mem_subscript.2 (.inl hname)
  | subscribe | unsubscribe | publish | unpublish | nullSubscription | nullPublisher => exact hname

/-- A move makes topics, and loses none and no type. -/
theorem Move.topicsLater {st st' : Instance} (h : Move K st st') :
    TopicsLater st.topics st'.topics := by
  cases h with
  | remote | self => exact .refl _
  | create _ hname | nullTopic _ hname => exact .insert_absent hname _
  | properties _ ht => exact .insert_some ht fun _ ↦ rfl
  | assign _ ht value htype time complete _ h =>
    rw [h.frame]
    exact .insert_some ht htype

/-- Only the topics, the clients and the local client change. -/
theorem Move.frame {st st' : Instance} (h : Move K st st') :
    st' =
      { st with topics := st'.topics, clients := st'.clients, thisClient := st'.thisClient } := by
  cases h with
  | remote | self | create | properties | nullTopic => rfl
  | assign _ _ _ _ _ _ _ h => rw [h.frame]; rfl

/-- No client comes or goes. -/
theorem Move.mem_clients {st st' : Instance} (h : Move K st st') {guid : Guid} :
    guid ∈ st'.clients ↔ guid ∈ st.clients := by
  cases h with
  | remote hd =>
    rw [AList.mem_insert, or_iff_right_of_imp]
    rintro rfl
    exact AList.mem_of_lookup hd
  | self | create | properties | nullTopic => exact Iff.rfl
  | assign _ ht value htype time complete _ h =>
    rw [← AList.lookup_isSome, ← AList.lookup_isSome]
    by_cases hd : ∃ d, st.clients.lookup guid = some (.remote d)
    · obtain ⟨d, hd⟩ := hd
      rcases h.remote guid d hd with ⟨-, h'⟩ | ⟨-, h'⟩
      · rw [h', hd]
        exact Iff.rfl
      · rw [h', hd]
    · rw [h.other guid fun d hd' ↦ hd ⟨d, hd'⟩, Instance.clients_setTopic]

/-- Only the topics that may be made are made. -/
theorem Move.creates {st st' : Instance} (h : Move K st st') {name : Str}
    (hname : name ∈ st'.topics) : name ∈ st.topics ∨ K.creates name := by
  cases h with
  | remote | self => exact .inl hname
  | create hK =>
    rcases (AList.mem_insert _).1 hname with rfl | hname
    · exact .inr hK
    · exact .inl hname
  | properties _ ht =>
    rcases (AList.mem_insert _).1 hname with rfl | hname
    · exact .inl (AList.mem_of_lookup ht)
    · exact .inl hname
  | nullTopic hK =>
    rcases (AList.mem_insert _).1 hname with rfl | hname
    · exact .inr hK.1
    · exact .inl hname
  | assign _ ht value htype time complete _ h =>
    rw [h.frame] at hname
    rcases (AList.mem_insert _).1 hname with rfl | hname
    · exact .inl (AList.mem_of_lookup ht)
    · exact .inl hname

/-- A pointer that is not to a connection's data stays as it is. -/
theorem Move.lookup_of_not_remote {st st' : Instance} (h : Move K st st') {guid : Guid}
    (hguid : ∀ d, st.clients.lookup guid ≠ some (.remote d)) :
    st'.clients.lookup guid = st.clients.lookup guid := by
  cases h with
  | remote hd =>
    rw [AList.lookup_insert_ite, if_neg]
    rintro rfl
    exact hguid _ hd
  | self | create | properties | nullTopic => rfl
  | assign _ ht value htype time complete _ h => exact h.other guid hguid

/-- A client keeps its guid and its name while it is in the map. -/
theorem Move.remote_identity {st st' : Instance} (h : Move K st st') {guid : Guid} {d : ClientData}
    (hd : st.clients.lookup guid = some (.remote d)) :
    ∃ d', st'.clients.lookup guid = some (.remote d') ∧ d'.guid = d.guid ∧ d'.name = d.name := by
  cases h with
  | @remote guid' d₀ d' hd' hm =>
    rw [AList.lookup_insert_ite]
    split
    · next heq =>
      rw [heq, hd'] at hd
      cases hd
      exact ⟨d', rfl, hm.identity⟩
    · exact ⟨d, hd, rfl, rfl⟩
  | self | create | properties | nullTopic => exact ⟨d, hd, rfl, rfl⟩
  | assign _ ht value htype time complete _ h =>
    rcases h.remote guid d hd with ⟨-, h'⟩ | ⟨-, h'⟩
    · exact ⟨_, h', by simp, by simp⟩
    · exact ⟨d, h', rfl, rfl⟩

/-- Any number of moves. -/
theorem Moves.topicsLater {st st' : Instance} (h : Moves K st st') :
    TopicsLater st.topics st'.topics := by
  induction h with
  | refl => exact .refl _
  | tail _ h ih => exact ih.trans h.topicsLater

/-- Topics, clients and the local client are all that moves change. -/
theorem Moves.frame {st st' : Instance} (h : Moves K st st') :
    st' =
      { st with topics := st'.topics, clients := st'.clients, thisClient := st'.thisClient } := by
  induction h with
  | refl => rfl
  | tail _ h ih => rw [h.frame, ih]

/-- A topic that is there afterwards was there before or may be made. -/
theorem Moves.creates {st st' : Instance} (h : Moves K st st') {name : Str}
    (hname : name ∈ st'.topics) : name ∈ st.topics ∨ K.creates name := by
  induction h with
  | refl => exact .inl hname
  | tail _ h ih => exact (h.creates hname).elim ih .inr

/-- No topic is lost. -/
theorem Moves.hasTopic {st st' : Instance} (h : Moves K st st') {name : Str}
    (hname : st.HasTopic name) : st'.HasTopic name := by
  obtain ⟨t, ht⟩ := hname
  obtain ⟨t', ht', -⟩ := h.topicsLater.type name t ht
  exact ⟨t', ht'⟩

/-- No client comes or goes. -/
theorem Moves.mem_clients {st st' : Instance} (h : Moves K st st') {guid : Guid} :
    guid ∈ st'.clients ↔ guid ∈ st.clients := by
  induction h with
  | refl => exact Iff.rfl
  | tail _ h ih => exact h.mem_clients.trans ih

/-- Pointers that lead to no data of a connection stay. -/
theorem Moves.lookup_of_not_remote {st st' : Instance} (h : Moves K st st') {guid : Guid}
    (hguid : ∀ d, st.clients.lookup guid ≠ some (.remote d)) :
    st'.clients.lookup guid = st.clients.lookup guid := by
  induction h with
  | refl => rfl
  | tail _ h ih => rw [← ih, h.lookup_of_not_remote fun d ↦ by rw [ih]; exact hguid d]

/-- A client stays who it is. -/
theorem Moves.remote_identity {st st' : Instance} (h : Moves K st st') {guid : Guid}
    {d : ClientData} (hd : st.clients.lookup guid = some (.remote d)) :
    ∃ d', st'.clients.lookup guid = some (.remote d') ∧ d'.guid = d.guid ∧ d'.name = d.name := by
  induction h with
  | refl => exact ⟨d, hd, rfl, rfl⟩
  | tail _ h ih =>
    obtain ⟨d₁, hd₁, hguid₁, hname₁⟩ := ih
    obtain ⟨d₂, hd₂, hguid₂, hname₂⟩ := h.remote_identity hd₁
    exact ⟨d₂, hd₂, hguid₂.trans hguid₁, hname₂.trans hname₁⟩

/-- In a broadcast every client is sent the value or stays as it is. -/
theorem Broadcast.remote_cases {topic : Topic} {time : UInt64} {complete : Prop}
    {st st' : Instance} (h : Broadcast K topic time complete st st') {guid : Guid} {d' : ClientData}
    (hd' : st'.clients.lookup guid = some (.remote d')) :
    ∃ d, st.clients.lookup guid = some (.remote d) ∧
      (d.Receives topic.name ∧ d' = d.sendTopicUpdate topic time ∨
        (complete → ¬d.Receives topic.name) ∧ d' = d) := by
  by_cases hd : ∃ d, st.clients.lookup guid = some (.remote d)
  · obtain ⟨d, hd⟩ := hd
    refine ⟨d, hd, ?_⟩
    rcases h.remote guid d hd with ⟨hr, h'⟩ | ⟨hr, h'⟩
    · rw [hd'] at h'
      cases h'
      exact .inl ⟨hr, rfl⟩
    · rw [hd'] at h'
      cases h'
      exact .inr ⟨hr, rfl⟩
  · rw [h.other guid fun d hd' ↦ hd ⟨d, hd'⟩] at hd'
    exact absurd ⟨d', hd'⟩ hd

/-- Sending the value is a move of the client. -/
theorem Broadcast.reflGen {name : Str} {t : TopicAt name} {time : UInt64} {complete : Prop}
    {st st' : Instance} (ht : st.topics.lookup name = some (some t))
    (h : Broadcast K t.1 time complete st st') {guid : Guid} {d' : ClientData}
    (hd' : st'.clients.lookup guid = some (.remote d')) :
    ∃ d, st.clients.lookup guid = some (.remote d) ∧
      ReflGen (ClientMove K st.topics false) d d' := by
  obtain ⟨d, hd, ⟨hr, rfl⟩ | ⟨-, rfl⟩⟩ := h.remote_cases hd'
  · rw [t.2] at hr
    exact ⟨d, hd, .single (.update ht hr.mem time)⟩
  · exact ⟨d', hd, .refl⟩

/-! ### Invariants of the clients -/

/-- A property of each client with a connection (`false`) and of the local client (`true`). -/
def Instance.AllClients (P : Bool → Topics → ClientData → Prop) (st : Instance) : Prop :=
  (∀ guid d, st.clients.lookup guid = some (.remote d) → P false st.topics d) ∧
    P true st.topics st.thisClient

/-- A property of clients is kept by every move of the server if it is kept by every move of a
client and survives changes of the topics. -/
theorem Move.allClients {P : Bool → Topics → ClientData → Prop}
    (hclient : ∀ {topics self d d'}, ClientMove K topics self d d' → P self topics d →
      P self topics d')
    (htopics : ∀ {topics topics' self d}, TopicsLater topics topics' → P self topics d →
      P self topics' d)
    {st st' : Instance} (h : Move K st st') (hst : st.AllClients P) : st'.AllClients P := by
  have hlater := h.topicsLater
  cases h with
  | @remote guid d d' hd hm =>
    refine ⟨fun guid' d'' hd'' ↦ ?_, hst.2⟩
    rw [AList.lookup_insert_ite] at hd''
    split at hd''
    · cases hd''
      exact hclient hm (hst.1 guid d hd)
    · exact hst.1 guid' d'' hd''
  | self hm => exact ⟨hst.1, hclient hm hst.2⟩
  | create | properties | nullTopic =>
    exact ⟨fun guid d hd ↦ htopics hlater (hst.1 guid d hd), htopics hlater hst.2⟩
  | @assign _ name t _ ht value htype time complete _ h =>
    let t' := t.setValue value
    have ht' : (st.topics.insert name (some t')).lookup name = some (some t') :=
      AList.lookup_insert _
    have htopics' : st'.topics = st.topics.insert name (some t') := by
      rw [h.frame, Instance.topics_setTopic]
    rw [htopics'] at hlater
    unfold Instance.AllClients
    rw [htopics']
    refine ⟨fun guid d hd ↦ ?_, ?_⟩
    · obtain ⟨d₀, hd₀, hm⟩ := h.reflGen (t := t') ht' hd
      have hd₀ := htopics hlater (hst.1 guid d₀ hd₀)
      cases hm with
      | refl => exact hd₀
      | single hm => exact hclient hm hd₀
    · have hself := h.self
      generalize st'.thisClient = d' at hself ⊢
      induction hself with
      | refl => exact htopics hlater hst.2
      | tail _ hm ih => exact hclient hm ih

/-- A property that each move of a client keeps, and each change of the topics, is kept by moves. -/
theorem Moves.allClients {P : Bool → Topics → ClientData → Prop}
    (hclient : ∀ {topics self d d'}, ClientMove K topics self d d' → P self topics d →
      P self topics d')
    (htopics : ∀ {topics topics' self d}, TopicsLater topics topics' → P self topics d →
      P self topics' d)
    {st st' : Instance} (h : Moves K st st') (hst : st.AllClients P) : st'.AllClients P := by
  induction h with
  | refl => exact hst
  | tail _ h ih => exact h.allClients hclient htopics ih

/-- The local client does not forget a topic. -/
theorem Moves.mem_topicData_self {st st' : Instance} (h : Moves K st st') {name : Str}
    (hname : name ∈ st.thisClient.topicData) : name ∈ st'.thisClient.topicData :=
  (h.allClients (P := fun self _ d ↦ self = true → name ∈ d.topicData)
    (fun hm hd hself ↦ hm.mem_topicData (hd hself)) (fun _ ↦ id)
    ⟨fun _ _ _ hcontra ↦ (by cases hcontra), fun _ ↦ hname⟩).2 rfl

/-- The local client keeps its guid and its name. -/
theorem Moves.thisClient_identity {st st' : Instance} (h : Moves K st st') :
    st'.thisClient.guid = st.thisClient.guid ∧ st'.thisClient.name = st.thisClient.name :=
  (h.allClients (P := fun self _ d ↦ self = true → d.guid = st.thisClient.guid ∧
      d.name = st.thisClient.name)
    (fun hm hd hself ↦ ⟨hm.identity.1.trans (hd hself).1, hm.identity.2.trans (hd hself).2⟩)
    (fun _ ↦ id) ⟨fun _ _ _ hcontra ↦ (by cases hcontra), fun _ ↦ ⟨rfl, rfl⟩⟩).2 rfl

/-- A client with a connection had it before. -/
theorem Moves.exists_remote {st st' : Instance} (h : Moves K st st') {guid : Guid}
    {d' : ClientData} (hd' : st'.clients.lookup guid = some (.remote d')) :
    ∃ d, st.clients.lookup guid = some (.remote d) ∧ d'.guid = d.guid ∧ d'.name = d.name := by
  by_cases hd : ∃ d, st.clients.lookup guid = some (.remote d)
  · obtain ⟨d, hd⟩ := hd
    obtain ⟨d'', hd'', hidentity⟩ := h.remote_identity hd
    rw [hd'] at hd''
    cases hd''
    exact ⟨d, hd, hidentity⟩
  · rw [h.lookup_of_not_remote fun d hd' ↦ hd ⟨d, hd'⟩] at hd'
    exact absurd ⟨d', hd'⟩ hd

/-- The data behind a pointer keeps its name. -/
theorem Moves.behind {st st' : Instance} (h : Moves K st st') {guid : Guid} {d' : ClientData}
    (hd' : st'.Behind guid d') : ∃ d, st.Behind guid d ∧ d'.name = d.name := by
  rcases hd' with ⟨hself, rfl⟩ | hd'
  · have hlookup := h.lookup_of_not_remote fun d hd ↦ by
      obtain ⟨d', hd', -⟩ := h.remote_identity hd
      rw [hself] at hd'
      cases hd'
    exact ⟨st.thisClient, .inl ⟨by rw [← hlookup, hself], rfl⟩, h.thisClient_identity.2⟩
  · obtain ⟨d, hd, -, hname⟩ := h.exists_remote hd'
    exact ⟨d, .inr hd, hname⟩

end Frame

/-! ### Null pointers -/

/-- What one client's data must meet for the loops over it to follow no null pointer. -/
structure ClientData.Rooted (topics : Topics) (d : ClientData) : Prop where
  subscriptions : ∀ uid, d.subscriptions.lookup uid ≠ some none
  publishers : ∀ uid, d.publishers.lookup uid ≠ some none
  announced : ∀ name ∈ d.topicData, name ∈ topics
  published : ∀ uid pub, d.publishers.lookup uid = some (some pub) → pub.topic ∈ topics

/-- No pointer is null, and every topic a client knows or publishes exists. -/
structure Instance.Rooted (st : Instance) : Prop where
  topics : ∀ name, st.topics.lookup name ≠ some none
  clients : ∀ guid, st.clients.lookup guid ≠ some .null
  data : st.AllClients fun _ topics d ↦ d.Rooted topics

namespace ClientData.Rooted

variable {topics : Topics} {d : ClientData}

theorem mono (h : d.Rooted topics) {topics' : Topics} (hmem : ∀ name ∈ topics, name ∈ topics') :
    d.Rooted topics' where
  subscriptions := h.subscriptions
  publishers := h.publishers
  announced name hname := hmem name (h.announced name hname)
  published uid pub hpub := hmem pub.topic (h.published uid pub hpub)

/-- The invariant speaks of what the client asked for and of the names it knows. -/
theorem of_info (h : d.Rooted topics) {d' : ClientData} (hinfo : d'.toClientInfo = d.toClientInfo)
    (hnames : ∀ name ∈ d'.topicData, name ∈ d.topicData ∨ name ∈ topics) : d'.Rooted topics where
  subscriptions := by rw [hinfo]; exact h.subscriptions
  publishers := by rw [hinfo]; exact h.publishers
  announced name hname := (hnames name hname).elim (h.announced name) id
  published := by rw [hinfo]; exact h.published

end ClientData.Rooted

section Rooted

variable [FloatCodec] {K : Allow}

/-- No null pointer comes, if none is allowed. -/
theorem ClientMove.rooted {topics : Topics} {self : Bool} {d d' : ClientData} (hK : ¬K.nulls)
    (h : ClientMove K topics self d d') (hd : d.Rooted topics) : d'.Rooted topics := by
  have named {name : Str} {t : TopicAt name} (ht : topics.lookup name = some (some t)) :
      t.1.name ∈ topics := by
    rw [t.2]
    exact AList.mem_of_lookup ht
  have assigned {name : Str} {t : TopicAt name} (ht : topics.lookup name = some (some t)) :
      ∀ name' ∈ (d.assignId t.1.name).topicData, name' ∈ d.topicData ∨ name' ∈ topics := by
    intro name' hname'
    rcases ClientData.mem_assignId.1 hname' with h | rfl
    · exact .inl h
    · exact .inr (named ht)
  cases h with
  | announce ht =>
    refine hd.of_info (by simp) ?_
    rw [(ClientData.topicData_announceTopic d _).1]
    exact assigned ht
  | announceToPublisher ht =>
    refine hd.of_info (by simp) ?_
    rw [ClientData.topicData_announceTopicToPublisher]
    exact assigned ht
  | announceSelf ht => exact hd.of_info (by simp) (assigned ht)
  | properties | flushText | flushBinary | callback =>
    exact hd.of_info (by simp) fun name hname ↦ .inl (by simpa using hname)
  | update ht =>
    refine hd.of_info (by simp) fun name hname ↦ ?_
    rw [ClientData.topicData_sendTopicUpdate, AList.mem_insert] at hname
    rcases hname with rfl | hname
    · exact .inr (named ht)
    · exact .inl hname
  | unnumbered _ hname =>
    refine hd.of_info rfl fun name' hname' ↦ (AList.mem_subscript.1 hname').imp_right ?_
    rintro rfl
    exact hname
  | subscribe _ sub =>
    refine ⟨fun uid ↦ ?_, hd.publishers, hd.announced, hd.published⟩
    rw [AList.lookup_insert_ite]
    split
    · simp
    · exact hd.subscriptions uid
  | unsubscribe _ uid' =>
    refine ⟨fun uid ↦ ?_, hd.publishers, hd.announced, hd.published⟩
    rw [AList.lookup_erase_ite]
    split
    · simp
    · exact hd.subscriptions uid
  | publish _ pub htopic =>
    refine ⟨hd.subscriptions, fun uid ↦ ?_, hd.announced, fun uid pub' hpub' ↦ ?_⟩
    · rw [AList.lookup_insert_ite]
      split
      · simp
      · exact hd.publishers uid
    · rw [AList.lookup_insert_ite] at hpub'
      split at hpub'
      · cases hpub'
        exact htopic
      · exact hd.published uid pub' hpub'
  | unpublish _ uid' =>
    refine ⟨hd.subscriptions, fun uid ↦ ?_, hd.announced, fun uid pub hpub ↦ ?_⟩
    · rw [AList.lookup_erase_ite]
      split
      · simp
      · exact hd.publishers uid
    · rw [AList.lookup_erase_ite] at hpub
      split at hpub
      · cases hpub
      · exact hd.published uid pub hpub
  | nullSubscription hK' | nullPublisher hK' => exact absurd hK' hK

/-- Nor in many moves. -/
theorem ClientMove.rooted_star {topics : Topics} {self : Bool} {d d' : ClientData} (hK : ¬K.nulls)
    (h : ReflTransGen (ClientMove K topics self) d d') (hd : d.Rooted topics) :
    d'.Rooted topics := by
  induction h with
  | refl => exact hd
  | tail _ h ih => exact h.rooted hK ih

omit [FloatCodec] in
/-- A topic that is stored is no null pointer. -/
theorem Instance.Rooted.setTopic {st : Instance} (hst : st.Rooted) {name : Str}
    (t : TopicAt name) : (st.setTopic name t).Rooted := by
  refine ⟨fun name' ↦ ?_, hst.clients, fun guid d hd ↦ (hst.data.1 guid d hd).mono ?_,
    hst.data.2.mono ?_⟩
  · rw [Instance.topics_setTopic]
    obtain rfl | hne := eq_or_ne name' name
    · simp
    · rw [AList.lookup_insert_ne hne]
      exact hst.topics name'
  all_goals exact fun name' hname' ↦ (AList.mem_insert _).2 (.inr hname')

/-- The step: a move inserts no null pointer if none is allowed. -/
theorem Move.rooted {st st' : Instance} (hK : ¬K.nulls) (h : Move K st st') (hst : st.Rooted) :
    st'.Rooted := by
  have hdata := h.allClients (P := fun _ topics d ↦ d.Rooted topics) (fun hm ↦ hm.rooted hK)
    (fun hlater hd ↦ hd.mono hlater.mem) hst.data
  cases h with
  | remote hd =>
    refine ⟨hst.topics, fun guid' ↦ ?_, hdata⟩
    rw [AList.lookup_insert_ite]
    split
    · simp
    · exact hst.clients guid'
  | self => exact ⟨hst.topics, hst.clients, hdata⟩
  | create | properties => exact hst.setTopic _
  | nullTopic hK' => exact absurd hK'.2 hK
  | assign _ ht value htype time complete _ h =>
    refine ⟨by rw [h.frame]; exact (hst.setTopic _).topics, fun guid hnull ↦ ?_, hdata⟩
    by_cases hd : ∃ d, st.clients.lookup guid = some (.remote d)
    · obtain ⟨d, hd⟩ := hd
      rcases h.remote guid d hd with ⟨-, h'⟩ | ⟨-, h'⟩ <;> rw [hnull] at h' <;> cases h'
    · rw [h.other guid fun d hd' ↦ hd ⟨d, hd'⟩] at hnull
      exact hst.clients guid hnull

/-- Any number of moves. -/
theorem Moves.rooted {st st' : Instance} (hK : ¬K.nulls) (h : Moves K st st') (hst : st.Rooted) :
    st'.Rooted := by
  induction h with
  | refl => exact hst
  | tail _ h ih => exact h.rooted hK ih

end Rooted

end NetworkTables
