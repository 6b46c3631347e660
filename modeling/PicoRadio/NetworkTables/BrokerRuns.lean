import PicoRadio.NetworkTables.Assignment
import PicoRadio.NetworkTables.BrokerOperations

/-!
# The server refines the broker

`Hub` is the broker together with what decides who is heard: the guids that mean the local client,
and whether the mutex was left taken, after which nobody is heard any more. It takes a step for
every event, and its state depends on the events alone (`run_refines`): not on the order in which
maps are traversed, the clock, the callbacks or what the clients have been told. An invariant of the
server may speak of what has been asked for; it is checked for the operations (`Kept`).

So what the broker promises holds of the server. A client has the subscriptions and the publishers
that its own messages made (`run_session`). A topic was made by the first to publish it, it keeps
its type, and it holds the last value of that type which a client put to it that published it then
(`run_topic`).
-/

namespace NetworkTables

/-! ### The broker and who is heard -/

/-- What a binary frame asks for. Measurements of the round-trip time ask for nothing. -/
def valueRequests (p : Party) (messages : List BinaryMessage) : List Request :=
  (messages.filter (·.id ≠ -1)).map fun m ↦ .put p m.id.toInt32 m.data

/-- A broker, with what decides who is heard. -/
structure Hub where
  broker : Broker
  /-- Whether the guid means the local client. -/
  self : Guid → Bool
  /-- The mutex is taken, and nobody will give it back. -/
  stuck : Bool

namespace Hub

def party (h : Hub) (guid : Guid) : Party :=
  if h.self guid then .server else .client guid

/-- The guid is that of a client. -/
def knows (h : Hub) (guid : Guid) : Bool :=
  (h.broker.sessions (h.party guid)).isSome

/-- What an event asks for, if it is heard. Connections that measure round-trip times are no
clients, and a client that has not joined is not heard. -/
def asks (h : Hub) (e : Event) : List Request :=
  match e with
  | .connect entry =>
    if entry.serverProtocol = NT_RTT_PROTOCOL then [] else [.join (.client entry.guid)]
  | .disconnect guid => if h.knows guid then [.leave (.client guid)] else []
  | .text guid messages =>
    if h.knows guid then messages.flatMap (·.requests (h.party guid)) else []
  | .binary guid messages =>
    if h.knows guid then valueRequests (h.party guid) messages else []
  | .subscribe topics subuid options => [.subscribe .server subuid ⟨subuid, topics, options⟩]
  | .unsubscribe subuid => [.unsubscribe .server subuid]
  | .publish name pubuid type properties =>
    [.publish .server pubuid name ⟨{ type }, properties⟩]
  | .unpublish pubuid => [.unpublish .server pubuid]
  | .setProperties name update => [.configure .server name fun _ ↦ update]
  | .updateTopic id value _ => [.put .server id value]
  | .removeConnection _ | .flush => []

/-- What an event asks for. -/
def requests (h : Hub) (e : Event) : List Request :=
  if h.stuck then [] else h.asks e

/-- The event takes the mutex and leaves it taken. -/
def locks (h : Hub) (e : Event) : Bool :=
  match e with
  | .disconnect guid => !h.knows guid
  | .binary guid messages => !h.knows guid && messages.any (·.id ≠ -1)
  | .connect _ | .text _ _ | .removeConnection _ | .subscribe _ _ _ | .unsubscribe _
  | .publish _ _ _ _ | .unpublish _ | .setProperties _ _ | .updateTopic _ _ _ | .flush => false

/-- A client that joins under a guid takes it over. -/
def selfAfter (h : Hub) (e : Event) : Guid → Bool :=
  match e with
  | .connect entry =>
    if h.stuck ∨ entry.serverProtocol = NT_RTT_PROTOCOL then h.self
    else Function.update h.self entry.guid false
  | .disconnect _ | .binary _ _ | .text _ _ | .removeConnection _ | .subscribe _ _ _
  | .unsubscribe _ | .publish _ _ _ _ | .unpublish _ | .setProperties _ _ | .updateTopic _ _ _
  | .flush => h.self

/-- The hub after an event: the requests are answered, if the mutex can be taken. -/
def step (h : Hub) (e : Event) : Hub where
  broker := h.broker.answer (h.requests e)
  self := h.selfAfter e
  stuck := h.stuck || h.locks e

def run (h : Hub) (events : List Event) : Hub :=
  events.foldl step h

/-- What the events of a run ask for. -/
def requestsOf : Hub → List Event → List Request
  | _, [] => []
  | h, e :: events => h.requests e ++ requestsOf (h.step e) events

/-- A new server: the local client has joined, and its guid is `0`. -/
def initial : Hub where
  broker :=
    { topics := fun _ ↦ none
      sessions := fun
        | .server => some .fresh
        | .client _ => none }
  self guid := guid = 0
  stuck := false

/-- A run answers the requests of its events, in order. -/
theorem broker_run (h : Hub) (events : List Event) :
    (h.run events).broker = h.broker.answer (h.requestsOf events) := by
  induction events generalizing h with
  | nil => rfl
  | cons e events ih =>
    refine (ih (h.step e)).trans ?_
    exact (PubSub.Broker.run_append (h.requests e) (requestsOf (h.step e) events)).symm

end Hub

/-- The broker that the server is, and who it hears. -/
def Instance.hub (st : Instance) : Hub where
  broker := st.broker
  self := st.isSelf
  stuck := !st.mutexFree

section

variable [FloatCodec] {env : Env} {st s s' : Instance} {guid : Guid} {rs rs' : List Request}
  {A : Env → Prop} {I : List Request → Instance → Prop}

/-! ### Invariants that know the requests -/

/-- Every operation keeps `I`, which speaks of the state and of all that has been asked for, if the
environment is as `A` says. -/
structure Kept (A : Env → Prop) (I : List Request → Instance → Prop) : Prop where
  idle : ∀ rs (st s : Instance), s.topics = st.topics → s.clients = st.clients →
    s.thisClient = st.thisClient → I rs st → I rs s
  op : ∀ env (st : Instance) (op : Operation) rs, A env → st.Wired → op.Enabled st → I rs st →
    Ends (op.run env st) (I (rs ++ op.requests st.party)) fun _ ↦ True

/-- What `I` says after some more requests. -/
def Upholds (I : List Request → Instance → Prop) (st : Instance) (rs : List Request)
    (s : Instance) : Prop :=
  ∀ before, I before st → I (before ++ rs) s

omit [FloatCodec] in
theorem Upholds.trans (h : Upholds I st rs s) (h' : Upholds I s rs' s') :
    Upholds I st (rs ++ rs') s' := by
  intro before hst
  rw [← List.append_assoc]
  exact h' _ (h before hst)

namespace Kept

/-- Nothing is asked of the state. -/
theorem trivially : Kept (fun _ ↦ True) fun _ _ ↦ True where
  idle _ _ _ _ _ _ := id
  op _ _ _ _ _ _ _ _ := Ends.of_forall (fun _ ↦ trivial) fun _ ↦ trivial

variable (hI : Kept A I)

include hI

/-- Nothing was asked for. -/
theorem keeps (htopics : s.topics = st.topics) (hclients : s.clients = st.clients)
    (hself : s.thisClient = st.thisClient) : Upholds I st [] s := by
  intro before hst
  rw [List.append_nil]
  exact hI.idle before st s htopics hclients hself hst

theorem refl (st : Instance) : Upholds I st [] st :=
  hI.keeps rfl rfl rfl

/-- An operation that takes the mutex. -/
theorem run (henv : A env) (hst : st.Wired) {op : Operation} (henabled : op.Enabled st) :
    Ends (op.run env { st with mutexFree := false })
      (fun s ↦ Upholds I st (op.requests st.party) { s with mutexFree := true }) fun _ ↦ True := by
  refine Ends.iff_forall.2 ⟨fun s hs before hI₀ ↦ ?_, fun _ _ ↦ trivial⟩
  have hop := hI.op env { st with mutexFree := false } op before henv hst (henabled.taken false)
    (hI.idle before st _ rfl rfl rfl hI₀)
  exact hI.idle _ s _ rfl rfl rfl (hop.of_ok hs)

end Kept

/-! ### Frames -/

omit [FloatCodec] in
/-- The server has answered the requests; the mutex is as it was, and everybody is still there. -/
structure Instance.Turns (I : List Request → Instance → Prop) (st : Instance) (rs : List Request)
    (s : Instance) : Prop where
  answers : st.Answers rs s
  mutexFree : s.mutexFree = st.mutexFree
  wired : s.Wired
  clients : ∀ guid, guid ∈ s.clients ↔ guid ∈ st.clients
  keeps : Upholds I st rs s

namespace Instance.Turns

theorem refl (hI : Kept A I) (hst : st.Wired) : st.Turns I [] st :=
  ⟨.refl st, rfl, hst, fun _ ↦ Iff.rfl, hI.refl st⟩

omit [FloatCodec] in
theorem trans (h : st.Turns I rs s) (h' : s.Turns I rs' s') : st.Turns I (rs ++ rs') s' where
  answers := h.answers.trans h'.answers
  mutexFree := h'.mutexFree.trans h.mutexFree
  wired := h'.wired
  clients guid := (h'.clients guid).trans (h.clients guid)
  keeps := h.keeps.trans h'.keeps

omit [FloatCodec] in
theorem party (h : st.Turns I rs s) : s.party = st.party :=
  funext fun guid ↦ by rw [Instance.party, Instance.party, h.answers.self guid]

end Instance.Turns

section

variable (hI : Kept A I) (henv : A env)

include hI henv

/-- One operation, if the mutex can be taken. -/
theorem opStep_turns (hst : st.Wired) {op : Operation} (hclients : op.changesClients = false)
    (henabled : op.Enabled st) :
    Ends (opStep env st op) (st.Turns I (if st.mutexFree then op.requests st.party else []))
      fun _ ↦ True := by
  rw [opStep, Instance.withMutex]
  split
  · next hfree =>
    have hfollows : Follows .all { st with mutexFree := false }
        (op.run env { st with mutexFree := false }) id _ :=
      Operation.follows hclients (henabled.taken false) (.all env _ op)
    have hanswers : Ends (op.run env { st with mutexFree := false })
        (st.Answers (op.requests st.party)) fun _ ↦ True :=
      (@Operation.run_answers { st with mutexFree := false } _ env op hst hclients
        (henabled.taken false)).imp fun _ h ↦ ⟨h.broker, h.self⟩
    have hkeeps := hI.run henv hst henabled
    refine Ends.bind (((hanswers.and hfollows).and hkeeps).mono (fun _ ↦ id) fun _ _ ↦ trivial)
      fun s hs ↦ ?_
    obtain ⟨⟨hs, hm, -⟩, hkeeps⟩ := hs
    exact ⟨⟨hs.broker, hs.self⟩, hfree.symm, hm.changes.wired hst, fun _ ↦ hm.mem_clients, hkeeps⟩
  -- the mutex was taken: nothing is done, and nothing counts as asked for
  · exact .refl hI hst

/-- The operations of a frame. -/
theorem foldlM_opStep_turns (hst : st.Wired) (hguid : guid ∈ st.clients) {ops : List Operation}
    (hops : ∀ op ∈ ops, op.changesClients = false ∧ ∀ s : Instance, guid ∈ s.clients →
      op.Enabled s) :
    Ends (ops.foldlM (opStep env) st)
      (st.Turns I (if st.mutexFree then ops.flatMap (·.requests st.party) else []))
      fun _ ↦ True := by
  induction ops generalizing st with
  | nil =>
    rw [List.flatMap_nil, ite_self]
    exact .refl hI hst
  | cons op ops ih =>
    obtain ⟨hclients, henabled⟩ := hops op List.mem_cons_self
    refine Ends.bind (opStep_turns hI henv hst hclients (henabled st hguid)) fun s hs ↦ ?_
    refine (ih hs.wired ((hs.clients guid).2 hguid) fun op hop ↦
      hops op (List.mem_cons_of_mem _ hop)).imp fun s' hs' ↦ ?_
    have hboth := hs.trans hs'
    rw [hs.mutexFree, hs.party] at hboth
    split at hboth <;> rename_i hfree
    · rwa [if_pos hfree, List.flatMap_cons]
    · rwa [if_neg hfree]

/-- The messages of a text frame, in order. -/
theorem handleText_turns (hst : st.Wired) (hguid : guid ∈ st.clients)
    (messages : List ClientMessage) : Ends (handleText env guid messages st)
      (st.Turns I (if st.mutexFree then messages.flatMap (·.requests (st.party guid)) else []))
      fun _ ↦ True := by
  -- a text frame is its messages and an end, each with the mutex for itself
  rw [handleText, if_pos hguid, handleMessages_eq]
  have hframe := @foldlM_opStep_turns _ env st guid A I hI henv hst hguid
    (messages.map (.message guid) ++ [.textEnd guid]) fun op hop ↦ ?_
  · rwa [List.flatMap_append, List.flatMap_map, List.flatMap_singleton, Operation.requests,
      List.append_nil] at hframe
  · rcases List.mem_append.1 hop with hop | hop
    · obtain ⟨m, -, rfl⟩ := List.mem_map.1 hop
      exact ⟨rfl, fun _ ↦ id⟩
    · rw [List.mem_singleton.1 hop]
      exact ⟨rfl, fun _ ↦ id⟩

/-- The values of a binary frame, in order; a measurement is none of them. -/
theorem handleBinary_turns (hst : st.Wired) (hguid : guid ∈ st.clients)
    (messages : List BinaryMessage) : Ends (handleBinary env guid messages st)
      (st.Turns I (if st.mutexFree then valueRequests (st.party guid) messages else []))
      fun _ ↦ True := by
  induction messages generalizing st with
  | nil =>
    rw [valueRequests, List.filter_nil, List.map_nil, ite_self]
    exact .refl hI hst
  | cons m messages ih =>
    rw [handleBinary]
    split
    · next hrtt =>
      have hnone : valueRequests (st.party guid) (m :: messages) =
          valueRequests (st.party guid) messages := by
        rw [valueRequests, List.filter_cons_of_neg (by simpa using hrtt), valueRequests]
      rw [hnone]
      -- an update with id -1 is answered before the mutex is tried
      refine (@ih { st with rttReplies := st.rttReplies ++ [(guid, rttReply env st m)] } hst
        hguid).imp fun s hs ↦ ?_
      have hreply : Upholds I st []
          { st with rttReplies := st.rttReplies ++ [(guid, rttReply env st m)] } :=
        hI.keeps rfl rfl rfl
      have hkeeps := hreply.trans hs.keeps
      exact ⟨⟨hs.answers.broker, hs.answers.self⟩, hs.mutexFree, hs.wired, hs.clients, hkeeps⟩
    · next hrtt =>
      split
      · next hfree =>
        refine Ends.bind (@opStep_turns _ env st A I hI henv hst (.valueUpdate guid m) rfl hguid)
          fun s hs ↦ ?_
        refine (ih hs.wired ((hs.clients guid).2 hguid)).imp fun s' hs' ↦ ?_
        have hboth := hs.trans hs'
        rw [hs.mutexFree, hs.party, if_pos hfree, if_pos hfree] at hboth
        rwa [valueRequests, List.filter_cons_of_pos (by simpa using hrtt)]
      · exact .refl hI hst

end

/-- Values under a guid that is no client's are not heard, and the first takes the mutex. -/
theorem handleBinary_unheard (hguid : guid ∉ st.clients) (messages : List BinaryMessage) :
    Ends (handleBinary env guid messages st) (fun s ↦ s.topics = st.topics ∧
      s.clients = st.clients ∧ s.thisClient = st.thisClient ∧
      s.mutexFree = (st.mutexFree && !messages.any (·.id ≠ -1))) fun _ ↦ True := by
  induction messages generalizing st with
  | nil => exact ⟨rfl, rfl, rfl, by rw [List.any_nil, Bool.not_false, Bool.and_true]⟩
  | cons m messages ih =>
    rw [handleBinary, List.any_cons]
    split
    · next hrtt =>
      rw [decide_eq_false (by simpa using hrtt), Bool.false_or]
      exact @ih { st with rttReplies := st.rttReplies ++ [(guid, rttReply env st m)] } hguid
    · next hrtt =>
      rw [decide_eq_true hrtt, Bool.true_or, Bool.not_true, Bool.and_false]
      split
      -- nobody has the guid: the handler returns early and keeps the mutex
      · refine (@ih { st with mutexFree := false } hguid).imp fun s hs ↦ ?_
        exact ⟨hs.1, hs.2.1, hs.2.2.1, hs.2.2.2.trans (Bool.false_and _)⟩
      · next hfree => exact ⟨rfl, rfl, rfl, by simpa using hfree⟩

/-! ### Events -/

omit [FloatCodec] in
/-- A state whose broker, local client and mutex are those of a hub. -/
theorem hub_eq {h : Hub} (hbroker : s.broker = h.broker) (hself : s.isSelf = h.self)
    (hstuck : (!s.mutexFree) = h.stuck) : s.hub = h := by
  rw [Instance.hub, hbroker, hself, hstuck]

omit [FloatCodec] in
/-- With the mutex taken nobody is heard. -/
theorem hub_requests (e : Event) :
    st.hub.requests e = if st.mutexFree then st.hub.asks e else [] := by
  rw [Hub.requests, Instance.hub]
  cases st.mutexFree <;> rfl

omit [FloatCodec] in
/-- The hub knows the guids in the map of clients. -/
theorem knows_iff (hst : st.Wired) : st.hub.knows guid = true ↔ guid ∈ st.clients := by
  show (st.sessionOf (st.party guid)).isSome = true ↔ _
  constructor
  -- a guid that is no client's has no session
  · intro hsome
    by_contra hguid
    have hnone := AList.lookup_eq_none.2 hguid
    rw [Instance.party, if_neg (by simp [Instance.isSelf, hnone]), Instance.sessionOf,
      Instance.remote, hnone] at hsome
    cases hsome
  · intro hguid
    obtain ⟨d, hd⟩ := hst.exists_behind hguid
    rw [Instance.sessionOf_party hd]
    rfl

omit [FloatCodec] in
/-- Nothing was done that the broker knows of. -/
theorem answers_nothing (htopics : s.topics = st.topics) (hclients : s.clients = st.clients)
    (hself : s.thisClient = st.thisClient) : st.Answers [] s := by
  refine .nil (topicOf_congr htopics) (fun p ↦ ?_) fun guid ↦ ?_
  · cases p with
    | server => exact congrArg (fun d ↦ some d.session) hself
    | client guid =>
      rw [Instance.sessionOf, Instance.sessionOf, Instance.remote, Instance.remote, hclients]
  · rw [Instance.isSelf, Instance.isSelf, hclients]

/-- The event is a step of the broker, and what `I` says is kept. -/
def Instance.Steps (I : List Request → Instance → Prop) (st : Instance) (e : Event)
    (s : Instance) : Prop :=
  s.hub = st.hub.step e ∧ Upholds I st (st.hub.requests e) s

omit [FloatCodec] in
/-- An event that leaves the mutex and the guid of the local client as they are. -/
theorem Instance.Turns.steps {e : Event} (h : st.Turns I (st.hub.requests e) s)
    (hself : st.hub.selfAfter e = st.isSelf) (hlocks : st.hub.locks e = false) :
    st.Steps I e s := by
  refine ⟨hub_eq h.answers.broker ((funext h.answers.self).trans hself.symm) ?_, h.keeps⟩
  rw [Hub.step, hlocks, Bool.or_false, h.mutexFree]
  rfl

section

variable (hI : Kept A I) (henv : A env)

include hI

/-- An event that changes no topic and no client. -/
theorem Kept.steps {e : Event} (hasks : st.hub.asks e = [] ∨ st.mutexFree = false)
    (htopics : s.topics = st.topics) (hclients : s.clients = st.clients)
    (hthis : s.thisClient = st.thisClient) (hself : st.hub.selfAfter e = st.isSelf)
    (hstuck : (!s.mutexFree) = (!st.mutexFree || st.hub.locks e)) : st.Steps I e s := by
  have hrequests : st.hub.requests e = [] := by
    rw [hub_requests]
    rcases hasks with hnone | hfree
    · rw [hnone, ite_self]
    · rw [if_neg (by simp [hfree])]
  have hanswers := answers_nothing htopics hclients hthis
  refine ⟨hub_eq ?_ ((funext hanswers.self).trans hself.symm) hstuck, ?_⟩
  · rw [Hub.step, hrequests]
    exact hanswers.broker
  · rw [hrequests]
    exact hI.keeps htopics hclients hthis

include henv

/-- A call of the local interface. -/
theorem opStep_steps (hst : st.Wired) {op : Operation} (hclients : op.changesClients = false)
    (henabled : op.Enabled st) {e : Event} (hasks : st.hub.asks e = op.requests st.party)
    (hself : st.hub.selfAfter e = st.isSelf) (hlocks : st.hub.locks e = false) :
    Ends (st.withMutex (op.run env)) (st.Steps I e) fun _ ↦ True := by
  refine (@opStep_turns _ env st A I hI henv hst op hclients henabled).imp fun s hs ↦ ?_
  rw [← hasks, ← hub_requests] at hs
  exact hs.steps hself hlocks

/-- A client comes. -/
theorem clientConnected_steps (hst : st.Wired) (entry : ClientEntry) :
    Ends (clientConnected env entry st) (st.Steps I (.connect entry)) fun _ ↦ True := by
  have hnolock : (!st.mutexFree) = (!st.mutexFree || st.hub.locks (.connect entry)) :=
    (Bool.or_false _).symm
  rw [clientConnected]
  split
  · next hrtt =>
    exact hI.steps (.inl (if_pos hrtt)) rfl rfl rfl (if_pos (.inr hrtt)) hnolock
  · next hrtt =>
    cases requestedName entry.requestedPath with
    | error e => trivial
    | ok requested =>
      rw [ok_bind, Instance.withMutex]
      cases hfree : st.mutexFree with
      | true =>
        have hrequests := @hub_requests st (.connect entry)
        rw [hfree, if_pos rfl, Hub.asks, if_neg hrtt] at hrequests
        have hself : st.hub.selfAfter (.connect entry) =
            Function.update st.isSelf entry.guid false := by
          refine if_neg ?_
          rintro (h | h)
          · rw [Instance.hub, hfree] at h
            cases h
          · exact hrtt h
        have hregister : Upholds I st [] (st.register entry) := hI.keeps rfl rfl rfl
        have hkeeps := @Kept.run _ env (st.register entry) A I hI henv hst
          (.connect entry requested) trivial
        refine Ends.bind (((handleConnect_answers entry requested).and hkeeps).mono (fun _ ↦ id)
          fun _ _ ↦ trivial) fun s hs ↦ ?_
        obtain ⟨⟨hbroker, hothers⟩, hkeeps⟩ := hs
        refine Ends.ok_iff.2 ⟨hub_eq ?_ (hothers.trans hself.symm) ?_, ?_⟩
        · rw [Hub.step, hrequests]
          exact hbroker
        · rw [Hub.step]
          show false = (!st.mutexFree || false)
          rw [hfree]
          rfl
        · rw [hrequests]
          exact hregister.trans hkeeps
      | false =>
        have hlocked : st.hub.stuck = true := congrArg (!·) hfree
        exact hI.steps (.inr hfree) rfl rfl rfl (if_pos (.inl hlocked)) (by rw [hfree]; rfl)

/-- A client goes, or a guid that is no client's leaves the mutex taken. -/
theorem clientDisconnected_steps (hst : st.Wired) :
    Ends (clientDisconnected env guid st) (st.Steps I (.disconnect guid)) fun _ ↦ True := by
  have hknows : st.hub.knows guid = true ↔ guid ∈ st.clients := knows_iff hst
  have hlocks : st.hub.locks (.disconnect guid) = !st.hub.knows guid := rfl
  rw [clientDisconnected]
  split
  · next hfree =>
    split
    · next hguid =>
      have hrequests := @hub_requests st (.disconnect guid)
      rw [if_pos hfree, Hub.asks, if_pos (hknows.2 hguid)] at hrequests
      have hkeeps := @Kept.run _ env st A I hI henv hst (.disconnect guid) hguid
      rw [Instance.withMutex, if_pos hfree]
      refine Ends.bind (((@handleDisconnect_answers { st with mutexFree := false } guid _ env
        hguid).and hkeeps).mono (fun _ ↦ id) fun _ _ ↦ trivial) fun s hs ↦ ?_
      obtain ⟨hanswers, hkeeps⟩ := hs
      refine Ends.ok_iff.2 ⟨hub_eq ?_ (funext hanswers.self) ?_, ?_⟩
      · rw [Hub.step, hrequests]
        exact hanswers.broker
      · rw [Hub.step, hlocks, hknows.2 hguid]
        show false = (!st.mutexFree || false)
        rw [hfree]
        rfl
      · rw [hrequests]
        exact hkeeps
    · next hguid =>
      have hunknown : st.hub.knows guid = false :=
        Bool.eq_false_iff.2 fun h ↦ hguid (hknows.1 h)
      refine Ends.ok_iff.2 (hI.steps (.inl (if_neg ?_)) rfl rfl rfl rfl ?_)
      · rw [hunknown]
        exact Bool.false_ne_true
      · rw [hlocks, hunknown]
        exact (Bool.or_true _).symm
  · next hfree =>
    have hfree : st.mutexFree = false := Bool.eq_false_iff.2 hfree
    refine Ends.ok_iff.2 (hI.steps (.inr hfree) rfl rfl rfl rfl ?_)
    rw [hfree]
    rfl

/-- Every event is a step of the broker. -/
theorem step_steps (hst : st.Wired) (e : Event) :
    Ends (step st (env, e)) (st.Steps I e) fun _ ↦ True := by
  cases e with
  | connect entry => exact clientConnected_steps hI henv hst entry
  | disconnect guid => exact clientDisconnected_steps hI henv hst
  | removeConnection guid =>
    exact hI.steps (.inl rfl) rfl rfl rfl rfl (Bool.or_false _).symm
  | text guid messages =>
    have hknows : st.hub.knows guid = true ↔ guid ∈ st.clients := knows_iff hst
    have hasks : st.hub.asks (.text guid messages) =
        if st.hub.knows guid then messages.flatMap (·.requests (st.party guid)) else [] := rfl
    show Ends (handleText env guid messages st) _ _
    by_cases hguid : guid ∈ st.clients
    · rw [if_pos (hknows.2 hguid)] at hasks
      refine (handleText_turns hI henv hst hguid messages).imp fun s hs ↦ ?_
      rw [← hasks, ← hub_requests] at hs
      exact hs.steps rfl rfl
    · rw [if_neg fun h ↦ hguid (hknows.1 h)] at hasks
      rw [handleText, if_neg hguid]
      exact hI.steps (.inl hasks) rfl rfl rfl rfl (Bool.or_false _).symm
  | binary guid messages =>
    have hknows : st.hub.knows guid = true ↔ guid ∈ st.clients := knows_iff hst
    have hasks : st.hub.asks (.binary guid messages) =
        if st.hub.knows guid then valueRequests (st.party guid) messages else [] := rfl
    have hlocks : st.hub.locks (.binary guid messages) =
        (!st.hub.knows guid && messages.any (·.id ≠ -1)) := rfl
    show Ends (handleBinary env guid messages st) _ _
    by_cases hguid : guid ∈ st.clients
    · rw [hknows.2 hguid] at hasks hlocks
      refine (handleBinary_turns hI henv hst hguid messages).imp fun s hs ↦ ?_
      rw [if_pos rfl] at hasks
      rw [← hasks, ← hub_requests] at hs
      exact hs.steps rfl hlocks
    · have hunknown : st.hub.knows guid = false := Bool.eq_false_iff.2 fun h ↦ hguid (hknows.1 h)
      rw [hunknown] at hasks hlocks
      refine (handleBinary_unheard hguid messages).imp fun s hs ↦ ?_
      refine hI.steps (.inl hasks) hs.1 hs.2.1 hs.2.2.1 rfl ?_
      rw [hs.2.2.2, hlocks, Bool.not_and, Bool.not_not, Bool.not_false, Bool.true_and]
  | subscribe topics subuid options =>
    exact @opStep_steps _ env st A I hI henv hst (.subscribe topics subuid options) rfl trivial _
      rfl rfl rfl
  | unsubscribe subuid =>
    exact @opStep_steps _ env st A I hI henv hst (.unsubscribe subuid) rfl trivial _ rfl rfl rfl
  | publish name pubuid type properties =>
    exact @opStep_steps _ env st A I hI henv hst (.publish name pubuid type properties) rfl trivial
      _ rfl rfl rfl
  | unpublish pubuid =>
    exact @opStep_steps _ env st A I hI henv hst (.unpublish pubuid) rfl trivial _ rfl rfl rfl
  | setProperties name update =>
    exact @opStep_steps _ env st A I hI henv hst (.setProperties name update) rfl trivial _ rfl rfl
      rfl
  | updateTopic id value time =>
    exact @opStep_steps _ env st A I hI henv hst
      (.updateTopic id value (time.getD (getServerTime env st))) rfl trivial _ rfl rfl rfl
  | flush => exact @opStep_steps _ env st A I hI henv hst .flush rfl trivial _ rfl rfl rfl

end

/-! ### Runs -/

/-- The pointers of the map of clients stay good ones. -/
theorem steps_wired (hst : st.Wired) (events : List (Env × Event)) :
    Ends (events.foldlM NetworkTables.step st) Instance.Wired fun _ ↦ True := by
  refine (@steps_changes _ .all st events ?_).imp fun s hs ↦ hs.wired hst
  exact Guarded.of_forall_mem (fun e _ s ↦ Event.Meets.of_forall (fun st op _ ↦ .all _ _ op) s) st

/-- Some events of a run are steps of the broker, and what `I` says is kept. -/
theorem steps_follow (hI : Kept A I) (hst : st.Wired) {events : List (Env × Event)}
    (hevents : ∀ e ∈ events, A e.1) : Ends (events.foldlM NetworkTables.step st)
      (fun s ↦ s.hub = st.hub.run (events.map Prod.snd) ∧
        Upholds I st (st.hub.requestsOf (events.map Prod.snd)) s) fun _ ↦ True := by
  induction events generalizing st with
  | nil => exact ⟨rfl, hI.refl st⟩
  | cons e events ih =>
    obtain ⟨henv, hevents⟩ := List.forall_mem_cons.1 hevents
    have hwired := steps_wired hst [e]
    rw [List.foldlM_cons, funext fun s ↦ List.foldlM_nil, bind_pure] at hwired
    refine Ends.bind (((step_steps hI henv hst e.2).and hwired).mono (fun _ ↦ id)
      fun _ _ ↦ trivial) fun s hs ↦ (ih hs.2 hevents).imp fun s' hs' ↦ ?_
    obtain ⟨⟨hhub, hkeeps⟩, -⟩ := hs
    rw [hhub] at hs'
    exact ⟨hs'.1, hkeeps.trans hs'.2⟩

/-- The state of the broker after some events of a run. -/
theorem steps_hub (hst : st.Wired) (events : List (Env × Event)) :
    Ends (events.foldlM NetworkTables.step st)
      (fun s ↦ s.hub = st.hub.run (events.map Prod.snd)) fun _ ↦ True :=
  (steps_follow .trivially hst fun _ _ ↦ trivial).imp fun _ hs ↦ hs.1

omit [FloatCodec] in
/-- The state before the start. -/
theorem Instance.initial_hub : Instance.initial.hub = Hub.initial := by
  have hlookup (guid : Guid) : Instance.initial.clients.lookup guid =
      if guid = 0 then some .self else none := by
    rw [Instance.initial, AList.lookup_insert_ite]
    rfl
  have hsessions : Instance.initial.sessionOf = Hub.initial.broker.sessions := by
    funext p
    cases p with
    | server => rfl
    | client guid =>
      have hremote : Instance.initial.remote guid = none := by
        rw [Option.eq_none_iff_forall_ne_some]
        intro d hd
        rw [Instance.remote_eq_some, hlookup] at hd
        split at hd <;> cases hd
      exact congrArg (Option.map _) hremote
  refine hub_eq (congrArg₂ PubSub.Broker.mk (funext fun name ↦ topicOf_eq_none rfl) hsessions)
    (funext fun guid ↦ ?_) rfl
  rw [Instance.isSelf, hlookup]
  show _ = decide (guid = 0)
  split
  · next heq => exact (decide_eq_true rfl).trans (decide_eq_true heq).symm
  · next hne => exact (decide_eq_false (by simp)).trans (decide_eq_false hne).symm

/-- The start makes meta topics alone, of which the broker knows nothing. -/
theorem startServer_hub (start : Env) :
    Ends (startServer start) (fun st ↦ st.hub = Hub.initial ∧ st.Wired) fun _ ↦ True := by
  have hmoves : Follows .all .initial (startServer start) id _ :=
    startServer_follows (.inl trivial) (fun _ ↦ trivial) fun _ _ ↦ trivial
  have hwired : Ends (startServer start >>= pure) Instance.Wired fun _ ↦ True := run_wired start []
  rw [bind_pure] at hwired
  refine (((startServer_answers start).and hmoves).and hwired).mono (fun st hst ↦ ?_)
    fun _ _ ↦ trivial
  obtain ⟨⟨hanswers, hm, -⟩, hst⟩ := hst
  refine ⟨?_, hst⟩
  rw [← Instance.initial_hub]
  refine hub_eq hanswers.broker (funext hanswers.self) ?_
  have hframe : st = _ := Moves.frame hm
  rw [hframe]
  rfl

/-- An invariant that knows the requests holds after every run. -/
theorem run_follow (hI : Kept A I) {start : Env}
    (hstart : Ends (startServer start) (I []) fun _ ↦ True) {events : List (Env × Event)}
    (hevents : ∀ e ∈ events, A e.1) : Ends (run start events)
      (fun st ↦ st.hub = Hub.initial.run (events.map Prod.snd) ∧
        I (Hub.initial.requestsOf (events.map Prod.snd)) st) fun _ ↦ True := by
  refine Ends.bind (((startServer_hub start).and hstart).mono (fun _ ↦ id) fun _ _ ↦ trivial)
    fun st hst ↦ ?_
  obtain ⟨⟨hhub, hst⟩, hI₀⟩ := hst
  refine (steps_follow hI hst hevents).imp fun s hs ↦ ?_
  rw [hhub] at hs
  exact ⟨hs.1, hs.2 [] hI₀⟩

/-- What the server keeps of topics, subscriptions and publishers, and whom it hears, depends on the
events alone. -/
theorem run_hub (start : Env) (events : List (Env × Event)) :
    Ends (run start events) (fun st ↦ st.hub = Hub.initial.run (events.map Prod.snd))
      fun _ ↦ True :=
  (run_follow .trivially (Ends.of_forall (fun _ ↦ trivial) fun _ ↦ trivial) fun _ _ ↦ trivial).imp
    fun _ hst ↦ hst.1

/-- Every run answers the requests of its events. -/
theorem run_answered (start : Env) (events : List (Env × Event)) :
    Ends (run start events) (fun st ↦ st.broker =
      Hub.initial.broker.answer (Hub.initial.requestsOf (events.map Prod.snd))) fun _ ↦ True :=
  (run_hub start events).imp fun _ hst ↦ (congrArg Hub.broker hst).trans (Hub.broker_run _ _)

/-- **The server refines the broker.** After every run it keeps of topics, subscriptions and
publishers what a broker keeps that has answered what the events asked for, it knows the clients
that have joined, and it has given the mutex back unless an event has left it taken. -/
theorem run_refines (start : Env) (events : List (Env × Event)) :
    Ends (run start events) (fun st ↦
      st.broker = Hub.initial.broker.answer (Hub.initial.requestsOf (events.map Prod.snd)) ∧
        (∀ guid, guid ∈ st.clients ↔
          (Hub.initial.run (events.map Prod.snd)).knows guid = true) ∧
        st.mutexFree = !(Hub.initial.run (events.map Prod.snd)).stuck) fun _ ↦ True := by
  refine (((run_answered start events).and (run_hub start events)).and
    (run_wired start events)).mono (fun st hst ↦ ?_) fun _ _ ↦ trivial
  obtain ⟨⟨hbroker, hhub⟩, hst⟩ := hst
  refine ⟨hbroker, fun guid ↦ ?_, ?_⟩
  · rw [← hhub, knows_iff hst]
  · rw [← hhub]
    exact (Bool.not_not _).symm

/-- **A session is its client's own.** Whatever the others do, a client has the subscriptions and
the publishers that its own requests made, in their order, since the server was started. -/
theorem run_session (start : Env) (events : List (Env × Event)) (guid : Guid) :
    Ends (run start events) (fun st ↦ st.sessionOf (.client guid) =
      ((Hub.initial.requestsOf (events.map Prod.snd)).filter (·.client = .client guid)).foldl
        (fun session r ↦ r.ask session) none) fun _ ↦ True := by
  refine (run_answered start events).imp fun st hbroker ↦ ?_
  show st.broker.sessions (Party.client guid) = _
  rw [hbroker]
  exact PubSub.Broker.sessions_run _ (Party.client guid)

omit [FloatCodec] in
/-- A value that is assigned another of its API type is read like the other, by its own type. -/
theorem content_assign {v w : NTDataValue} (hv : v.type ≠ .unassigned) :
    (v.assign w).content = if v.type.apiType = w.getAPIType
      then ({ w with type := v.type } : NTDataValue).content else v.content := by
  have hassign : v.assign w = if v.type.apiType = w.getAPIType then v.copyMember w else v := by
    have hvalid : v.isValid := decide_eq_true hv
    rw [NTDataValue.assign, if_pos hvalid, NTDataValue.getAPIType]
  rw [hassign]
  split
  · next hapi =>
    have htype := NTDataValue.type_copyMember v w
    have hread : ({ w with type := v.type } : NTDataValue).type = v.type := rfl
    generalize hw' : ({ w with type := v.type } : NTDataValue) = w' at hread
    rcases NTDataValue.apiType_cases hapi with heq | ⟨hint, hw⟩ | ⟨huint, hw⟩ | ⟨hstr, hw⟩ |
      ⟨hbin, hw⟩
    · rw [NTDataValue.content_copyMember_of_type heq, ← hw', heq]
    · rw [NTDataValue.content_of_int (htype.trans hint), NTDataValue.content_of_int
        (hread.trans hint), NTDataValue.i, NTDataValue.i,
        NTDataValue.bits_copyMember (by rw [hw]; rfl), ← hw']
    · rw [NTDataValue.content_of_uint (htype.trans huint), NTDataValue.content_of_uint
        (hread.trans huint), NTDataValue.bits_copyMember (by rw [hw]; rfl), ← hw']
    · rw [NTDataValue.content_of_str (by rw [htype, hstr]), NTDataValue.content_of_str
        (by rw [hread, hstr]), NTDataValue.str_copyMember hw, ← hw']
    · rw [NTDataValue.content_of_bin (by rw [htype, hbin]), NTDataValue.content_of_bin
        (by rw [hread, hbin]), NTDataValue.bin_copyMember hw, ← hw']
  · rfl

/-- **The last writer wins.** A topic in the map was made by the first request of a client to
publish it, before which it was not there, and it was assigned, in order, the values put to it since
by clients that published it then. If it was published with a type it still has that type, and it
reads as the last of these values that has the API type of the topic, by the topic's type, or as it
was made if there is none. -/
theorem run_topic (start : Env) (events : List (Env × Event)) :
    Ends (run start events) (fun st ↦ ∀ (name : Str) (t : TopicAt name), name.isMeta = false →
      st.topics.lookup name = some (some t) → ∃ earlier c uid made later,
        Hub.initial.requestsOf (events.map Prod.snd) =
          earlier ++ .publish c uid name made :: later ∧
        (Hub.initial.broker.answer earlier).topics name = none ∧
        ((Hub.initial.broker.answer earlier).sessions c).isSome ∧
        ∃ puts, puts = PubSub.Broker.puts NTDataValue.assign Str.isMeta
            (Hub.initial.broker.answer (earlier ++ [.publish c uid name made])) later name ∧
          t.1.value = puts.foldl NTDataValue.assign made.value ∧
          (made.value.isValid → t.1.value.type = made.value.type ∧ t.1.value.content =
            ((puts.filter (made.value.type.apiType = ·.getAPIType)).getLast?).elim
              made.value.content fun w ↦
                ({ w with type := made.value.type } : NTDataValue).content)) fun _ ↦ True := by
  refine (run_answered start events).imp fun st hbroker name t hmeta ht ↦ ?_
  have htopic : st.broker.topics name = some ⟨t.1.value, t.1.properties⟩ := by
    show st.topicOf name = _
    rw [Instance.topicOf, if_neg (by simp [hmeta]), ht]
    rfl
  rw [hbroker] at htopic
  obtain ⟨earlier, c, uid, made, later, hrequests, hnew, -, hjoined, hvalue⟩ :=
    PubSub.Broker.topics_run_origin rfl htopic
  refine ⟨earlier, c, uid, made, later, hrequests, hnew, hjoined, _, rfl, hvalue, fun hvalid ↦ ?_⟩
  have hsettled : made.value.type ≠ .unassigned := of_decide_eq_true hvalid
  have hshape (v w : NTDataValue) (hv : v.type ≠ .unassigned) : (v.assign w).type = v.type :=
    NTDataValue.type_assign (decide_eq_true hv) w
  have hvalue : t.1.value = _ := hvalue
  rw [hvalue]
  refine ⟨@PubSub.shape_foldl _ _ _ _ (· ≠ .unassigned) hshape _ hsettled _, ?_⟩
  refine @PubSub.read_foldl NTDataValue NTDataType _ _ _ _
    (fun type w ↦ type.apiType = w.getAPIType) (fun type w ↦ { w with type }.content)
    (· ≠ .unassigned) hshape (fun v w hv ↦ ?_) _ hsettled _
  rw [content_assign hv]
  simp

end

end NetworkTables
