import PicoRadio.NetworkTables.HandlerMoves

/-!
# Operations and runs

What a handler does while it holds the mutex is an **operation**. An event of the server is some
bookkeeping and a few operations: one for a call of the local interface, one for each message of a
frame, and one at the end of a text frame.

`Operation.Permitted` collects what an operation relies on, and under it the operation is a sequence
of moves, with a client that comes or goes. A run is then one long such sequence (`run_ends`): an
invariant of the server is checked for moves, for a client that joins and for a client that leaves,
and it holds in every state a run can reach.

What a claim asks of the operations of a run is a guard on operations, each in the state it starts
in (`Event.Meets`); the messages of one frame are operations one after the other.
-/

namespace NetworkTables

open Relation

/-- What a handler does with the mutex taken. -/
inductive Operation
  | connect (entry : ClientEntry) (name : Str)
  | disconnect (guid : Guid)
  | message (guid : Guid) (message : ClientMessage)
  | textEnd (guid : Guid)
  | valueUpdate (guid : Guid) (message : BinaryMessage)
  | subscribe (topics : List Str) (subuid : Int32) (options : SubscriptionOptions)
  | unsubscribe (subuid : Int32)
  | publish (name : Str) (pubuid : Int32) (type : NTDataType) (properties : TopicProperties)
  | unpublish (pubuid : Int32)
  | setProperties (name : Str) (update : TopicProperties)
  | updateTopic (id : Int32) (value : NTDataValue) (time : UInt64)
  | flush

section

variable [FloatCodec]

/-- Run an operation. -/
def Operation.run (env : Env) : Operation → Instance → Except Fault Instance
  | connect entry name => handleConnect env entry name
  | disconnect guid => handleDisconnect env guid
  | message guid m => handleMessage env guid m
  | textEnd guid => handleTextEnd env guid
  | valueUpdate guid m => handleValue env guid m
  | subscribe topics subuid options => localSubscribe env topics subuid options
  | unsubscribe subuid => localUnsubscribe env subuid
  | publish name pubuid type properties =>
    fun st ↦ Prod.fst <$> localPublish env name pubuid type properties st
  | unpublish pubuid => localUnpublish env pubuid
  | setProperties name update => localSetProperties env name update
  | updateTopic id value time => localUpdateTopic env id value time
  | flush => flushBinary env

variable {K : Allow} {env : Env} {st : Instance}

/-! ### Every operation -/

namespace Operation

omit [FloatCodec] in
/-- The client the operation is about is in the map. -/
def Enabled (st : Instance) : Operation → Prop
  | disconnect guid | message guid _ | textEnd guid | valueUpdate guid _ => guid ∈ st.clients
  | connect _ _ | subscribe _ _ _ | unsubscribe _ | publish _ _ _ _ | unpublish _
  | setProperties _ _ | updateTopic _ _ _ | flush => True

omit [FloatCodec] in
/-- Every uid and every topic that the operation looks up with a subscript operator is known. -/
def Known (st : Instance) : Operation → Prop
  | message guid (.unsubscribe subuid) =>
    ∀ d, st.Behind guid d → ∃ sub, d.subscriptions.lookup subuid = some (some sub)
  | message guid (.unpublish pubuid) =>
    ∀ d, st.Behind guid d → ∃ pub, d.publishers.lookup pubuid = some (some pub)
  | message _ (.setproperties name _ _ _) => name ∈ st.topics
  | message _ (.subscribe _ _ _) | message _ (.publish _ _ _ _) | message _ .unknown => True
  | valueUpdate guid m =>
    ∀ d, st.Behind guid d → ∃ pub, d.publishers.lookup m.id.toInt32 = some (some pub)
  | unsubscribe subuid => ∃ sub, st.thisClient.subscriptions.lookup subuid = some (some sub)
  | unpublish pubuid => ∃ pub, st.thisClient.publishers.lookup pubuid = some (some pub)
  | setProperties name _ => name ∈ st.topics
  | updateTopic id _ _ => ∃ pub, st.thisClient.publishers.lookup id = some (some pub)
  | connect _ _ | disconnect _ | textEnd _ | subscribe _ _ _ | publish _ _ _ _ | flush => True

omit [FloatCodec] in
/-- A local publication is of a topic that exists or that the local client hears of. -/
def Numbered (st : Instance) : Operation → Prop
  | publish name _ _ _ => name ∈ st.topics ∨ st.HearsOf name
  | connect _ _ | disconnect _ | message _ _ | textEnd _ | valueUpdate _ _ | subscribe _ _ _
  | unsubscribe _ | unpublish _ | setProperties _ _ | updateTopic _ _ _ | flush => True

omit [FloatCodec] in
/-- The topics the operation may make: any meta topic, and the topic it names. -/
def Creates (name : Str) : Operation → Prop
  | message _ (.publish name' _ _ _) | message _ (.setproperties name' _ _ _)
  | publish name' _ _ _ | setProperties name' _ => name.isMeta ∨ name = name'
  | message _ (.subscribe _ _ _) | message _ (.unsubscribe _) | message _ (.unpublish _)
  | message _ .unknown | connect _ _ | disconnect _ | textEnd _ | valueUpdate _ _
  | subscribe _ _ _ | unsubscribe _ | unpublish _ | updateTopic _ _ _ | flush => name.isMeta

omit [FloatCodec] in
/-- The topics the operation may give a value. The messages of clients that change what a client
asks for may refresh any meta topic. -/
def Assigns (st : Instance) (name : Str) : Operation → Prop
  | connect _ _ => name = clientsName ∨ ∃ n, name = clientSubName n ∨ name = clientPubName n
  | disconnect _ => name = clientsName
  | message _ (.subscribe _ _ _) | message _ (.publish _ _ _ _) | message _ (.unsubscribe _)
  | message _ (.unpublish _) => True
  | message _ (.setproperties _ _ _ _) | message _ .unknown => False
  | valueUpdate guid m => ∃ d pub, st.Behind guid d ∧
    d.publishers.lookup m.id.toInt32 = some (some pub) ∧ pub.topic = name
  | subscribe _ _ _ | unsubscribe _ => name = serverSubName
  | publish name' _ _ _ =>
    name = serverPubName ∨ name = topicSubName name' ∨ name = topicPubName name'
  | unpublish _ => name = serverPubName
  | updateTopic id _ _ =>
    ∃ pub, st.thisClient.publishers.lookup id = some (some pub) ∧ pub.topic = name
  | textEnd _ | setProperties _ _ | flush => False

omit [FloatCodec] in
/-- What a client subscribes to or publishes changes: the local client (`true`), or one with a
connection (`false`). A message may come under the guid of the local client. -/
def Asks (self : Bool) : Operation → Prop
  | message _ (.subscribe _ _ _) | message _ (.publish _ _ _ _) | message _ (.unsubscribe _)
  | message _ (.unpublish _) => True
  | subscribe _ _ _ | unsubscribe _ | publish _ _ _ _ | unpublish _ => self
  | message _ (.setproperties _ _ _ _) | message _ .unknown | connect _ _ | disconnect _
  | textEnd _ | valueUpdate _ _ | setProperties _ _ | updateTopic _ _ _ | flush => False

omit [FloatCodec] in
/-- A client gets a new subscription. -/
def Subscribes (self : Bool) : Operation → Prop
  | message _ (.subscribe _ _ _) => True
  | subscribe _ _ _ => self
  | message _ (.publish _ _ _ _) | message _ (.unsubscribe _) | message _ (.unpublish _)
  | message _ (.setproperties _ _ _ _) | message _ .unknown | connect _ _ | disconnect _
  | textEnd _ | valueUpdate _ _ | unsubscribe _ | publish _ _ _ _ | unpublish _ | setProperties _ _
  | updateTopic _ _ _ | flush => False

omit [FloatCodec] in
/-- The operation changes the properties of the topic of this name. -/
def Configures (name : Str) : Operation → Prop
  | message _ (.setproperties name' _ _ _) | setProperties name' _ => name = name'
  | message _ (.subscribe _ _ _) | message _ (.publish _ _ _ _) | message _ (.unsubscribe _)
  | message _ (.unpublish _) | message _ .unknown | connect _ _ | disconnect _ | textEnd _
  | valueUpdate _ _ | subscribe _ _ _ | unsubscribe _ | publish _ _ _ _ | unpublish _
  | updateTopic _ _ _ | flush => False

omit [FloatCodec] in
/-- Every meta topic that the operation refreshes is there, or will be when it is looked up. -/
def Ready (env : Env) (st : Instance) : Operation → Prop
  | connect _ _ | disconnect _ => st.HasTopic clientsName
  | message guid (.subscribe _ _ _) | message guid (.unsubscribe _) =>
    (∀ d, st.Behind guid d → st.HasTopic (clientSubName d.name)) ∧
      ∀ name ∈ st.topics, name.isMeta = false → st.HasTopic (topicSubName name)
  | message guid (.publish name _ _ _) =>
    (∀ d, st.Behind guid d → st.HasTopic (clientPubName d.name)) ∧
      (st.HasTopic (topicPubName name) ∨
        name ∉ st.topics ∧ name.isMeta = false ∧
          env.AcceptsTopic st.thisClient.subscriptions name ∧
          env.AcceptsTopic st.thisClient.subscriptions (topicSubName name))
  | message guid (.unpublish pubuid) =>
    (∀ d, st.Behind guid d → st.HasTopic (clientPubName d.name)) ∧
      ∀ d pub, st.Behind guid d → d.publishers.lookup pubuid = some (some pub) →
        st.HasTopic (topicPubName pub.topic)
  | subscribe _ _ _ | unsubscribe _ => st.HasTopic serverSubName
  | publish _ _ _ _ | unpublish _ => st.HasTopic serverPubName
  | message _ (.setproperties _ _ _ _) | message _ .unknown | textEnd _ | valueUpdate _ _
  | setProperties _ _ | updateTopic _ _ _ | flush => True

/-- What `K` must allow for the operation to be a sequence of moves under it. -/
structure Permitted (K : Allow) (env : Env) (st : Instance) (op : Operation) : Prop where
  accepts : K.partly ∨ env.Accepts
  asks : ∀ self, op.Asks self → K.asks self
  subscribes : ∀ self, op.Subscribes self → K.subscribes self
  assigns : ∀ name, op.Assigns st name → K.assigns name
  creates : ∀ name, op.Creates name → K.creates name
  configures : ∀ name, op.Configures name → K.configures name
  known : K.nulls ∨ op.Known st
  published : ∀ guid d uid pub, st.Behind guid d ∨ d = st.thisClient →
    d.publishers.lookup uid = some (some pub) →
    pub.topic ∈ st.topics ∨ K.creates pub.topic ∧ K.nulls
  numbered : K.unnumbered ∨ op.Numbered st
  ready : K.missing ∨ op.Ready env st ∧ ∀ name, K.creates name → op.Creates name

omit [FloatCodec] in
/-- Under `Allow.all` everything is permitted. -/
theorem Permitted.all (env : Env) (st : Instance) (op : Operation) :
    Permitted .all env st op where
  accepts := .inl trivial
  asks _ _ := trivial
  subscribes _ _ := trivial
  assigns _ _ := trivial
  creates _ _ := trivial
  configures _ _ := trivial
  known := .inl trivial
  published _ _ _ _ _ _ := .inr ⟨trivial, trivial⟩
  numbered := .inl trivial
  ready := .inl trivial

omit [FloatCodec] in
theorem Creates.of_isMeta {name : Str} (h : name.isMeta) (op : Operation) : op.Creates name := by
  cases op with
  | message guid m =>
    cases m with
    | publish | setproperties => exact .inl h
    | subscribe | unsubscribe | unpublish | unknown => exact h
  | publish | setProperties => exact .inl h
  | connect | disconnect | textEnd | valueUpdate | subscribe | unsubscribe | unpublish
  | updateTopic | flush => exact h

/-- What an operation leaves behind: the meta topics of a topic it publishes. -/
def Achieves (env : Env) (st s : Instance) : Operation → Prop
  | message _ (.publish name _ _ _) | publish name _ _ _ => Published env name st s
  | message _ (.subscribe _ _ _) | message _ (.unsubscribe _) | message _ (.unpublish _)
  | message _ (.setproperties _ _ _ _) | message _ .unknown | connect _ _ | disconnect _
  | textEnd _ | valueUpdate _ _ | subscribe _ _ _ | unsubscribe _ | unpublish _
  | setProperties _ _ | updateTopic _ _ _ | flush => True

/-- A message of a client is a sequence of moves. -/
theorem message_follows {guid : Guid} {m : ClientMessage} (hguid : guid ∈ st.clients)
    (h : (message guid m).Permitted K env st) :
    Follows K st ((message guid m).run env st) id fun s ↦ (message guid m).Achieves env st s := by
  cases m with
  | subscribe topics subuid options =>
    refine handleSubscribe_follows h.accepts (fun name ↦ h.assigns name trivial)
      (fun self ↦ h.asks self trivial) (fun self ↦ h.subscribes self trivial) hguid
        (fun d hd ↦ h.ready.imp_right fun h ↦ h.1.1 d hd) (h.ready.imp_right ?_)
    rintro ⟨⟨-, hmeta⟩, hcreates⟩ s hm name hname hnmeta
    refine hm.hasTopic (hmeta name ((hm.creates hname).resolve_right fun hc ↦ ?_) hnmeta)
    rw [hcreates name hc] at hnmeta
    cases hnmeta
  | publish name pubuid type properties =>
    refine handlePublish_follows h.accepts (fun name ↦ h.assigns name trivial)
      (fun self ↦ h.asks self trivial) hguid (h.creates _ (.inr rfl))
        (fun _ ↦ ⟨⟨?_, ?_⟩, h.assigns _ trivial, h.assigns _ trivial⟩)
      (fun d hd ↦ h.ready.imp_right fun h ↦ h.1.1 d hd) (h.ready.imp_right fun h ↦ h.1.2)
    · exact h.creates _ (.of_isMeta rfl _)
    · exact h.creates _ (.of_isMeta rfl _)
  | unsubscribe subuid =>
    refine handleUnsubscribe_follows h.accepts (fun name ↦ h.assigns name trivial)
      (fun self ↦ h.asks self trivial) hguid (fun d hd ↦ h.known.imp_right fun h ↦ h d hd)
      (fun d hd ↦ h.ready.imp_right fun h ↦ h.1.1 d hd) (h.ready.imp_right ?_)
    rintro ⟨⟨-, hmeta⟩, hcreates⟩ s hm name hname hnmeta
    refine hm.hasTopic (hmeta name ((hm.creates hname).resolve_right fun hc ↦ ?_) hnmeta)
    rw [hcreates name hc] at hnmeta
    cases hnmeta
  | unpublish pubuid =>
    exact handleUnpublish_follows h.accepts (fun name ↦ h.assigns name trivial)
      (fun self ↦ h.asks self trivial) hguid (fun d hd ↦ h.known.imp_right fun h ↦ h d hd)
      (fun d hd ↦ h.ready.imp_right fun h ↦ h.1.1 d hd)
      fun d pub hd hpub ↦ h.ready.imp_right fun h ↦ h.1.2 d pub hd hpub
  | setproperties name persistent retained cached =>
    exact handleSetProperties_follows (h.creates _ (.inr rfl)) (h.configures _ rfl) h.known
  | unknown => exact .ok .refl trivial

/-- A client comes or goes in the operation. -/
def changesClients : Operation → Bool
  | connect _ _ | disconnect _ => true
  | message _ _ | textEnd _ | valueUpdate _ _ | subscribe _ _ _ | unsubscribe _ | publish _ _ _ _
  | unpublish _ | setProperties _ _ | updateTopic _ _ _ | flush => false

/-- An operation on the clients that are there is a sequence of moves. -/
theorem follows {op : Operation} (hclients : op.changesClients = false) (henabled : op.Enabled st)
    (h : op.Permitted K env st) :
    Follows K st (op.run env st) id fun s ↦ op.Achieves env st s := by
  cases op with
  | connect | disconnect => cases hclients
  | message guid m => exact message_follows henabled h
  | textEnd guid => exact (handleTextEnd_emits henabled).imp fun _ _ ↦ trivial
  | valueUpdate guid m =>
    exact handleValue_follows h.accepts henabled (fun d hd ↦ h.known.imp_right fun h ↦ h d hd)
      fun d pub hd hpub ↦
        ⟨h.assigns _ ⟨d, pub, hd, hpub, rfl⟩, h.published guid d _ pub (.inl hd) hpub⟩
  | subscribe topics subuid options =>
    exact localSubscribe_follows h.accepts ⟨h.asks true rfl, h.subscribes true rfl⟩
      (h.assigns _ rfl) (h.ready.imp_right (·.1))
  | unsubscribe subuid =>
    exact localUnsubscribe_follows h.accepts (h.asks true rfl) (h.assigns _ rfl) h.known
      (h.ready.imp_right (·.1))
  | publish name pubuid type properties =>
    refine .map
      (localPublish_follows h.accepts (h.asks true rfl) (h.assigns _ (.inl rfl))
        (h.creates _ (.inr rfl))
      (fun _ ↦ ?_) h.numbered (h.ready.imp_right (·.1)))
    exact ⟨⟨h.creates _ (.of_isMeta rfl _), h.creates _ (.of_isMeta rfl _)⟩,
      h.assigns _ (.inr (.inl rfl)), h.assigns _ (.inr (.inr rfl))⟩
  | unpublish pubuid =>
    exact localUnpublish_follows h.accepts (h.asks true rfl) (h.assigns _ rfl) h.known
      (h.ready.imp_right (·.1))
  | setProperties name update =>
    exact localSetProperties_follows (h.creates _ (.inr rfl)) (h.configures _ rfl) h.known
  | updateTopic id value time =>
    exact localUpdateTopic_follows h.accepts h.known fun pub hpub ↦
      ⟨h.assigns _ ⟨pub, hpub, rfl⟩, h.published 0 _ _ pub (.inr rfl) hpub⟩
  | flush => exact flushBinary_emits.imp fun _ _ ↦ trivial

/-- Every operation is a sequence of moves, after a client has joined or left. -/
theorem run_ends {op : Operation} (henabled : op.Enabled st) (h : op.Permitted K env st) :
    Ends (op.run env st) (Changes K st) (·.Admitted K st) := by
  cases hclients : op.changesClients with
  | false => exact Ends.imp (follows hclients henabled h) fun _ hs ↦ hs.1.changes
  | true =>
    cases op with
    | connect entry name =>
      refine (handleConnect_ends h.accepts (h.assigns _ (.inl rfl))
        (h.ready.imp_right (·.1)) (fun name hmeta ↦ h.creates name hmeta) fun n ↦
          ⟨h.assigns _ (.inr ⟨n, .inl rfl⟩), h.assigns _ (.inr ⟨n, .inr rfl⟩)⟩).imp ?_
      rintro s ⟨n, hm, -⟩
      exact .head (.join entry.guid n) hm.changes
    | disconnect guid =>
      refine (handleDisconnect_ends h.accepts (h.assigns _ rfl) (h.ready.imp_right (·.1))
        henabled).imp ?_
      rintro s ⟨-, hm⟩
      exact .head (.leave guid) hm.changes
    | message | textEnd | valueUpdate | subscribe | unsubscribe | publish | unpublish
    | setProperties | updateTopic | flush => cases hclients

end Operation

/-! ### Events as operations -/

/-- Take the mutex, run the operation and give the mutex back. -/
def opStep (env : Env) (st : Instance) (op : Operation) : Except Fault Instance :=
  st.withMutex (op.run env)

omit [FloatCodec] in
theorem withMutex_of_taken {handler : Instance → Except Fault Instance}
    (h : st.mutexFree = false) : st.withMutex handler = .ok st := by
  simp [Instance.withMutex, h]

/-- Nothing runs without the mutex. -/
theorem foldlM_opStep_of_taken (h : st.mutexFree = false) (ops : List Operation) :
    ops.foldlM (opStep env) st = .ok st := by
  induction ops with
  | nil => rfl
  | cons op ops ih => rw [List.foldlM_cons, opStep, withMutex_of_taken h]; exact ih

/-- A text frame is an operation for each message and one at the end. -/
theorem handleMessages_eq (guid : Guid) (messages : List ClientMessage) (st : Instance) :
    handleMessages env guid messages st =
      (messages.map (Operation.message guid) ++
        [Operation.textEnd guid]).foldlM (opStep env) st := by
  induction messages generalizing st with
  | nil => exact (bind_pure _).symm
  | cons m messages ih =>
    rw [List.map_cons, List.cons_append, List.foldlM_cons]
    cases hfree : st.mutexFree with
    | false =>
      have hstop : handleMessages env guid (m :: messages) st = .ok st := by
        cases m with
        | unknown => exact (ih st).trans (foldlM_opStep_of_taken hfree _)
        | subscribe | publish | unsubscribe | unpublish | setproperties =>
          simp [handleMessages, hfree]
      rw [hstop, opStep, withMutex_of_taken hfree]
      exact (foldlM_opStep_of_taken hfree _).symm
    | true =>
      cases m with
      | unknown =>
        have hunknown : opStep env st (.message guid .unknown) = .ok st := by
          show st.withMutex _ = _
          rw [Instance.withMutex, if_pos hfree]
          show Except.ok { st with mutexFree := true } = _
          rw [← hfree]
        rw [hunknown]
        exact ih st
      | subscribe | publish | unsubscribe | unpublish | setproperties =>
        rw [handleMessages, if_pos hfree]
        · exact congrArg _ (funext ih)
        · simp

/-- One message of a binary frame. -/
def binaryStep (env : Env) (guid : Guid) (st : Instance) (m : BinaryMessage) :
    Except Fault Instance :=
  if m.id = -1 then .ok { st with rttReplies := st.rttReplies ++ [(guid, rttReply env st m)] }
  else opStep env st (.valueUpdate guid m)

omit [FloatCodec] in
/-- A new connection is put into the list of the WebSocket server. -/
def Instance.register (st : Instance) (entry : ClientEntry) : Instance :=
  { st with serverClients := st.serverClients ++ [entry] }

/-- Every operation of the event meets `G` in the state in which it takes the mutex. -/
def Event.Meets (G : Env → Instance → Operation → Prop) (st : Instance) (e : Env × Event) : Prop :=
  st.mutexFree = true → match e.2 with
    | connect entry => entry.serverProtocol ≠ NT_RTT_PROTOCOL →
      ∀ name, requestedName entry.requestedPath = .ok name →
        G e.1 (st.register entry) (.connect entry name)
    | disconnect guid => guid ∈ st.clients → G e.1 st (.disconnect guid)
    | removeConnection _ => True
    | text guid messages => guid ∈ st.clients →
      Guarded (opStep e.1) (G e.1) st (messages.map (.message guid) ++ [.textEnd guid])
    | binary guid messages => guid ∈ st.clients →
      Guarded (binaryStep e.1 guid) (fun st m ↦ m.id ≠ -1 → G e.1 st (.valueUpdate guid m)) st
        messages
    | subscribe topics subuid options => G e.1 st (.subscribe topics subuid options)
    | unsubscribe subuid => G e.1 st (.unsubscribe subuid)
    | publish name pubuid type properties => G e.1 st (.publish name pubuid type properties)
    | unpublish pubuid => G e.1 st (.unpublish pubuid)
    | setProperties name update => G e.1 st (.setProperties name update)
    | updateTopic id value time =>
      G e.1 st (.updateTopic id value (time.getD (getServerTime e.1 st)))
    | flush => G e.1 st .flush

theorem Event.Meets.mono {G H : Env → Instance → Operation → Prop}
    (hGH : ∀ env st op, G env st op → H env st op) {e : Env × Event} (h : Event.Meets G st e) :
    Event.Meets H st e := by
  obtain ⟨env, e⟩ := e
  intro hfree
  have h := h hfree
  cases e with
  | connect entry => exact fun hrtt name hname ↦ hGH _ _ _ (h hrtt name hname)
  | disconnect guid => exact fun hguid ↦ hGH _ _ _ (h hguid)
  | removeConnection guid => trivial
  | text guid messages => exact fun hguid ↦ (h hguid).mono fun s op ↦ hGH env s op
  | binary guid messages => exact fun hguid ↦ (h hguid).mono fun s m hm hrtt ↦ hGH _ _ _ (hm hrtt)
  | subscribe | unsubscribe | publish | unpublish | setProperties | updateTopic | flush =>
    exact hGH _ _ _ h

omit [FloatCodec] in
/-- The operations the event can amount to. -/
def Event.Has (op : Operation) : Event → Prop
  | connect entry => ∃ name, op = .connect entry name
  | disconnect guid => op = .disconnect guid
  | removeConnection _ => False
  | text guid messages => (∃ m ∈ messages, op = .message guid m) ∨ op = .textEnd guid
  | binary guid messages => ∃ m ∈ messages, op = .valueUpdate guid m
  | subscribe topics subuid options => op = .subscribe topics subuid options
  | unsubscribe subuid => op = .unsubscribe subuid
  | publish name pubuid type properties => op = .publish name pubuid type properties
  | unpublish pubuid => op = .unpublish pubuid
  | setProperties name update => op = .setProperties name update
  | updateTopic id value _ => ∃ time, op = .updateTopic id value time
  | flush => op = .flush

/-- A guard that the operations of the event meet in every state. -/
theorem Event.Meets.of_has {G : Env → Instance → Operation → Prop} {e : Env × Event}
    (h : ∀ st op, e.2.Has op → G e.1 st op) (st : Instance) : Event.Meets G st e := by
  obtain ⟨env, e⟩ := e
  intro _
  cases e with
  | connect entry => exact fun _ name _ ↦ h _ _ ⟨name, rfl⟩
  | disconnect guid => exact fun _ ↦ h _ _ rfl
  | removeConnection guid => trivial
  | text guid messages =>
    refine fun _ ↦ Guarded.of_forall_mem (fun op hop s ↦ h s op ?_) st
    rcases List.mem_append.1 hop with hop | hop
    · obtain ⟨m, hm, rfl⟩ := List.mem_map.1 hop
      exact .inl ⟨m, hm, rfl⟩
    · exact .inr (List.mem_singleton.1 hop)
  | binary guid messages =>
    refine fun _ ↦ Guarded.of_forall_mem (fun m hm s hrtt ↦ ?_) st
    exact h s _ ⟨m, hm, rfl⟩
  | updateTopic id value time => exact h _ _ ⟨_, rfl⟩
  | subscribe | unsubscribe | publish | unpublish | setProperties | flush => exact h _ _ rfl

/-- A guard on the environment alone. -/
theorem Event.Meets.of_forall {G : Env → Instance → Operation → Prop} {e : Env × Event}
    (h : ∀ st op, G e.1 st op) (st : Instance) : Event.Meets G st e :=
  .of_has (fun st op _ ↦ h st op) st

/-! ### Invariants of runs -/

/-- The messages of a client, the values it sends and the end of its frames leave everybody
connected. -/
theorem opStep_mem_clients (env : Env) {op : Operation} (hclients : op.changesClients = false)
    (henabled : op.Enabled st) :
    Ends (opStep env st op) (fun s ↦ ∀ guid, guid ∈ s.clients ↔ guid ∈ st.clients)
      fun _ ↦ True := by
  unfold opStep Instance.withMutex
  split
  · have hfollows : Follows .all { st with mutexFree := false }
        (op.run env { st with mutexFree := false }) id _ :=
      Operation.follows hclients (by cases op <;> exact henabled) (.all env _ op)
    exact Ends.bind (hfollows.mono (fun _ h ↦ h.1) fun _ _ ↦ trivial) fun s hs guid ↦ hs.mem_clients
  · exact fun _ ↦ Iff.rfl

section Invariants

variable {I : Instance → Prop} {E : Fault → Prop} {G : Env → Instance → Operation → Prop}
  (hidle : ∀ st st' : Instance, st'.topics = st.topics → st'.clients = st.clients →
    st'.thisClient = st.thisClient → I st → I st')
  (hop : ∀ env st op, I st → op.Enabled st → G env st op →
    Ends (op.run env { st with mutexFree := false }) I E)

include hidle hop

theorem opStep_ends {op : Operation} (hI : I st) (henabled : op.Enabled st)
    (h : st.mutexFree = true → G env st op) : Ends (opStep env st op) I E := by
  unfold opStep Instance.withMutex
  split
  · next hfree => exact (hop env st op hI henabled (h hfree)).bind fun s ↦ hidle s _ rfl rfl rfl
  · exact hI

/-- The operations of a frame: the client that sent it stays connected. -/
theorem foldlM_opStep_ends {guid : Guid} {ops : List Operation}
    (hops : ∀ op ∈ ops, op.changesClients = false ∧ ∀ st : Instance, guid ∈ st.clients →
      op.Enabled st)
    (hI : I st) (hguid : guid ∈ st.clients) (h : Guarded (opStep env) (G env) st ops) :
    Ends (ops.foldlM (opStep env) st) I E := by
  induction ops generalizing st with
  | nil => exact hI
  | cons op ops ih =>
    obtain ⟨hclients, henabled⟩ := hops op List.mem_cons_self
    have hstep := (opStep_ends hidle hop hI (henabled st hguid) fun _ ↦ h.1).and
      (opStep_mem_clients env hclients (henabled st hguid))
    rw [List.foldlM_cons]
    cases hx : opStep env st op with
    | error e => exact (hstep.of_error hx).1
    | ok s =>
      obtain ⟨hIs, hmem⟩ := hstep.of_ok hx
      exact ih (fun op hop ↦ hops op (List.mem_cons_of_mem _ hop)) hIs
        ((hmem guid).2 hguid) (h.2 s hx)

omit hop in
/-- Without the mutex only measurements are answered. -/
theorem handleBinary_of_taken {guid : Guid} {messages : List BinaryMessage} (hI : I st)
    (hfree : st.mutexFree = false) : Ends (handleBinary env guid messages st) I E := by
  induction messages generalizing st with
  | nil => exact hI
  | cons m messages ih =>
    unfold handleBinary
    split
    · exact ih (hidle st _ rfl rfl rfl hI) hfree
    · rw [if_neg (by simp [hfree])]
      exact hI

omit hop in
/-- A value from a guid that is no client takes the mutex, and that is all. -/
theorem handleBinary_of_unknown {guid : Guid} {messages : List BinaryMessage} (hI : I st)
    (hguid : guid ∉ st.clients) : Ends (handleBinary env guid messages st) I E := by
  induction messages generalizing st with
  | nil => exact hI
  | cons m messages ih =>
    unfold handleBinary
    split
    · exact ih (hidle st _ rfl rfl rfl hI) hguid
    · split
      · exact ih (hidle st _ rfl rfl rfl hI) hguid
      · exact hI

theorem handleBinary_ends {guid : Guid} {messages : List BinaryMessage}
    (hI : I st) (hguid : guid ∈ st.clients)
    (h : Guarded (binaryStep env guid) (fun st m ↦ m.id ≠ -1 → G env st (.valueUpdate guid m)) st
      messages) : Ends (handleBinary env guid messages st) I E := by
  induction messages generalizing st with
  | nil => exact hI
  | cons m messages ih =>
    obtain ⟨hm, hrest⟩ := h
    unfold handleBinary
    split
    · next hrtt =>
      refine ih (hidle st _ rfl rfl rfl hI) hguid (hrest _ ?_)
      rw [binaryStep, if_pos hrtt]
    · next hrtt =>
      split
      · have henabled : (Operation.valueUpdate guid m).Enabled st := hguid
        have hstep := (opStep_ends hidle hop hI henabled fun _ ↦ hm hrtt).and
          (opStep_mem_clients env rfl henabled)
        show Ends (opStep env st (.valueUpdate guid m) >>= _) I E
        cases hx : opStep env st (.valueUpdate guid m) with
        | error e => exact (hstep.of_error hx).1
        | ok s =>
          obtain ⟨hIs, hmem⟩ := hstep.of_ok hx
          exact ih hIs ((hmem guid).2 hguid) (hrest s (by rw [binaryStep, if_neg hrtt, hx]))
      · exact hI

/-- An invariant of the operations is an invariant of the events. -/
theorem step_ends (hE : E .outOfRange) {e : Env × Event} (hI : I st) (h : Event.Meets G st e) :
    Ends (step st e) I E := by
  obtain ⟨env, e⟩ := e
  have hlocal (op : Operation) (henabled : op.Enabled st) (h : st.mutexFree = true → G env st op) :
      Ends (st.withMutex (op.run env)) I E := opStep_ends hidle hop hI henabled h
  cases e with
  | connect entry =>
    show Ends (clientConnected env entry st) I E
    unfold clientConnected
    dsimp only
    split
    · exact hidle st _ rfl rfl rfl hI
    · next hrtt =>
      cases hname : requestedName entry.requestedPath with
      | error e =>
        rw [requestedName_error hname]
        exact hE
      | ok name =>
        have hI : I (st.register entry) := hidle st _ rfl rfl rfl hI
        have henabled : (Operation.connect entry name).Enabled (st.register entry) := trivial
        exact opStep_ends hidle hop hI henabled fun hfree ↦ h hfree hrtt name hname
  | disconnect guid =>
    show Ends (clientDisconnected env guid st) I E
    unfold clientDisconnected
    split
    · next hfree =>
      split
      · next hguid => exact hlocal (.disconnect guid) hguid fun _ ↦ h hfree hguid
      · exact hidle st _ rfl rfl rfl hI
    · exact hI
  | removeConnection guid => exact hidle st _ rfl rfl rfl hI
  | text guid messages =>
    show Ends (handleText env guid messages st) I E
    unfold handleText
    split
    · next hguid =>
      rw [handleMessages_eq]
      cases hfree : st.mutexFree with
      | false =>
        rw [foldlM_opStep_of_taken hfree]
        exact hI
      | true =>
        refine foldlM_opStep_ends hidle hop (fun op hmem ↦ ?_) hI hguid (h hfree hguid)
        rcases List.mem_append.1 hmem with hmem | hmem
        · obtain ⟨m, -, rfl⟩ := List.mem_map.1 hmem
          exact ⟨rfl, fun _ ↦ id⟩
        · rw [List.mem_singleton.1 hmem]
          exact ⟨rfl, fun _ ↦ id⟩
    · exact hI
  | binary guid messages =>
    show Ends (handleBinary env guid messages st) I E
    by_cases hguid : guid ∈ st.clients
    · cases hfree : st.mutexFree with
      | false => exact handleBinary_of_taken hidle hI hfree
      | true => exact handleBinary_ends hidle hop hI hguid (h hfree hguid)
    · exact handleBinary_of_unknown hidle hI hguid
  | subscribe => exact hlocal (.subscribe ..) trivial h
  | unsubscribe => exact hlocal (.unsubscribe ..) trivial h
  | publish => exact hlocal (.publish ..) trivial h
  | unpublish => exact hlocal (.unpublish ..) trivial h
  | setProperties => exact hlocal (.setProperties ..) trivial h
  | updateTopic => exact hlocal (.updateTopic ..) trivial h
  | flush => exact hlocal .flush trivial h

/-- A guard that holds wherever the invariant does. -/
theorem Event.Meets.of_invariant {e : Env × Event} (hG : ∀ st op, I st → G e.1 st op)
    (hst : I st) : Event.Meets G st e := by
  obtain ⟨env, e⟩ := e
  intro hfree
  -- the client that sent a frame stays connected
  have hstep {guid : Guid} {op : Operation} (hclients : op.changesClients = false)
      (henabled : ∀ s : Instance, guid ∈ s.clients → op.Enabled s) (s : Instance)
      (hs : I s ∧ guid ∈ s.clients) :
      Ends (opStep env s op) (fun s ↦ I s ∧ guid ∈ s.clients) fun _ ↦ True :=
    ((opStep_ends hidle hop hs.1 (henabled s hs.2) fun _ ↦ hG s op hs.1).and
      (opStep_mem_clients env hclients (henabled s hs.2))).mono
        (fun _ h ↦ ⟨h.1, (h.2 guid).2 hs.2⟩) fun _ _ ↦ trivial
  cases e with
  | connect entry => exact fun _ name _ ↦ hG _ _ (hidle st _ rfl rfl rfl hst)
  | disconnect guid => exact fun _ ↦ hG _ _ hst
  | removeConnection guid => trivial
  | text guid messages =>
    refine fun hguid ↦ Guarded.of_invariant (I := fun s ↦ I s ∧ guid ∈ s.clients)
      (fun op _ s hs ↦ hG s op hs.1) (fun op hop s hs ↦ ?_) ⟨hst, hguid⟩
    rcases List.mem_append.1 hop with hmem | hmem
    · obtain ⟨m, -, rfl⟩ := List.mem_map.1 hmem
      exact hstep rfl (fun _ ↦ id) s hs
    · rw [List.mem_singleton.1 hmem]
      exact hstep rfl (fun _ ↦ id) s hs
  | binary guid messages =>
    refine fun hguid ↦ Guarded.of_invariant (I := fun s ↦ I s ∧ guid ∈ s.clients)
      (fun m _ s hs _ ↦ hG s _ hs.1) (fun m _ s hs ↦ ?_) ⟨hst, hguid⟩
    unfold binaryStep
    split
    · exact ⟨hidle s _ rfl rfl rfl hs.1, hs.2⟩
    · exact hstep rfl (fun _ ↦ id) s hs
  | subscribe | unsubscribe | publish | unpublish | setProperties | updateTopic | flush =>
    exact hG _ _ hst

/-- An invariant of the operations holds in every state a run can reach: after the start and each
event of a run whose operations meet the guard. -/
theorem run_ends (hE : E .outOfRange) {start : Env} (hstart : Ends (startServer start) I E)
    {events : List (Env × Event)}
    (hguarded : ∀ st, startServer start = .ok st → Guarded step (Event.Meets G) st events) :
    Ends (run start events) I E := by
  unfold run
  cases hx : startServer start with
  | error e => exact hstart.of_error hx
  | ok st =>
    exact Guarded.run_ends (fun s e hI hG ↦ step_ends hidle hop hE hI hG) (hstart.of_ok hx)
      (hguarded st hx)

end Invariants

/-! ### Runs as sequences of moves -/

/-- The topics of publishers exist, whatever slips occur. -/
def Instance.Published (st : Instance) : Prop :=
  st.AllClients fun _ topics d ↦
    ∀ uid pub, d.publishers.lookup uid = some (some pub) → pub.topic ∈ topics

omit [FloatCodec] in
theorem Instance.Published.of_behind (hst : st.Published) {guid : Guid} {d : ClientData}
    (hd : st.Behind guid d ∨ d = st.thisClient) {uid : Int32} {pub : Publisher}
    (hpub : d.publishers.lookup uid = some (some pub)) : pub.topic ∈ st.topics := by
  rcases hd with (⟨-, rfl⟩ | hd) | rfl
  · exact hst.2 uid pub hpub
  · exact hst.1 guid d hd uid pub hpub
  · exact hst.2 uid pub hpub

theorem ClientMove.published {topics : Topics} {self : Bool} {d d' : ClientData}
    (h : ClientMove K topics self d d')
    (hd : ∀ uid pub, d.publishers.lookup uid = some (some pub) → pub.topic ∈ topics) :
    ∀ uid pub, d'.publishers.lookup uid = some (some pub) → pub.topic ∈ topics := by
  intro uid pub hpub
  cases h with
  | publish _ pub' htopic =>
    rw [AList.lookup_insert_ite] at hpub
    split at hpub
    · cases hpub
      exact htopic
    · exact hd uid pub hpub
  | unpublish =>
    rw [AList.lookup_erase_ite] at hpub
    split at hpub
    · cases hpub
    · exact hd uid pub hpub
  | nullPublisher _ uid' =>
    rw [AList.lookup_subscript] at hpub
    split at hpub
    · next heq =>
      cases hlookup : d.publishers.lookup uid' with
      | none => simp [hlookup] at hpub
      | some p =>
        rw [hlookup] at hpub
        exact hd uid' pub (hlookup.trans hpub)
    · exact hd uid pub hpub
  | announce | announceToPublisher | properties | update | flushText | flushBinary | announceSelf =>
    exact hd uid pub (by simpa using hpub)
  | callback | unnumbered | subscribe | unsubscribe | nullSubscription => exact hd uid pub hpub

/-- A property of clients is kept by every change if moves keep it and a new client has it. -/
theorem Change.allClients {P : Bool → Topics → ClientData → Prop}
    (hclient : ∀ {topics self d d'}, ClientMove K topics self d d' → P self topics d →
      P self topics d')
    (htopics : ∀ {topics topics' self d}, TopicsLater topics topics' → P self topics d →
      P self topics' d)
    (hjoin : ∀ topics guid name, P false topics { guid, name })
    {st' : Instance} (h : Change K st st') (hst : st.AllClients P) : st'.AllClients P := by
  cases h with
  | move h => exact h.allClients hclient htopics hst
  | idle ht hc hs =>
    unfold Instance.AllClients
    rwa [ht, hc, hs]
  | join guid name =>
    refine ⟨fun guid' d hd ↦ ?_, hst.2⟩
    rw [Instance.insertClient, AList.lookup_insert_ite] at hd
    split at hd
    · cases hd
      exact hjoin st.topics guid name
    · exact hst.1 guid' d hd
  | leave guid =>
    refine ⟨fun guid' d hd ↦ ?_, hst.2⟩
    rw [Instance.eraseClient, AList.lookup_erase_ite] at hd
    split at hd
    · cases hd
    · exact hst.1 guid' d hd

theorem Changes.allClients {P : Bool → Topics → ClientData → Prop}
    (hclient : ∀ {topics self d d'}, ClientMove K topics self d d' → P self topics d →
      P self topics d')
    (htopics : ∀ {topics topics' self d}, TopicsLater topics topics' → P self topics d →
      P self topics' d)
    (hjoin : ∀ topics guid name, P false topics { guid, name })
    {st' : Instance} (h : Changes K st st') (hst : st.AllClients P) : st'.AllClients P := by
  induction h with
  | refl => exact hst
  | tail _ h ih => exact h.allClients hclient htopics hjoin ih

omit [FloatCodec] in
/-- A property of clients holds at first if it holds of the local client, of which nothing is known
but its guid and its name. -/
theorem Instance.initial_allClients {P : Bool → Topics → ClientData → Prop}
    (h : P true ∅ fakeServer) : Instance.initial.AllClients P := by
  refine ⟨fun guid d hd ↦ ?_, h⟩
  rw [Instance.initial, AList.lookup_insert_ite] at hd
  split at hd <;> cases hd

theorem Changes.published {st' : Instance} (h : Changes K st st') (hst : st.Published) :
    st'.Published :=
  h.allClients (fun hm hd ↦ hm.published hd)
    (fun hlater hd uid pub hpub ↦ hlater.mem _ (hd uid pub hpub))
    (fun _ _ _ _ _ h ↦ by simp at h) hst

omit [FloatCodec] in
theorem Instance.initial_published : Instance.initial.Published :=
  Instance.initial_allClients fun _ _ h ↦ by simp [fakeServer] at h

/-- The slips of these three kinds, and everything that is no slip. -/
def Allow.slips (nulls unnumbered partly : Prop) : Allow :=
  { Allow.all with nulls, unnumbered, partly }

omit [FloatCodec] in
/-- What the operations of a run must meet for no other slip to occur in it. -/
def Operation.Avoids (nulls unnumbered partly : Prop) (env : Env) (st : Instance)
    (op : Operation) : Prop :=
  (nulls ∨ op.Known st) ∧ (unnumbered ∨ op.Numbered st) ∧ (partly ∨ env.Accepts)

omit [FloatCodec] in
/-- Taking the mutex changes nothing an operation looks at before it runs. -/
theorem Operation.Enabled.taken {op : Operation} (h : op.Enabled st) (mutexFree : Bool) :
    op.Enabled { st with mutexFree } := by
  cases op <;> exact h

omit [FloatCodec] in
theorem Operation.Avoids.taken {nulls unnumbered partly : Prop} {op : Operation}
    (h : op.Avoids nulls unnumbered partly env st) (mutexFree : Bool) :
    op.Avoids nulls unnumbered partly env { st with mutexFree } := by
  cases op with
  | message guid m => cases m <;> exact h
  | connect | disconnect | textEnd | valueUpdate | subscribe | unsubscribe | publish | unpublish
  | setProperties | updateTopic | flush => exact h

omit [FloatCodec] in
theorem Operation.Avoids.permitted {nulls unnumbered partly : Prop} {op : Operation}
    (h : op.Avoids nulls unnumbered partly env st) (hst : st.Published) :
    op.Permitted (.slips nulls unnumbered partly) env st where
  accepts := h.2.2
  asks _ _ := trivial
  subscribes _ _ := trivial
  assigns _ _ := trivial
  creates _ _ := trivial
  configures _ _ := trivial
  known := h.1
  published _ _ _ _ hd hpub := .inl (hst.of_behind hd hpub)
  numbered := h.2.1
  ready := .inl trivial

/-- A run is a sequence of moves of clients that come and go. -/
theorem run_changes (nulls unnumbered partly : Prop) {start : Env}
    (haccepts : partly ∨ start.Accepts) {events : List (Env × Event)}
    (hguarded : ∀ st, startServer start = .ok st →
      Guarded step (Event.Meets fun env st op ↦
        op.Avoids nulls unnumbered partly env st) st events) :
    Ends (run start events) (Changes (.slips nulls unnumbered partly) .initial)
      (·.Admitted (.slips nulls unnumbered partly) .initial) := by
  refine run_ends (fun st st' ht hc hs hI ↦ hI.tail (.idle ht hc hs))
    (fun env st op hI henabled hG ↦ ?_) trivial ?_ hguarded
  · have hm : Changes (.slips nulls unnumbered partly) .initial { st with mutexFree := false } :=
      hI.tail (.idle rfl rfl rfl)
    refine (Operation.run_ends (henabled.taken false)
      ((hG.taken false).permitted (hm.published Instance.initial_published))).mono
      (fun s hs ↦ hm.trans hs) fun e he ↦ he.of_rooted fun hK hst ↦ hm.rooted hK hst
  · exact Ends.imp (startServer_follows haccepts (fun _ ↦ trivial) fun _ _ ↦ trivial) fun _ h ↦
      h.1.changes

/-- From any state on, events whose operations are permitted are a sequence of moves of clients that
come and go. -/
theorem steps_changes {events : List (Env × Event)}
    (hguarded : Guarded step (Event.Meets fun env st op ↦
      ∀ mutexFree, op.Permitted K env { st with mutexFree }) st events) :
    Ends (events.foldlM step st) (Changes K st) fun _ ↦ True := by
  refine Guarded.run_ends (fun s e hI hG ↦ step_ends (I := Changes K st) (E := fun _ ↦ True)
    (fun s s' ht hc hs hI ↦ hI.tail (.idle ht hc hs))
    (fun env s op hI henabled hG ↦ ?_) trivial hI hG)
    .refl hguarded
  have hm : Changes K st { s with mutexFree := false } := hI.tail (.idle rfl rfl rfl)
  exact (Operation.run_ends (henabled.taken false) (hG false)).mono (fun s' hs' ↦ hm.trans hs')
    fun _ _ ↦ trivial

end

end NetworkTables
