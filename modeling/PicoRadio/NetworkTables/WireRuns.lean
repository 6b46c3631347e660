import PicoRadio.NetworkTables.SessionIndependence
import PicoRadio.NetworkTables.TextDispatch
import PicoRadio.WebSocket.ReceivedStreams

/-!
# From the wire to the broker

The server once more, one level down: what a client says comes as calls of the callbacks of its
WebSocket, with the bytes of a message. `wireRun` is a run in which these calls are handled. It has
no result if the loop over a binary payload does not come to an end.

If it has one, it is a run of the server over the messages that were read, so whatever holds of all
runs holds here (`wireRun_refines`). As long as the mutex is given back, these messages are what
the payloads say (`WireEvent.decode`). That depends on the bytes and on what the variables without
an initial value hold: a message that leaves a member out takes over what they held.

For a client that writes its messages as it should, with every member and no string that needs an
escape, this is what it meant: however it fragments and masks them, whatever pings it sends in
between, and whatever the others do meanwhile, its session is made by its own messages, in order
(`wireRun_session`).
-/

open Msgpack Msgpack.Unpacker

namespace NetworkTables

/-! ### Callbacks -/

/-- What happens to the server. -/
inductive WireEvent
  /-- A callback of the client's WebSocket is called. -/
  | call (guid : Guid) (call : WebSockets.Call)
  /-- A client is registered or lost, or the program calls the interface. -/
  | event (e : Event)

/-- What happens, with what its handler finds: the surroundings, and what the variables without an
initial value hold. -/
abbrev WireStep :=
  (Env × Locals) × WireEvent

/-- The updates in a payload that can be read to its end. -/
def binaryMessages [FloatDecoder] (payload : Bytes) : Option (List BinaryMessage) :=
  Prod.fst <$> unpackMessages (payload.length + 2) (.setData payload)

/-- What a frame says. -/
def decodeFrame [FloatDecoder] (init : Locals) (guid : Guid) (opcode : WebSockets.WebSocketOpCode)
    (payload : Bytes) : List Event :=
  if opcode = .TextFrame then [.text guid (textMessages init payload)]
  else if opcode = .BinaryFrame then (binaryMessages payload).toList.map (.binary guid)
  else []

/-- What an event says. Fragments and pongs say nothing. -/
def WireEvent.decode [FloatDecoder] (init : Locals) : WireEvent → List Event
  | call guid (.received isFragment opcode payload) =>
    if isFragment then [] else decodeFrame init guid opcode payload
  | call _ (.pong _) => []
  | call guid (.close _ _) => [.disconnect guid]
  | event e => [e]

/-- The events that the step is. -/
def WireStep.decode [FloatDecoder] (w : WireStep) : List (Env × Event) :=
  (w.2.decode w.1.2).map fun e ↦ (w.1.1, e)

section

variable [FloatCodec] [FloatDecoder] {env start : Env} {guid : Guid} {st s : Instance}
  {u v : Unpacker} {passes : ℕ} {r : Except Fault Instance}

/-- `_handleFrame`. -/
def handleFrame (env : Env) (init : Locals) (guid : Guid) (opcode : WebSockets.WebSocketOpCode)
    (payload : Bytes) (st : Instance) : Option (Except Fault Instance) :=
  if opcode = .TextFrame then some (handleTextFrame env guid init payload st)
  else if opcode = .BinaryFrame then
    handleBinaryFrame env guid payload (payload.length + 2) st
  else some (.ok st)

/-- The handlers that the server adds to those of its WebSockets: whole messages go to
`_handleFrame`, and a close frame disconnects. Nothing listens to pongs. -/
def wireStep (st : Instance) : WireStep → Option (Except Fault Instance)
  | ((env, init), .call guid (.received isFragment opcode payload)) =>
    if isFragment then some (.ok st) else handleFrame env init guid opcode payload st
  | (_, .call _ (.pong _)) => some (.ok st)
  | ((env, _), .call guid (.close _ _)) => some (clientDisconnected env guid st)
  | ((env, _), .event e) => some (step st (env, e))

/-- What happens is handled in order. -/
def wireSteps : List WireStep → Except Fault Instance → Option (Except Fault Instance)
  | [], r => some r
  | w :: ws, .ok st => wireStep st w >>= wireSteps ws
  | _ :: _, .error fault => some (.error fault)

/-- A run of the server from its start. -/
def wireRun (start : Env) (ws : List WireStep) : Option (Except Fault Instance) :=
  wireSteps ws (startServer start)

/-! ### Binary payloads -/

omit [FloatDecoder] in
/-- The loop stops before the end of the data only without the mutex. -/
theorem handleArray_stops {m : BinaryMessage} (h : handleArray env guid m st = .ok (s, false)) :
    handleBinary env guid [m] st = .ok s ∧ s.mutexFree = false := by
  have hhandled : handleBinary env guid [m] st = .ok s := by
    rw [handleBinary_cons, h]
    rfl
  refine ⟨hhandled, ?_⟩
  rw [handleArray] at h
  split at h
  · cases h
  · split at h
    · split at h
      · cases hvalue : st.withMutex (handleValue env guid m) with
        | error fault =>
          rw [hvalue] at h
          cases h
        | ok s' =>
          rw [hvalue] at h
          cases h
      · cases h
    · next hfree =>
      cases h
      simpa using hfree

/-- A pass that leads to another one reads at most one update, and handles it. -/
theorem Again.handled (h : Again env guid (u, st) (v, s)) :
    ∃ message, Yields unpackMessage u message v ∧ v.ec ≠ some .outOfRange ∧
      ∀ rest, handleBinary env guid (message.toList ++ rest) st = handleBinary env guid rest s := by
  have h : binaryPass env guid u st = .again v s := h
  rw [binaryPass] at h
  split at h
  · next hread =>
    obtain ⟨hec, rfl, rfl⟩ := Pass.test_eq_again h
    exact ⟨none, hread, hec, fun _ ↦ rfl⟩
  · next m u' hread =>
    split at h
    · cases h
    · next hm =>
      obtain ⟨hec, rfl, rfl⟩ := Pass.test_eq_again h
      refine ⟨some m, hread, hec, fun rest ↦ ?_⟩
      show handleBinary env guid (m :: rest) st = _
      rw [handleBinary_cons, hm]
      rfl
    · cases h

omit [FloatCodec] [FloatDecoder] in
/-- The loop ends by its test only where the data ended, and in the state it has come to. -/
theorem Pass.test_eq_ended (h : Pass.test u st = .ended r) :
    u.ec = some .outOfRange ∧ r = .ok st := by
  rw [Pass.test] at h
  split at h
  · next hec => exact ⟨hec, (Pass.ended.inj h).symm⟩
  · cases h

/-- So does the last pass. It is the last one because the end of the data was met, or because the
mutex was not free. -/
theorem binaryPass_ended (h : binaryPass env guid u st = .ended r) :
    ∃ message v, Yields unpackMessage u message v ∧
      r = handleBinary env guid message.toList st ∧
      (v.ec = some .outOfRange ∨ Ends r (·.mutexFree = false) fun _ ↦ True) := by
  rw [binaryPass] at h
  split at h
  · next v hread =>
    obtain ⟨hec, rfl⟩ := Pass.test_eq_ended h
    exact ⟨none, v, hread, rfl, .inl hec⟩
  · next m v hread =>
    refine ⟨some m, v, hread, ?_⟩
    show r = handleBinary env guid [m] st ∧ _
    split at h
    · next hm =>
      obtain rfl := Pass.ended.inj h
      rw [handleBinary_cons, hm]
      exact ⟨rfl, .inr trivial⟩
    · next hm =>
      obtain ⟨hec, rfl⟩ := Pass.test_eq_ended h
      rw [handleBinary_cons, hm]
      exact ⟨rfl, .inl hec⟩
    · next hm =>
      obtain rfl := Pass.ended.inj h
      obtain ⟨hhandled, hfree⟩ := handleArray_stops hm
      exact ⟨hhandled.symm, .inr hfree⟩

/-- A loop that ends handles a list of updates. If it leaves the mutex free, these are all that the
payload holds. -/
theorem binaryLoop_handled (h : binaryLoop env guid passes u st = some r) :
    ∃ messages, r = handleBinary env guid messages st ∧
      ((∃ v, unpackMessages passes u = some (messages, v)) ∨
        Ends r (·.mutexFree = false) fun _ ↦ True) := by
  induction passes generalizing u st with
  | zero => cases h
  | succ passes ih =>
    rw [binaryLoop] at h
    split at h
    · next v s hpass =>
      have hagain : Again env guid (u, st) (v, s) := hpass
      obtain ⟨message, hread, hec, hhandled⟩ := hagain.handled
      obtain ⟨messages, rfl, hmessages⟩ := ih h
      refine ⟨message.toList ++ messages, (hhandled messages).symm, hmessages.imp_left ?_⟩
      rintro ⟨v', hrest⟩
      refine ⟨v', ?_⟩
      rw [unpackMessages_succ hread, if_neg hec, hrest]
      rfl
    · next hpass =>
      obtain rfl := Option.some.inj h
      obtain ⟨message, v, hread, hr, hends⟩ := binaryPass_ended hpass
      refine ⟨message.toList, hr, hends.imp_left fun hec ↦ ⟨v, ?_⟩⟩
      rw [unpackMessages_succ hread, if_pos hec]

/-! ### Runs -/

omit [FloatDecoder] in
theorem foldlM_step_singleton (st : Instance) (e : Env × Event) :
    [e].foldlM step st = step st e := by
  rw [List.foldlM_cons, funext fun s ↦ List.foldlM_nil, bind_pure]

omit [FloatDecoder] in
/-- Nobody gives the mutex back. -/
theorem steps_stuck (hst : st.Wired) (hfree : st.mutexFree = false) (events : List (Env × Event)) :
    Ends (events.foldlM step st) (·.mutexFree = false) fun _ ↦ True := by
  refine (steps_hub hst events).imp fun s hs ↦ ?_
  have hstuck : st.hub.stuck = true := congrArg (!·) hfree
  have hrun : s.hub.stuck = true := hs ▸ Hub.stuck_run hstuck _
  simpa [Instance.hub] using hrun

/-- What is handled is a list of events. If the mutex is free after it, these are what was said. -/
theorem wireStep_handled {w : WireStep} (h : wireStep st w = some r) :
    ∃ events : List (Env × Event), r = events.foldlM step st ∧
      (events = w.decode ∨ Ends r (·.mutexFree = false) fun _ ↦ True) := by
  obtain ⟨⟨env, init⟩, e⟩ := w
  have hone (e : Event) (h : some (step st (env, e)) = some r) :
      ∃ events : List (Env × Event), r = events.foldlM step st ∧ events = [(env, e)] :=
    ⟨_, (Option.some.inj h).symm.trans (foldlM_step_singleton st _).symm, rfl⟩
  have hnone (h : some (.ok st) = some r) :
      ∃ events : List (Env × Event), r = events.foldlM step st ∧ events = [] :=
    ⟨[], (Option.some.inj h).symm, rfl⟩
  cases e with
  | event e =>
    obtain ⟨events, hr, hevents⟩ := hone e h
    exact ⟨events, hr, .inl hevents⟩
  | call guid c =>
    cases c with
    | pong payload =>
      obtain ⟨events, hr, hevents⟩ := hnone h
      exact ⟨events, hr, .inl hevents⟩
    | close statusCode reason =>
      obtain ⟨events, hr, hevents⟩ := hone (.disconnect guid) h
      exact ⟨events, hr, .inl hevents⟩
    | received isFragment opcode payload =>
      rw [wireStep, handleFrame] at h
      rw [WireStep.decode, WireEvent.decode, decodeFrame]
      split at h
      · next hfragment =>
        obtain ⟨events, hr, hevents⟩ := hnone h
        exact ⟨events, hr, .inl (by rw [hevents, if_pos hfragment]; rfl)⟩
      · next hwhole =>
        rw [if_neg hwhole]
        split at h
        · next htext =>
          obtain ⟨events, hr, hevents⟩ := hone (.text guid (textMessages init payload)) h
          exact ⟨events, hr, .inl (by rw [hevents, if_pos htext]; rfl)⟩
        · next hno =>
          rw [if_neg hno]
          split at h
          · next hbinary =>
            obtain ⟨messages, rfl, hmessages⟩ := binaryLoop_handled h
            have hsingle := foldlM_step_singleton st (env, .binary guid messages)
            refine ⟨[(env, .binary guid messages)], hsingle.symm, hmessages.imp_left ?_⟩
            rintro ⟨v, hread⟩
            rw [if_pos hbinary, binaryMessages, hread]
            rfl
          · next hother =>
            obtain ⟨events, hr, hevents⟩ := hnone h
            exact ⟨events, hr, .inl (by rw [hevents, if_neg hother]; rfl)⟩

/-- After a fault nothing happens. -/
theorem wireSteps_error (ws : List WireStep) (fault : Fault) :
    wireSteps ws (.error fault) = some (.error fault) := by
  cases ws <;> rfl

/-- A run over callbacks is a run over events: those that the callbacks say, unless the mutex is
taken in the end. -/
theorem wireSteps_handled {ws : List WireStep} (hst : st.Wired)
    (h : wireSteps ws (.ok st) = some r) :
    ∃ events : List (Env × Event), r = events.foldlM step st ∧
      (events = ws.flatMap WireStep.decode ∨ Ends r (·.mutexFree = false) fun _ ↦ True) := by
  induction ws generalizing st with
  | nil => exact ⟨[], (Option.some.inj h).symm, .inl rfl⟩
  | cons w ws ih =>
    obtain ⟨r₁, hstep, hrest⟩ := Option.bind_eq_some_iff.1 h
    obtain ⟨events, hr₁, hevents⟩ := wireStep_handled hstep
    cases r₁ with
    | error fault =>
      rw [wireSteps_error] at hrest
      obtain rfl := Option.some.inj hrest
      exact ⟨events, hr₁, .inr trivial⟩
    | ok s =>
      have hs : s.Wired := (steps_wired hst events).of_ok hr₁.symm
      obtain ⟨events', rfl, hevents'⟩ := ih hs hrest
      refine ⟨events ++ events', ?_, ?_⟩
      · rw [List.foldlM_append, ← hr₁]
        rfl
      · rcases hevents with rfl | hstuck
        · exact hevents'.imp_left fun h ↦ by rw [h, List.flatMap_cons]
        · exact .inr (steps_stuck hs hstuck events')

/-- A run over the callbacks of the WebSockets that has a result is a run of the server. If it
leaves the mutex free, the events of that run are what the callbacks said, whatever the variables
without an initial value held. -/
theorem wireRun_handled {ws : List WireStep} (h : wireRun start ws = some r) :
    ∃ events, run start events = r ∧
      ∀ st, r = .ok st → st.mutexFree → events = ws.flatMap WireStep.decode := by
  have hwired := run_wired start []
  rw [run] at hwired
  rw [wireRun] at h
  cases hstart : startServer start with
  | error fault =>
    rw [hstart, wireSteps_error] at h
    obtain rfl := Option.some.inj h
    refine ⟨[], by rw [run, hstart]; rfl, fun st hst ↦ by cases hst⟩
  | ok st =>
    rw [hstart] at h hwired
    obtain ⟨events, rfl, hevents⟩ := wireSteps_handled hwired h
    refine ⟨events, by rw [run, hstart]; rfl, fun s hs hfree ↦ ?_⟩
    refine hevents.resolve_right fun hstuck ↦ ?_
    rw [hs] at hstuck
    exact absurd hfree (Bool.eq_false_iff.1 hstuck)

end

/-- A client subscribes to a topic and publishes another, with the members in any order. -/
def writtenSample : List WrittenMessage :=
  [.subscribe [.subuid 1, .topics [ascii "/x"], .options []],
    .publish [.pubuid 3, .name (ascii "/c"), .type (ascii "int"), .properties []]]

def saidSample : List ClientMessage :=
  [.subscribe [ascii "/x"] 1 .DEFAULT, .publish (ascii "/c") 3 .int .DEFAULT]

/-- The text comes in two fragments with a ping between them. -/
def wireSample : WebSockets.MessageStream :=
  .sample (((frameValue writtenSample).tokens.flatMap Json.Token.text).take 30)
    (((frameValue writtenSample).tokens.flatMap Json.Token.text).drop 30) (by decide +kernel)
    (by decide +kernel)

/-- What the second client says. -/
def otherSample : WebSockets.Call :=
  .received false .TextFrame
    ((frameValue [.publish [.name (ascii "/x"), .pubuid 1, .type (ascii "int"),
      .properties []]]).tokens.flatMap Json.Token.text)

/-- A callback is called, with something in the variables that have no initial value. -/
def callSample (init : Locals) (guid : Guid) (c : WebSockets.Call) : WireStep :=
  (({}, init), .call guid c)

def eventSample (e : Event) : WireStep :=
  (({}, ⟨0, 0, .bool, 0⟩), .event e)

/-- Two clients connect. While the connection of the first reads its message, the second publishes a
topic and the local client another. -/
def wireSampleSteps : List WireStep :=
  [eventSample (.connect (.sample 1 "a")), eventSample (.connect (.sample 2 "b"))] ++
  (wireSample.calls.take 1).map (callSample ⟨7, 8, .str, 9⟩ 1) ++
  [callSample ⟨1, 1, .bool, 1⟩ 2 otherSample, eventSample (.publish (ascii "/y") 1 .int {})] ++
  (wireSample.calls.drop 1).map (callSample ⟨3, 4, .int, 5⟩ 1)

set_option maxRecDepth 8000 in
/-- The run of the example has a result and leaves the mutex free. -/
theorem exists_wireSample : ∃ st, @wireRun .fractional .fractional {} wireSampleSteps =
    some (.ok st) ∧ st.mutexFree := by
  have hfree : (@wireRun .fractional .fractional {} wireSampleSteps).any
      fun r ↦ decide (Ends r (·.mutexFree) fun _ ↦ False) := by
    decide +kernel
  obtain ⟨r, hr, hfree⟩ := (Option.any_eq_true _ _).1 hfree
  obtain ⟨st, rfl, hst⟩ := (of_decide_eq_true hfree).exists_ok
  exact ⟨st, hr, hst⟩

/-- The messages in an event. -/
def Event.said : Event → List ClientMessage
  | text _ messages => messages
  | connect _ | disconnect _ | binary _ _ | removeConnection _ | subscribe _ _ _ | unsubscribe _
  | publish _ _ _ _ | unpublish _ | setProperties _ _ | updateTopic _ _ _ | flush => []

/-- Text and binary frames of this client. -/
def Event.isFrame (guid : Guid) : Event → Bool
  | text guid' _ | binary guid' _ => guid' = guid
  | connect _ | disconnect _ | removeConnection _ | subscribe _ _ _ | unsubscribe _
  | publish _ _ _ _ | unpublish _ | setProperties _ _ | updateTopic _ _ _ | flush => false

/-- What messages make of a session. -/
def sessionAfter (guid : Guid) (messages : List ClientMessage)
    (s : Option (PubSub.Session Int32 Str Subscription)) :
    Option (PubSub.Session Int32 Str Subscription) :=
  (messages.flatMap (·.requests (.client guid))).foldl (fun s r ↦ r.ask s) s

/-- Messages one after the other. -/
theorem sessionAfter_append (guid : Guid) (messages messages' : List ClientMessage)
    (s : Option (PubSub.Session Int32 Str Subscription)) :
    sessionAfter guid (messages ++ messages') s =
      sessionAfter guid messages' (sessionAfter guid messages s) := by
  rw [sessionAfter, List.flatMap_append, List.foldl_append]
  rfl

namespace Hub

/-- The client is heard under its guid. -/
structure Hears (h : Hub) (guid : Guid) : Prop where
  free : h.stuck = false
  self : h.self guid = false
  session : (h.broker.sessions (.client guid)).isSome

variable {h : Hub} {guid : Guid} {e : Event}

/-- A client that comes with another protocol than that of the measurements is heard. -/
theorem Hears.connect (hfree : h.stuck = false) {entry : ClientEntry}
    (hprotocol : entry.serverProtocol ≠ NT_RTT_PROTOCOL) :
    (h.step (.connect entry)).Hears entry.guid ∧
      (h.step (.connect entry)).broker.sessions (.client entry.guid) = some .fresh := by
  have hjoined : (h.step (.connect entry)).broker.sessions (.client entry.guid) = some .fresh := by
    have hrun : (h.step (.connect entry)).broker.sessions (.client entry.guid) = _ :=
      PubSub.Broker.sessions_run (h.requests (.connect entry)) (Party.client entry.guid)
    rw [hrun, requests, hfree, asks, if_neg hprotocol, if_neg Bool.false_ne_true,
      List.filter_eq_self.2 fun r hr ↦ ?_]
    · rfl
    · rw [List.mem_singleton.1 hr]
      exact decide_eq_true rfl
  refine ⟨⟨?_, ?_, by rw [hjoined]; rfl⟩, hjoined⟩
  · rw [step, hfree]
    rfl
  · show h.selfAfter (.connect entry) entry.guid = false
    rw [selfAfter, hfree, if_neg (by simpa using hprotocol), Function.update_self]

/-- A frame of the client. -/
theorem Hears.step (hh : h.Hears guid) (hframe : e.isFrame guid) :
    (h.step e).Hears guid ∧ (h.step e).broker.sessions (.client guid) =
      sessionAfter guid e.said (h.broker.sessions (.client guid)) := by
  have hparty : h.party guid = .client guid := by
    rw [party, hh.self, if_neg Bool.false_ne_true]
  have hknows : h.knows guid = true := by
    rw [knows, hparty, hh.session]
  have hsession : (h.step e).broker.sessions (.client guid) =
      sessionAfter guid e.said (h.broker.sessions (.client guid)) := by
    have hrun : (h.step e).broker.sessions (.client guid) = _ :=
      PubSub.Broker.sessions_run (h.requests e) (Party.client guid)
    rw [hrun, requests, hh.free, if_neg Bool.false_ne_true]
    cases e with
    | text guid' messages =>
      obtain rfl : guid' = guid := of_decide_eq_true hframe
      rw [asks, hknows, if_pos rfl, hparty, List.filter_eq_self.2 fun r hr ↦ ?_]
      · rfl
      · obtain ⟨m, -, hm⟩ := List.mem_flatMap.1 hr
        exact decide_eq_true (client_of_mem_requests hm).1
    | binary guid' messages =>
      obtain rfl : guid' = guid := of_decide_eq_true hframe
      rw [asks, hknows, if_pos rfl, hparty, List.filter_eq_self.2 fun r hr ↦ ?_]
      · rw [valueRequests, List.foldl_map]
        exact List.foldl_fixed _
      · exact decide_eq_true (client_of_mem_valueRequests hr).1
    | connect | disconnect | removeConnection | subscribe | unsubscribe | publish | unpublish
    | setProperties | updateTopic | flush => cases hframe
  refine ⟨⟨?_, ?_, ?_⟩, hsession⟩
  · cases e with
    | text guid' messages => rw [Hub.step, hh.free]; rfl
    | binary guid' messages =>
      obtain rfl : guid' = guid := of_decide_eq_true hframe
      rw [Hub.step, hh.free, locks, hknows]
      rfl
    | connect | disconnect | removeConnection | subscribe | unsubscribe | publish | unpublish
    | setProperties | updateTopic | flush => cases hframe
  · cases e with
    | text | binary => exact hh.self
    | connect | disconnect | removeConnection | subscribe | unsubscribe | publish | unpublish
    | setProperties | updateTopic | flush => cases hframe
  · rw [hsession]
    refine isSome_foldl_ask (fun r hr c ↦ ?_) hh.session
    obtain ⟨m, -, hm⟩ := List.mem_flatMap.1 hr
    exact (client_of_mem_requests hm).2 c

/-- Frames of the client make its session. -/
theorem Hears.run (hh : h.Hears guid) {events : List Event}
    (hframes : ∀ e ∈ events, e.isFrame guid) : (h.run events).broker.sessions (.client guid) =
      sessionAfter guid (events.flatMap Event.said) (h.broker.sessions (.client guid)) := by
  induction events generalizing h with
  | nil => rfl
  | cons e events ih =>
    obtain ⟨hframe, hframes⟩ := List.forall_mem_cons.1 hframes
    obtain ⟨hstep, hsession⟩ := hh.step hframe
    refine (ih hstep hframes).trans ?_
    rw [hsession, List.flatMap_cons, sessionAfter_append]

end Hub

/-! ### What the client wrote -/

/-- It comes from the connection with this guid. -/
def WireEvent.comesFrom (guid : Guid) : WireEvent → Bool
  | call guid' _ => guid' = guid
  | event e => e.comesFrom guid

section

variable [FloatDecoder] {guid : Guid} {init : Locals}

/-- An event comes from whoever the callback was for. -/
theorem comesFrom_decode {w : WireEvent} {e : Event} (he : e ∈ w.decode init) :
    e.comesFrom guid = w.comesFrom guid := by
  cases w with
  | event e' =>
    rw [List.mem_singleton.1 he]
    rfl
  | call guid' c =>
    cases c with
    | pong => cases he
    | close =>
      rw [List.mem_singleton.1 he]
      rfl
    | received isFragment opcode payload =>
      rw [WireEvent.decode, decodeFrame] at he
      split at he
      · cases he
      · split at he
        · rw [List.mem_singleton.1 he]
          rfl
        · split at he
          · obtain ⟨messages, -, rfl⟩ := List.mem_map.1 he
            rfl
          · cases he

/-- The events of a client are what its connection says. -/
theorem filter_comesFrom (ws : List WireStep) :
    ((ws.flatMap WireStep.decode).map Prod.snd).filter (·.comesFrom guid) =
      (ws.filter (·.2.comesFrom guid)).flatMap fun w ↦ w.2.decode w.1.2 := by
  induction ws with
  | nil => rfl
  | cons w ws ih =>
    have hw : (WireStep.decode w).map Prod.snd = w.2.decode w.1.2 := by
      rw [WireStep.decode, List.map_map]
      exact List.map_id _
    rw [List.flatMap_cons, List.map_append, List.filter_append, ih, hw, List.filter_cons]
    split
    · next hfrom =>
      rw [List.flatMap_cons, List.filter_eq_self.2 fun e he ↦ (comesFrom_decode he).trans hfrom]
    · next hfrom =>
      rw [List.filter_eq_nil_iff.2 fun e he ↦ by rwa [comesFrom_decode he], List.nil_append]

/-- The messages in a call. -/
def callSays (init : Locals) : WebSockets.Call → List ClientMessage
  | .received false .TextFrame payload => dispatched init payload
  | _ => []

omit [FloatDecoder] in
/-- The end of a text frame asks for nothing. -/
theorem requests_dispatched (p : Party) (payload : Bytes) :
    (dispatched init payload).flatMap (·.requests p) =
      (textMessages init payload).flatMap (·.requests p) := by
  rw [dispatched]
  induction textMessages init payload with
  | nil => rfl
  | cons m messages ih =>
    rw [List.filter_cons, List.flatMap_cons, ← ih]
    split
    · rfl
    · next hunknown =>
      obtain rfl : m = .unknown := by simpa using hunknown
      rfl

/-- A call of a callback that is no close frame brings frames, with these messages. -/
theorem decode_call {c : WebSockets.Call}
    (hc : ∀ statusCode reason, c ≠ .close statusCode reason) :
    (∀ e ∈ (WireEvent.call guid c).decode init, e.isFrame guid) ∧
      (((WireEvent.call guid c).decode init).flatMap Event.said).flatMap
          (·.requests (.client guid)) =
        (callSays init c).flatMap (·.requests (.client guid)) := by
  cases c with
  | pong => exact ⟨List.forall_mem_nil _, rfl⟩
  | close statusCode reason => exact absurd rfl (hc statusCode reason)
  | received isFragment opcode payload =>
    rw [WireEvent.decode, decodeFrame]
    cases isFragment with
    | true => exact ⟨List.forall_mem_nil _, rfl⟩
    | false =>
      rw [if_neg Bool.false_ne_true]
      split
      · next htext =>
        subst htext
        refine ⟨List.forall_mem_singleton.2 (decide_eq_true rfl), ?_⟩
        rw [List.flatMap_singleton, callSays, requests_dispatched]
        rfl
      · next hno =>
        have hnone : callSays init (.received false opcode payload) = [] := by
          cases opcode with
          | TextFrame => exact absurd rfl hno
          | _ => rfl
        rw [hnone]
        split
        · refine ⟨fun e he ↦ ?_, ?_⟩
          · obtain ⟨messages, -, rfl⟩ := List.mem_map.1 he
            exact decide_eq_true rfl
          · rw [List.flatMap_map]
            cases binaryMessages payload <;> rfl
        · exact ⟨List.forall_mem_nil _, rfl⟩

end

/-- What a message of the client says. Values are no part of its session. -/
def Says (m : WebSockets.Message) (said : List ClientMessage) : Prop :=
  (m.opcode = .TextFrame ∧ ∃ written, List.Forall₂ Writes written said ∧
      Json.Spells (frameValue written).tokens m.payload) ∨
    m.opcode = .BinaryFrame ∧ said = []

/-- The call for the whole message says what the message says, whatever the variables held. -/
theorem Says.call {m : WebSockets.Message} {said : List ClientMessage} (h : Says m said)
    (init : Locals) : callSays init (.received false m.opcode m.payload) = said := by
  rcases h with ⟨htext, written, hwrites, hspells⟩ | ⟨hbinary, rfl⟩
  · obtain ⟨hbare, hunknown⟩ := forall_bare hwrites
    have hread : List.Forall₂ ReadAs written said := hwrites.imp fun _ _ h ↦ h.readAs
    rw [htext, callSays]
    exact dispatched_of_bare hread hbare hunknown hspells init
  · rw [hbinary]
    rfl

/-- The calls for messages say what was meant, whatever the variables without an initial value
hold. -/
theorem Says.calls {messages : List WebSockets.Message} {said : List (List ClientMessage)}
    (h : List.Forall₂ Says messages said) {calls : List (Locals × WebSockets.Call)}
    (hcalls : (calls.map Prod.snd).filter WebSockets.Call.isMessage =
      messages.map fun m ↦ .received false m.opcode m.payload) :
    (calls.flatMap fun c ↦ callSays c.1 c.2) = said.flatten := by
  induction calls generalizing messages said with
  | nil =>
    obtain rfl := List.map_eq_nil_iff.1 hcalls.symm
    cases h
    rfl
  | cons c calls ih =>
    rw [List.map_cons, List.filter_cons] at hcalls
    rw [List.flatMap_cons]
    split at hcalls
    · obtain ⟨m, messages, rfl, hm, hmessages⟩ := List.map_eq_cons_iff.1 hcalls.symm
      cases h with
      | cons hsays h =>
        rw [← hm, hsays.call, ih h hmessages.symm, List.flatten_cons]
    · next hpart =>
      have hnone : callSays c.1 c.2 = [] := by
        obtain ⟨init, c⟩ := c
        cases c with
        | pong | close => rfl
        | received isFragment opcode payload =>
          cases isFragment with
          | true => rfl
          | false => exact absurd rfl hpart
      rw [hnone, ih h hcalls, List.nil_append]

/-- Steps with these calls say what the calls say. -/
theorem exists_calls [FloatDecoder] {guid : Guid} {calls : List WebSockets.Call}
    {ws : List WireStep} (hws : ws.map Prod.snd = calls.map (.call guid)) :
    ∃ found : List (Locals × WebSockets.Call), found.map Prod.snd = calls ∧
      (ws.flatMap fun w ↦ w.2.decode w.1.2) =
        found.flatMap fun c ↦ (WireEvent.call guid c.2).decode c.1 := by
  induction ws generalizing calls with
  | nil =>
    obtain rfl := List.map_eq_nil_iff.1 hws.symm
    exact ⟨[], rfl, rfl⟩
  | cons w ws ih =>
    obtain ⟨c, calls, rfl, hc, hcalls⟩ := List.map_eq_cons_iff.1 hws.symm
    obtain ⟨found, hfound, hsame⟩ := ih hcalls.symm
    refine ⟨(w.1.2, c) :: found, by rw [List.map_cons, hfound], ?_⟩
    rw [List.flatMap_cons, List.flatMap_cons, hsame, hc]

/-- **From the bytes to the session.** A client connects and sends messages, each in any fragments,
with any masking keys, any pings in between, and any white space, order and choice of options in the
texts. When the server has handled what its connection read, and the mutex is free, the client's
session is what the messages say, whatever happened in between and whatever the variables without an
initial value held. -/
theorem wireRun_session [FloatCodec] [FloatDecoder] {start : Env} {ws : List WireStep}
    {st : Instance} (hrun : wireRun start ws = some (.ok st)) (hfree : st.mutexFree)
    {entry : ClientEntry} (hprotocol : entry.serverProtocol ≠ NT_RTT_PROTOCOL)
    (stream : WebSockets.MessageStream)
    (hws : (ws.filter (·.2.comesFrom entry.guid)).map Prod.snd =
      .event (.connect entry) :: stream.calls.map (.call entry.guid))
    {said : List (List ClientMessage)} (hsaid : List.Forall₂ Says stream.messages said) :
    st.sessionOf (.client entry.guid) = sessionAfter entry.guid said.flatten (some .fresh) := by
  obtain ⟨events, hok, hevents⟩ := wireRun_handled hrun
  have hhub := (run_hub start events).of_ok hok
  rw [hevents st rfl hfree] at hhub
  -- only what comes from the client matters
  have hstuck : st.hub.stuck = false := congrArg (!·) hfree
  have halike := (Hub.alike_initial entry.guid).run (hhub ▸ hstuck)
  rw [filter_comesFrom] at halike
  obtain ⟨w, ws', hfilter, hw, hcalls⟩ := List.map_eq_cons_iff.1 hws
  obtain ⟨found, hfound, hframes⟩ := exists_calls hcalls
  rw [hfilter, List.flatMap_cons, hw, hframes] at halike
  -- the client joins, and its frames are handled
  obtain ⟨hhears, hfresh⟩ := @Hub.Hears.connect .initial rfl entry hprotocol
  have hcall (c : Locals × WebSockets.Call) (hc : c ∈ found) :=
    @decode_call _ entry.guid c.1 c.2 (stream.ne_close (hfound ▸ List.mem_map_of_mem hc))
  have hheard : ∀ e ∈ found.flatMap fun c ↦ (WireEvent.call entry.guid c.2).decode c.1,
      e.isFrame entry.guid := by
    intro e he
    obtain ⟨c, hc, he⟩ := List.mem_flatMap.1 he
    exact (hcall c hc).1 e he
  have hsession : st.sessionOf (.client entry.guid) = _ :=
    (congrArg (fun h ↦ h.broker.sessions (Party.client entry.guid)) hhub).trans halike.session.symm
  refine hsession.trans ((hhears.run hheard).trans ?_)
  rw [hfresh, sessionAfter, sessionAfter]
  congr 1
  -- and its messages are those that were meant
  calc ((found.flatMap fun c ↦ (WireEvent.call entry.guid c.2).decode c.1).flatMap
          Event.said).flatMap (·.requests (.client entry.guid))
      = found.flatMap fun c ↦ (callSays c.1 c.2).flatMap (·.requests (.client entry.guid)) := by
        rw [List.flatMap_assoc, List.flatMap_assoc]
        exact List.flatMap_congr fun c hc ↦ List.flatMap_assoc.symm.trans (hcall c hc).2
    _ = (found.flatMap fun c ↦ callSays c.1 c.2).flatMap (·.requests (.client entry.guid)) :=
        List.flatMap_assoc.symm
    _ = said.flatten.flatMap (·.requests (.client entry.guid)) := by
        rw [Says.calls hsaid (by rw [hfound, stream.filter_isMessage])]

set_option maxRecDepth 8000 in
/-- The session is the first client's own, whatever the second one publishes. -/
theorem wireRun_session_sample : ∃ st,
    @wireRun .fractional .fractional {} wireSampleSteps = some (.ok st) ∧
      st.sessionOf (.client 1) = sessionAfter 1 saidSample (some .fresh) := by
  obtain ⟨st, hrun, hfree⟩ := exists_wireSample
  have hown : (wireSampleSteps.filter (·.2.comesFrom 1)).map Prod.snd =
      .event (.connect (.sample 1 "a")) :: wireSample.calls.map (.call 1) := by
    have hcalls (init : Locals) (calls : List WebSockets.Call) :
        ((calls.map (callSample init 1)).filter (·.2.comesFrom 1)).map Prod.snd =
          calls.map (.call 1) := by
      rw [List.filter_eq_self.2 fun w hw ↦ ?_, List.map_map]
      · rfl
      · obtain ⟨c, -, rfl⟩ := List.mem_map.1 hw
        rfl
    have hparts : wireSample.calls.map (WireEvent.call 1) =
        (wireSample.calls.take 1).map (.call 1) ++ (wireSample.calls.drop 1).map (.call 1) := by
      rw [← List.map_append, List.take_append_drop]
    rw [hparts, wireSampleSteps]
    simp only [List.filter_append, List.map_append, hcalls]
    rfl
  have hwrites : List.Forall₂ Writes writtenSample saidSample := by
    have hsubscribe := @Writes.subscribe [ascii "/x"] 1 {} [] _ (by decide) (.refl _) (.swap ..)
    have hpublish := @Writes.publish (ascii "/c") 3 (ascii "int") {} [] _ (by decide) (by decide)
      (.refl _) (.swap ..)
    rw [show parseDataType (ascii "int") = .int by decide] at hpublish
    exact .cons hsubscribe (.cons hpublish .nil)
  have hsays : List.Forall₂ Says wireSample.messages [saidSample] := by
    have hpayload (text : Str) : text.take 30 ++ [] ++ text.drop 30 = text := by
      rw [List.append_nil, List.take_append_drop]
    refine .cons (.inl ⟨rfl, writtenSample, hwrites, ?_⟩) .nil
    show Json.Spells _ (List.take 30 _ ++ [] ++ List.drop 30 _)
    rw [hpayload]
    exact Json.spells_flatMap _
  refine ⟨st, hrun, ?_⟩
  have hsession := @wireRun_session .fractional .fractional _ _ _ hrun hfree (.sample 1 "a")
    (by decide) wireSample hown [saidSample] hsays
  rwa [List.flatten_singleton] at hsession

end NetworkTables
