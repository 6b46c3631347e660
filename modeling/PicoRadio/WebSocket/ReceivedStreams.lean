import PicoRadio.WebSocket.MessageDelivery

/-!
# What is received of a stream

The message loop reads the bytes of a stream, in however many pieces they arrive, unmasks the
payloads and puts the fragments of a message together. Of a stream of messages that are fragmented
and masked in any way, with pings and pongs between their frames, the callbacks get the messages
(`enterPollLoop_received`), as long as no call of `readBytes` returns less than a field and no
answer to a ping fails.
-/

namespace WebSockets

/-- A call of `pongCallback`. -/
def Call.isPong : Call → Bool
  | pong _ => true
  | received _ _ _ | close _ _ => false

theorem WebSocketOpCode.isNamed_of_isPingPong {opcode : WebSocketOpCode} (h : opcode.isPingPong) :
    opcode.isNamed := by
  cases opcode with
  | Ping | Pong => rfl
  | _ => cases h

namespace WebSocket

variable {ws ws' : WebSocket} {outcomes : List WriteOutcome} {f : WireFrame}
  {frames : List WireFrame}

/-- A ping is answered, and a pong told, while a message is being received. -/
theorem handlePayload_pingPong_heard {f : Frame} (h : ws.Receiving outcomes)
    (herror : .error ∉ outcomes) (hopcode : f.1.opcode.isPingPong) (hFIN : f.1.FIN) :
    ∃ ws' heard, ws.handlePayload f.1 f.2 = .ok ws' ∧ ws'.Receiving outcomes ∧
      ws'.currentFrame = { ws.currentFrame with payload := ws.currentFrame.payload.afterFrame } ∧
      ws'.called = ws.called ++ heard ∧ ∀ c ∈ heard, c.isPong := by
  have hends : Ends (ws.handlePayload f.1 f.2)
      (fun ws' ↦ ∃ heard, ws'.called = ws.called ++ heard ∧ ∀ c ∈ heard, c.isPong)
      fun _ ↦ True := by
    rw [handlePayload, handleFrame, hFIN, Bool.not_true, if_neg Bool.false_ne_true]
    cases hop : f.1.opcode with
    | Ping =>
      refine ((sendControl_wrote .Pong f.2).mono (fun _ ↦ id) fun _ _ ↦ trivial).bind
        fun ws' hwrote ↦ ⟨[], ?_, List.forall_mem_nil _⟩
      exact hwrote.called.trans (List.append_nil _).symm
    | Pong =>
      cases ws.pongCallback with
      | true => exact ⟨_, rfl, List.forall_mem_singleton.2 rfl⟩
      | false => exact ⟨[], (List.append_nil _).symm, List.forall_mem_nil _⟩
    | _ =>
      rw [hop] at hopcode
      cases hopcode
  have hping := handlePayload_pingPong h hopcode hFIN
  cases hhandle : ws.handlePayload f.1 f.2 with
  | error e => exact absurd (hping.of_error hhandle).2 herror
  | ok ws' =>
    obtain ⟨hreceiving, hframe, -⟩ := hping.of_ok hhandle
    obtain ⟨heard, hcalled, hpong⟩ := hends.of_ok hhandle
    exact ⟨ws', heard, rfl, hreceiving, hframe, hcalled, hpong⟩

/-- The loop goes on behind a frame that is handled. -/
theorem framesLoop_cons (hconnected : ws.isConnected) (hnamed : f.handed.1.opcode.isNamed)
    (hhandle : ws.handlePayload f.handed.1 f.handed.2 = .ok ws') (frames : List WireFrame) :
    (framesLoop (f :: frames) ws).ends = (framesLoop frames ws').ends := by
  have hnamed : f.header.opcode.isNamed := hnamed
  have hhandle : ws.handlePayload f.header f.handed.2 = .ok ws' := hhandle
  rw [framesLoop, if_pos hconnected, if_pos hnamed, afterRead, hhandle]

/-- What the loop comes to, and the calls that it makes. -/
def Hears (calls : List Call) (frames : List WireFrame) (ws : WebSocket) : Prop :=
  ∃ ws' heard, (framesLoop frames ws).ends = .ok ws' ∧ ws'.called = ws.called ++ heard ∧
    heard.filter (fun c ↦ !c.isPong) = calls

/-- The calls of one frame come before those of the others. -/
theorem Hears.cons {calls first heard : List Call} (hconnected : ws.isConnected)
    (hnamed : f.handed.1.opcode.isNamed)
    (hhandle : ws.handlePayload f.handed.1 f.handed.2 = .ok ws')
    (hcalled : ws'.called = ws.called ++ heard)
    (hheard : heard.filter (fun c ↦ !c.isPong) = first) (h : ws'.Hears calls frames) :
    ws.Hears (first ++ calls) (f :: frames) := by
  obtain ⟨ws₂, heard₂, hends, hcalled₂, hheard₂⟩ := h
  refine ⟨ws₂, heard ++ heard₂, (framesLoop_cons hconnected hnamed hhandle frames).trans hends, ?_,
    ?_⟩
  · rw [hcalled₂, hcalled, List.append_assoc]
  · rw [List.filter_append, hheard, hheard₂]

theorem Receiving.isConnected (h : ws.Receiving outcomes) (herror : .error ∉ outcomes) :
    ws.isConnected :=
  h.connected.resolve_right herror

/-- The loop makes the calls that the frames should lead to, and between them those for pongs. -/
theorem framesLoop_assembles {begun : Option (WebSocketOpCode × Bytes)} {calls : List Call}
    (h : Assembles begun (frames.map WireFrame.handed) calls) (hws : ws.Receiving outcomes)
    (herror : .error ∉ outcomes) (hbegun : ws.Holds begun) : ws.Hears calls frames := by
  generalize hhanded : frames.map WireFrame.handed = handed at h
  have hnone (ws : WebSocket) : ws.Holds none := fun m hm ↦ by cases hm
  have hsome {ws : WebSocket} {opcode : WebSocketOpCode} {payload : Bytes}
      (h : ws.Begun opcode payload) : ws.Holds (some (opcode, payload)) := by
    intro m hm
    obtain rfl := Option.some.inj hm
    exact h
  induction h generalizing frames ws with
  | nil =>
    obtain rfl := List.map_eq_nil_iff.1 hhanded
    refine ⟨ws.tcpDisconnect, [], ?_, (List.append_nil _).symm, rfl⟩
    rw [framesLoop, if_pos (hws.isConnected herror)]
  | pingPong f hopcode hFIN _ ih =>
    obtain ⟨f, frames, rfl, rfl, hrest⟩ := List.map_eq_cons_iff.1 hhanded
    obtain ⟨ws', heard, hhandle, hreceiving, hframe, hcalled, hpong⟩ :=
      handlePayload_pingPong_heard hws herror hopcode hFIN
    have hheard : heard.filter (fun c ↦ !c.isPong) = [] :=
      List.filter_eq_nil_iff.2 fun c hc ↦ by rw [hpong c hc]; exact Bool.false_ne_true
    refine Hears.cons (hws.isConnected herror) (WebSocketOpCode.isNamed_of_isPingPong hopcode)
      hhandle hcalled hheard (ih hreceiving (fun m hm ↦ ?_) hrest)
    rw [Begun, hframe, hbegun m hm, afterFrame_alloc]
  | whole f hopcode hFIN _ ih =>
    obtain ⟨f, frames, rfl, rfl, hrest⟩ := List.map_eq_cons_iff.1 hhanded
    obtain ⟨currentFrame, hhandle⟩ := handlePayload_whole hws.callback hopcode hFIN
    exact Hears.cons (hws.isConnected herror) (WebSocketOpCode.isNamed_of_isData hopcode) hhandle
      rfl rfl (ih ⟨hws.callback, hws.connected, hws.writes⟩ (hnone _) hrest)
  | first f hopcode hFIN _ ih =>
    obtain ⟨f, frames, rfl, rfl, hrest⟩ := List.map_eq_cons_iff.1 hhanded
    have hhandle := handlePayload_first hws.callback hopcode hFIN
    exact Hears.cons (hws.isConnected herror) (WebSocketOpCode.isNamed_of_isData hopcode) hhandle
      rfl rfl (ih ⟨hws.callback, hws.connected, hws.writes⟩ (hsome rfl) hrest)
  | middle f hopcode hFIN _ ih =>
    obtain ⟨f, frames, rfl, rfl, hrest⟩ := List.map_eq_cons_iff.1 hhanded
    have hhandle := handlePayload_middle hws.callback (hbegun _ rfl) hopcode hFIN
    exact Hears.cons (hws.isConnected herror) (by rw [hopcode]; rfl) hhandle rfl rfl
      (ih ⟨hws.callback, hws.connected, hws.writes⟩ (hsome rfl) hrest)
  | last f hopcode hFIN _ ih =>
    obtain ⟨f, frames, rfl, rfl, hrest⟩ := List.map_eq_cons_iff.1 hhanded
    obtain ⟨currentFrame, hhandle⟩ := handlePayload_last hws.callback (hbegun _ rfl) hopcode hFIN
    exact Hears.cons (hws.isConnected herror) (by rw [hopcode]; rfl) hhandle rfl rfl
      (ih ⟨hws.callback, hws.connected, hws.writes⟩ (hnone _) hrest)

end WebSocket

open Network in
/-- **A stream of messages is received as it was meant.** The callbacks get every message, in order,
its last call with the whole of it; besides, they get pongs. -/
theorem enterPollLoop_received {messages : List Message} {frames : List WireFrame} {sizes : List ℕ}
    (hframes : ((frames.map WireFrame.handed).filter fun f ↦ !f.1.opcode.isPingPong) =
      messages.flatMap Message.frames)
    (hFIN : ∀ f ∈ frames, f.handed.1.opcode.isPingPong → f.handed.1.FIN)
    (hserved : Served (fieldsOf frames) sizes) {ws : WebSocket} (hconnected : ws.isConnected)
    (hcallback : ws.receivedCallback) (hwrites : .error ∉ ws.writes) :
    ∃ ws' heard, (enterPollLoop (pieces (streamOf frames) sizes) ws).ends = .ok ws' ∧
      ws'.called = ws.called ++ heard ∧
      heard.filter (fun c ↦ !c.isPong) = messages.flatMap Message.calls := by
  have hassembles : Assembles none (frames.map WireFrame.handed)
      (messages.flatMap Message.calls) := by
    refine .insert (hframes ▸ Message.assembles_flatMap messages) fun f hf ↦ ?_
    obtain ⟨f, hmem, rfl⟩ := List.mem_map.1 hf
    exact hFIN f hmem
  rw [enterPollLoop_served (hserved.of_initial (isPrefix_fieldsReached frames ws))]
  exact WebSocket.framesLoop_assembles hassembles ⟨hcallback, .inl hconnected, fun _ ↦ id⟩ hwrites
    fun m hm ↦ by cases hm

/-- What a peer sends, and a socket that reads it: messages, in any fragments, each masked in any
way, with pings and pongs between them. No call of `readBytes` returns less than a field, and no
answer to a ping fails. -/
structure MessageStream where
  messages : List Message
  frames : List WireFrame
  /-- How many bytes the calls of `readBytes` return at most. -/
  sizes : List ℕ
  socket : WebSocket := {}
  fragments : ((frames.map WireFrame.handed).filter fun f ↦ !f.1.opcode.isPingPong) =
    messages.flatMap Message.frames
  whole : ∀ f ∈ frames, f.handed.1.opcode.isPingPong → f.handed.1.FIN
  served : Served (fieldsOf frames) sizes
  connected : socket.isConnected
  callback : socket.receivedCallback
  writes : .error ∉ socket.writes
  fresh : socket.called = []

namespace MessageStream

variable (s : MessageStream)

/-- The calls that the message loop makes. -/
def calls : List Call :=
  match (enterPollLoop (.pieces (streamOf s.frames) s.sizes) s.socket).ends with
  | .ok ws => ws.called
  | .error _ => []

theorem filter_calls : s.calls.filter (fun c ↦ !c.isPong) = s.messages.flatMap Message.calls := by
  obtain ⟨ws, heard, hends, hcalled, hheard⟩ := enterPollLoop_received s.fragments s.whole s.served
    s.connected s.callback s.writes
  rw [s.fresh, List.nil_append] at hcalled
  rw [calls, hends, ← hheard, ← hcalled]

/-- The calls with whole messages are those for the messages. -/
theorem filter_isMessage : s.calls.filter Call.isMessage =
    s.messages.map fun m ↦ .received false m.opcode m.payload := by
  have hpong : s.calls.filter Call.isMessage =
      (s.calls.filter fun c ↦ !c.isPong).filter Call.isMessage := by
    rw [List.filter_filter]
    refine List.filter_congr fun c _ ↦ ?_
    cases c with
    | received => exact (Bool.and_true _).symm
    | pong | close => rfl
  rw [hpong, s.filter_calls, List.filter_flatMap]
  induction s.messages with
  | nil => rfl
  | cons m messages ih =>
    rw [List.flatMap_cons, ih, m.filter_calls, List.map_cons, List.singleton_append]

/-- The peer does not close the connection. -/
theorem ne_close {c : Call} (hc : c ∈ s.calls) (statusCode : UInt16) (reason : Bytes) :
    c ≠ .close statusCode reason := by
  rintro rfl
  have hmem : Call.close statusCode reason ∈ s.messages.flatMap Message.calls := by
    rw [← s.filter_calls]
    exact List.mem_filter.2 ⟨hc, rfl⟩
  obtain ⟨m, -, hm⟩ := List.mem_flatMap.1 hmem
  rcases List.mem_append.1 hm with hm | hm
  · cases m with
    | whole => cases hm
    | fragments =>
      obtain ⟨done, -, hdone⟩ := List.mem_map.1 hm
      cases hdone
  · cases List.mem_singleton.1 hm

end MessageStream

/-! ### A stream for the examples -/

/-- A frame is handed over as it was written. -/
theorem WireFrame.handed_ofBuffer {header : WebSocketFrameHeader} {payload : Bytes} (key : UInt32)
    (hnamed : header.opcode.isNamed) (hlen : header.payloadLen = payloadLenOf payload.length)
    (hpayload : payload.length < 2 ^ 32) :
    (ofBuffer header payload key hnamed hlen hpayload).handed = (header, payload) := by
  have hheader : (ofBuffer header payload key hnamed hlen hpayload).header = header :=
    WebSocketFrameHeader.ofBytes_bytes hnamed
  rw [handed, hheader]
  exact congrArg (Prod.mk header) (unmasked_keyBytes header payload key)

/-- The header of a frame that is masked. -/
def maskedHeader (opcode : WebSocketOpCode) (FIN : Bool) (length : ℕ) : WebSocketFrameHeader where
  opcode
  FIN
  MASK := true
  payloadLen := payloadLenOf length

/-- A frame that is masked with this key. -/
def WireFrame.masked (opcode : WebSocketOpCode) (FIN : Bool) (payload : Bytes) (key : UInt32)
    (hnamed : opcode.isNamed) (hpayload : payload.length < 2 ^ 32) : WireFrame :=
  ofBuffer (maskedHeader opcode FIN payload.length) payload key hnamed rfl hpayload

theorem WireFrame.handed_masked {opcode : WebSocketOpCode} (FIN : Bool) {payload : Bytes}
    (key : UInt32) (hnamed : opcode.isNamed) (hpayload : payload.length < 2 ^ 32) :
    (masked opcode FIN payload key hnamed hpayload).handed =
      (maskedHeader opcode FIN payload.length, payload) :=
  handed_ofBuffer key hnamed rfl hpayload

/-- A text in two fragments with a ping between them, all masked, each with a key of its own. -/
def MessageStream.sample (first second : Bytes) (hfirst : first.length < 2 ^ 32)
    (hsecond : second.length < 2 ^ 32) : MessageStream where
  messages := [.fragments (maskedHeader .TextFrame false first.length, first) []
    (maskedHeader .ContinuationFrame true second.length, second) ⟨rfl, rfl⟩
    (List.forall_mem_nil _) ⟨rfl, rfl⟩]
  frames := [.masked .TextFrame false first 0xdeadbeef (by decide) hfirst,
    .masked .Ping true [1, 2] 0x01020304 (by decide) (by decide),
    .masked .ContinuationFrame true second 0xcafe (by decide) hsecond]
  sizes := []
  fragments := by
    simp only [List.map_cons, List.map_nil, WireFrame.handed_masked]
    rfl
  whole := by
    intro f hf
    simp only [List.mem_cons, List.not_mem_nil, or_false] at hf
    rcases hf with rfl | rfl | rfl <;> rw [WireFrame.handed_masked]
    · rintro ⟨⟩
    · exact fun _ ↦ rfl
    · exact fun _ ↦ rfl
  served := served_nil _
  connected := rfl
  callback := rfl
  writes := List.not_mem_nil
  fresh := rfl

end WebSockets
