import PicoRadio.WebSocket.PollLoop

/-!
# Fragments are put together again

A message comes as one frame or as fragments, with pings and pongs between them. `currentFrame`
holds what has come of it. `Assembles` says which calls of `receivedCallback` frames should lead to,
frame by frame; `handleFrames_received` that they do, as long as no answer to a ping fails.

## The current frame

The buffer of the current frame is allocated by the first fragment, grows with each continuation and
is freed behind the last. A ping or pong in between is handled without it. `Begun` says what it
holds, and it is what the induction over the frames carries along; the connection matters only where
a ping has to be answered.
-/

namespace WebSockets

/-- The arguments of `handleFrame`. -/
abbrev Frame := WebSocketFrameHeader × Bytes

/-- The opcode of a message. -/
def WebSocketOpCode.isData : WebSocketOpCode → Bool
  | TextFrame | BinaryFrame => true
  | _ => false

/-- A ping or a pong. -/
def WebSocketOpCode.isPingPong : WebSocketOpCode → Bool
  | Ping | Pong => true
  | _ => false

/-- A call of `receivedCallback`. -/
def Call.isReceived : Call → Bool
  | received _ _ _ => true
  | _ => false

/-- Frames are handled one after the other. -/
def WebSocket.handleFrames (frames : List Frame) (ws : WebSocket) : Except Fault WebSocket :=
  frames.foldlM (fun ws f ↦ ws.handlePayload f.1 f.2) ws

/-- The calls of `receivedCallback` that frames lead to, when a message is begun or none is. -/
inductive Assembles : Option (WebSocketOpCode × Bytes) → List Frame → List Call → Prop
  | nil : Assembles none [] []
  | pingPong {begun : Option (WebSocketOpCode × Bytes)} {frames : List Frame} {calls : List Call}
      (f : Frame) (hopcode : f.1.opcode.isPingPong) (hFIN : f.1.FIN)
      (h : Assembles begun frames calls) : Assembles begun (f :: frames) calls
  | whole {frames : List Frame} {calls : List Call} (f : Frame) (hopcode : f.1.opcode.isData)
      (hFIN : f.1.FIN) (h : Assembles none frames calls) :
      Assembles none (f :: frames) (.received false f.1.opcode f.2 :: calls)
  | first {frames : List Frame} {calls : List Call} (f : Frame) (hopcode : f.1.opcode.isData)
      (hFIN : f.1.FIN = false) (h : Assembles (some (f.1.opcode, f.2)) frames calls) :
      Assembles none (f :: frames) (.received true f.1.opcode f.2 :: calls)
  | middle {opcode : WebSocketOpCode} {payload : Bytes} {frames : List Frame} {calls : List Call}
      (f : Frame) (hopcode : f.1.opcode = .ContinuationFrame) (hFIN : f.1.FIN = false)
      (h : Assembles (some (opcode, payload ++ f.2)) frames calls) :
      Assembles (some (opcode, payload)) (f :: frames)
        (.received true opcode (payload ++ f.2) :: calls)
  | last {opcode : WebSocketOpCode} {payload : Bytes} {frames : List Frame} {calls : List Call}
      (f : Frame) (hopcode : f.1.opcode = .ContinuationFrame) (hFIN : f.1.FIN)
      (h : Assembles none frames calls) :
      Assembles (some (opcode, payload)) (f :: frames)
        (.received false opcode (payload ++ f.2) :: calls)

/-! ### What one frame does -/

namespace WebSocket

variable {ws : WebSocket} {f : Frame}

theorem read_alloc (payload : Bytes) :
    (Buffer.alloc payload).read payload.length = .ok payload := by
  rw [Buffer.alloc]
  split
  · next h => rw [h]; rfl
  · rfl

theorem free_alloc (payload : Bytes) : (Buffer.alloc payload).free = .ok () := by
  rw [Buffer.alloc]
  split <;> rfl

theorem afterFrame_alloc (payload : Bytes) :
    (Buffer.alloc payload).afterFrame = .alloc payload := by
  rw [Buffer.alloc]
  split <;> rfl

/-- The current frame is a message of which this much has come. -/
def Begun (opcode : WebSocketOpCode) (payload : Bytes) (ws : WebSocket) : Prop :=
  ws.currentFrame = ⟨true, opcode, .alloc payload, payload.length⟩

theorem callReceived_alloc (hcallback : ws.receivedCallback) (isFragment : Bool)
    (opcode : WebSocketOpCode) (payload : Bytes) :
    callReceived { ws with
        currentFrame := ⟨isFragment, opcode, .alloc payload, payload.length⟩ } =
      .ok { ws with
        currentFrame := ⟨isFragment, opcode, .alloc payload, payload.length⟩
        called := ws.called ++ [.received isFragment opcode payload] } := by
  rw [callReceived, if_pos hcallback, read_alloc]
  rfl

theorem handlePayload_whole (hcallback : ws.receivedCallback) (hopcode : f.1.opcode.isData)
    (hFIN : f.1.FIN) :
    ∃ currentFrame, ws.handlePayload f.1 f.2 =
      .ok { ws with currentFrame, called := ws.called ++ [.received false f.1.opcode f.2] } := by
  obtain ⟨header, payload⟩ := f
  have hread : (if payload = [] then Buffer.null else .lent payload).read payload.length =
      .ok payload := by
    split
    · next h => rw [h]; rfl
    · rfl
  have hhandle : ws.handleFrame header payload = .ok { ws with
      currentFrame := ⟨false, header.opcode, if payload = [] then .null else .lent payload,
        payload.length⟩
      called := ws.called ++ [.received false header.opcode payload] } := by
    cases hop : header.opcode with
    | TextFrame | BinaryFrame =>
      simp only [handleFrame, hop, show header.FIN = true from hFIN, hcallback, callReceived, hread,
        Bool.not_true, Bool.false_eq_true, if_false, if_true]
      rfl
    | _ =>
      rw [hop] at hopcode
      cases hopcode
  rw [handlePayload, hhandle]
  exact ⟨_, rfl⟩

theorem handlePayload_first (hcallback : ws.receivedCallback) (hopcode : f.1.opcode.isData)
    (hFIN : f.1.FIN = false) :
    ws.handlePayload f.1 f.2 =
      .ok { ws with
        currentFrame := ⟨true, f.1.opcode, .alloc f.2, f.2.length⟩
        called := ws.called ++ [.received true f.1.opcode f.2] } := by
  have hne : f.1.opcode ≠ .ContinuationFrame := by
    intro h
    rw [h] at hopcode
    cases hopcode
  rw [handlePayload, handleFrame, hFIN, Bool.not_false, if_pos rfl, if_pos hne,
    callReceived_alloc hcallback]
  simp only [ok_bind, afterFrame_alloc]
  rfl

/-- The payload of a continuation is put behind what has come. -/
theorem appendPayload_begun {isFragment : Bool} {opcode : WebSocketOpCode} {begun : Bytes}
    (h : ws.currentFrame = ⟨isFragment, opcode, .alloc begun, begun.length⟩) (payload : Bytes) :
    ws.appendPayload payload = .ok { ws with
      currentFrame := ⟨isFragment, opcode, .alloc (begun ++ payload),
        (begun ++ payload).length⟩ } := by
  rw [appendPayload, h, read_alloc, free_alloc, List.length_append]
  rfl

theorem handlePayload_middle (hcallback : ws.receivedCallback) {opcode : WebSocketOpCode}
    {begun : Bytes} (hbegun : ws.Begun opcode begun)
    (hopcode : f.1.opcode = .ContinuationFrame) (hFIN : f.1.FIN = false) :
    ws.handlePayload f.1 f.2 =
      .ok { ws with
        currentFrame := ⟨true, opcode, .alloc (begun ++ f.2), (begun ++ f.2).length⟩
        called := ws.called ++ [.received true opcode (begun ++ f.2)] } := by
  rw [handlePayload, handleFrame, hFIN, Bool.not_false, if_pos rfl, if_neg (not_not.mpr hopcode),
    appendPayload_begun hbegun, ok_bind, callReceived_alloc hcallback]
  simp only [ok_bind, afterFrame_alloc]
  rfl

theorem handlePayload_last (hcallback : ws.receivedCallback) {opcode : WebSocketOpCode}
    {begun : Bytes} (hbegun : ws.Begun opcode begun)
    (hopcode : f.1.opcode = .ContinuationFrame) (hFIN : f.1.FIN) :
    ∃ currentFrame, ws.handlePayload f.1 f.2 =
      .ok { ws with
        currentFrame, called := ws.called ++ [.received false opcode (begun ++ f.2)] } := by
  rw [handlePayload, handleFrame, hFIN, hopcode, Bool.not_true, if_neg Bool.false_ne_true]
  simp only [appendPayload_begun hbegun, ok_bind, callReceived_alloc hcallback]
  exact ⟨_, rfl⟩

/-! ### Pings and pongs -/

/-- What a write leaves alone. It may lose the connection, if it fails. -/
structure Wrote (ws ws' : WebSocket) : Prop where
  currentFrame : ws'.currentFrame = ws.currentFrame
  called : ws'.called = ws.called
  callback : ws'.receivedCallback = ws.receivedCallback
  writes : ws'.writes ⊆ ws.writes
  connected : ws'.isConnected ∨ .error ∈ ws.writes

theorem sendBuffer_wrote (hconnected : ws.isConnected) (buffer : Bytes) :
    Ends (ws.sendBuffer buffer) (fun r ↦ ws.Wrote r.2) fun _ ↦ False := by
  have hsub : ws.writes.tail ⊆ ws.writes := List.tail_subset _
  obtain ⟨tcp, htcp, htrue⟩ := (Option.any_eq_true _ _).mp hconnected
  rw [sendBuffer]
  cases hw : ws.writes with
  | nil =>
    simp only [List.headD_nil, reduceCtorEq, if_false, writeBytes, htcp, htrue, if_true]
    exact ⟨rfl, rfl, rfl, hw ▸ hsub, .inl htrue⟩
  | cons outcome writes =>
    rw [List.headD_cons, List.tail_cons]
    rw [hw] at hsub
    cases outcome with
    -- the mutex of the socket was not free in time: nothing is written, and nothing lost
    | mutexTimeout => exact ⟨rfl, rfl, rfl, hw ▸ hsub, .inl hconnected⟩
    -- the write fails, which may lose the connection
    | error =>
      simp only [reduceCtorEq, if_false, writeBytes, htcp, htrue, if_true]
      exact ⟨rfl, rfl, rfl, hw ▸ hsub, .inr (hw ▸ List.mem_cons_self)⟩
    | all | some n =>
      simp only [reduceCtorEq, if_false, writeBytes, htcp, htrue, if_true]
      exact ⟨rfl, rfl, rfl, hw ▸ hsub, .inl htrue⟩

theorem sendControl_wrote (opcode : WebSocketOpCode) (payload : Bytes) :
    Ends (ws.sendControl opcode payload) ws.Wrote
      fun e ↦ e = .notConnected ∧ ws.isConnected = false := by
  rw [sendControl, assertConnected]
  by_cases hconnected : ws.isConnected
  · obtain ⟨randoms, hkey⟩ := ws.maskingKey_snd
    have hwrote : Ends (ws.sendMasked (ws.headerOf opcode payload.length) payload)
        (fun r ↦ Wrote { ws with randoms } r.2) fun _ ↦ False := by
      have hsame : isConnected { ws with randoms } := hconnected
      rw [sendMasked, hkey]
      exact sendBuffer_wrote hsame _
    rw [if_pos hconnected, ok_bind]
    refine (hwrote.mono (fun r hr ↦ hr) fun _ ↦ False.elim).bind fun r hr ↦ ?_
    exact ⟨hr.currentFrame, hr.called, hr.callback, hr.writes, hr.connected⟩
  · rw [if_neg hconnected]
    exact ⟨rfl, by simpa using hconnected⟩

/-- The socket is connected or one of these writes has failed, and receives. -/
structure Receiving (outcomes : List WriteOutcome) (ws : WebSocket) : Prop where
  callback : ws.receivedCallback
  connected : ws.isConnected ∨ .error ∈ outcomes
  writes : ws.writes ⊆ outcomes

/-- A ping or a pong leaves the message alone that is being received. The answer to a ping may fail
and lose the connection. -/
theorem handlePayload_pingPong {outcomes : List WriteOutcome} (h : ws.Receiving outcomes)
    (hopcode : f.1.opcode.isPingPong) (hFIN : f.1.FIN) :
    Ends (ws.handlePayload f.1 f.2)
      (fun ws' ↦ ws'.Receiving outcomes ∧
        ws'.currentFrame =
          { ws.currentFrame with payload := ws.currentFrame.payload.afterFrame } ∧
        ws'.called.filter Call.isReceived = ws.called.filter Call.isReceived)
      fun e ↦ e = .notConnected ∧ .error ∈ outcomes := by
  have hafter {ws' : WebSocket} (hwrote : ws.Wrote ws') :
      Receiving outcomes { ws' with
        currentFrame :=
          { ws'.currentFrame with payload := ws'.currentFrame.payload.afterFrame } } := by
    refine ⟨hwrote.callback.trans h.callback, ?_, fun outcome hmem ↦ h.writes (hwrote.writes hmem)⟩
    exact hwrote.connected.imp_right fun hmem ↦ h.writes hmem
  rw [handlePayload, handleFrame, hFIN, Bool.not_true, if_neg Bool.false_ne_true]
  cases hop : f.1.opcode with
  -- only the answer to a ping writes, so only it may find no connection
  | Ping =>
    have hpong : Ends (ws.pong f.2) ws.Wrote fun e ↦ e = .notConnected ∧ .error ∈ outcomes :=
      (sendControl_wrote .Pong f.2).mono (fun _ ↦ id) fun e he ↦
        ⟨he.1, h.connected.resolve_left (by rw [he.2]; exact Bool.false_ne_true)⟩
    refine hpong.bind fun ws' hwrote ↦ ⟨hafter hwrote, ?_, by rw [hwrote.called]⟩
    rw [hwrote.currentFrame]
  | Pong =>
    cases ws.pongCallback with
    | true => exact ⟨⟨h.callback, h.connected, h.writes⟩, rfl, by simp [call, Call.isReceived]⟩
    | false => exact ⟨⟨h.callback, h.connected, h.writes⟩, rfl, rfl⟩
  | _ =>
    rw [hop] at hopcode
    cases hopcode

/-! ### Runs -/

/-- The calls of `receivedCallback` so far. -/
def received (ws : WebSocket) : List Call :=
  ws.called.filter Call.isReceived

/-- The message that is begun is in the current frame. -/
def Holds (begun : Option (WebSocketOpCode × Bytes)) (ws : WebSocket) : Prop :=
  ∀ m ∈ begun, ws.Begun m.1 m.2

/-- A call comes before those of the frames that follow. -/
theorem handleFrames_next {ws' : WebSocket} {c : Call} {frames : List Frame} {calls : List Call}
    {E : Fault → Prop} (hcalled : ws'.called = ws.called ++ [c]) (hc : c.isReceived)
    (hrest : Ends (ws'.handleFrames frames) (fun s ↦ s.received = ws'.received ++ calls) E) :
    Ends (ws'.handleFrames frames) (fun s ↦ s.received = ws.received ++ c :: calls) E := by
  refine hrest.imp fun s hs ↦ ?_
  rw [hs, received, received, hcalled, List.filter_append, List.filter_cons_of_pos hc,
    List.filter_nil, List.append_assoc]
  rfl

/-- Frames lead to the calls that they should lead to. Only where pings come, it matters how writes
end. -/
theorem handleFrames_assembles {outcomes : List WriteOutcome}
    {begun : Option (WebSocketOpCode × Bytes)} {frames : List Frame} {calls : List Call}
    (h : Assembles begun frames calls) (hcallback : ws.receivedCallback)
    (hws : ∀ f ∈ frames, f.1.opcode.isPingPong → ws.Receiving outcomes) (hbegun : ws.Holds begun) :
    Ends (ws.handleFrames frames) (fun ws' ↦ ws'.received = ws.received ++ calls)
      fun e ↦ e = .notConnected ∧ .error ∈ outcomes := by
  -- on the derivation: one case for each kind of frame
  induction h generalizing ws with
  | nil => exact (List.append_nil _).symm
  -- the buffer of the message that is begun is an allocated one and stays in the current frame
  | pingPong f hopcode hFIN _ ih =>
    have hping := hws f List.mem_cons_self hopcode
    rw [handleFrames, List.foldlM_cons]
    refine (handlePayload_pingPong hping hopcode hFIN).bind fun ws' hws' ↦ ?_
    refine (ih hws'.1.callback (fun _ _ _ ↦ hws'.1) fun m hm ↦ ?_).imp fun s hs ↦ hs.trans ?_
    · rw [Begun, hws'.2.1, hbegun m hm, afterFrame_alloc]
    · rw [received, hws'.2.2]
      rfl
  | whole f hopcode hFIN _ ih =>
    obtain ⟨currentFrame, hf⟩ := handlePayload_whole hcallback hopcode hFIN
    rw [handleFrames, List.foldlM_cons, hf, ok_bind]
    refine handleFrames_next rfl rfl (ih hcallback (fun g hg hping ↦ ?_) fun m hm ↦ ?_)
    · obtain ⟨hcall, hconnected, hwrites⟩ := hws g (List.mem_cons_of_mem f hg) hping
      exact ⟨hcall, hconnected, hwrites⟩
    · cases hm
  | first f hopcode hFIN _ ih =>
    rw [handleFrames, List.foldlM_cons, handlePayload_first hcallback hopcode hFIN, ok_bind]
    refine handleFrames_next rfl rfl (ih hcallback (fun g hg hping ↦ ?_) fun m hm ↦ ?_)
    · obtain ⟨hcall, hconnected, hwrites⟩ := hws g (List.mem_cons_of_mem f hg) hping
      exact ⟨hcall, hconnected, hwrites⟩
    · obtain rfl := Option.some.inj hm
      rfl
  | middle f hopcode hFIN _ ih =>
    rw [handleFrames, List.foldlM_cons,
      handlePayload_middle hcallback (hbegun _ rfl) hopcode hFIN, ok_bind]
    refine handleFrames_next rfl rfl (ih hcallback (fun g hg hping ↦ ?_) fun m hm ↦ ?_)
    · obtain ⟨hcall, hconnected, hwrites⟩ := hws g (List.mem_cons_of_mem f hg) hping
      exact ⟨hcall, hconnected, hwrites⟩
    · obtain rfl := Option.some.inj hm
      rfl
  | last f hopcode hFIN _ ih =>
    obtain ⟨currentFrame, hf⟩ := handlePayload_last hcallback (hbegun _ rfl) hopcode hFIN
    rw [handleFrames, List.foldlM_cons, hf, ok_bind]
    refine handleFrames_next rfl rfl (ih hcallback (fun g hg hping ↦ ?_) fun m hm ↦ ?_)
    · obtain ⟨hcall, hconnected, hwrites⟩ := hws g (List.mem_cons_of_mem f hg) hping
      exact ⟨hcall, hconnected, hwrites⟩
    · cases hm

end WebSocket

/-! ### Messages -/

/-- A message as it is sent. -/
inductive Message
  | whole (f : Frame) (hopcode : f.1.opcode.isData) (hFIN : f.1.FIN)
  | fragments (first : Frame) (middle : List Frame) (last : Frame)
      (hfirst : first.1.opcode.isData ∧ first.1.FIN = false)
      (hmiddle : ∀ f ∈ middle, f.1.opcode = .ContinuationFrame ∧ f.1.FIN = false)
      (hlast : last.1.opcode = .ContinuationFrame ∧ last.1.FIN)

namespace Message

/-- The frames of a message. -/
def frames : Message → List Frame
  | whole f _ _ => [f]
  | fragments first middle last _ _ _ => first :: (middle ++ [last])

/-- The concatenation of the payloads. -/
def payload : Message → Bytes
  | whole f _ _ => f.2
  | fragments first middle last _ _ _ => first.2 ++ middle.flatMap Prod.snd ++ last.2

/-- The opcode of the first frame. -/
def opcode : Message → WebSocketOpCode
  | whole f _ _ => f.1.opcode
  | fragments first _ _ _ _ _ => first.1.opcode

/-- The calls for the fragments before the last: each carries what has come so far. -/
def partialCalls : Message → List Call
  | whole _ _ _ => []
  | fragments first middle _ _ _ _ => middle.inits.map fun done ↦
      .received true first.1.opcode (first.2 ++ done.flatMap Prod.snd)

/-- The calls that a message leads to. The last one is for the whole message. -/
def calls (m : Message) : List Call :=
  m.partialCalls ++ [.received false m.opcode m.payload]

/-- Behind a begun message its other fragments lead to the other calls. -/
theorem assembles_fragments (opcode : WebSocketOpCode) (begun : Bytes) {middle : List Frame}
    (hmiddle : ∀ f ∈ middle, f.1.opcode = .ContinuationFrame ∧ f.1.FIN = false) {last : Frame}
    (hlast : last.1.opcode = .ContinuationFrame ∧ last.1.FIN) {frames : List Frame}
    {calls : List Call} (h : Assembles none frames calls) :
    ∃ rest, (middle.inits.map fun done ↦
          Call.received true opcode (begun ++ done.flatMap Prod.snd)) ++
        .received false opcode (begun ++ middle.flatMap Prod.snd ++ last.2) :: calls =
          .received true opcode begun :: rest ∧
      Assembles (some (opcode, begun)) (middle ++ last :: frames) rest := by
  -- on the fragments in the middle; what has come so far grows with them
  induction middle generalizing begun with
  | nil =>
    refine ⟨_, ?_, .last last hlast.1 hlast.2 h⟩
    simp
  | cons f middle ih =>
    obtain ⟨hf, hmiddle⟩ := List.forall_mem_cons.mp hmiddle
    obtain ⟨rest, hrest, hassembles⟩ := ih (begun ++ f.2) hmiddle
    refine ⟨_, ?_, .middle f hf.1 hf.2 hassembles⟩
    rw [← hrest]
    simp [Function.comp_def]

/-- A message leads to its calls. -/
theorem assembles (m : Message) {frames : List Frame} {calls : List Call}
    (h : Assembles none frames calls) :
    Assembles none (m.frames ++ frames) (m.calls ++ calls) := by
  cases m with
  | whole f hopcode hFIN => exact .whole f hopcode hFIN h
  | fragments first middle last hfirst hmiddle hlast =>
    obtain ⟨rest, hrest, hassembles⟩ :=
      assembles_fragments first.1.opcode first.2 hmiddle hlast h
    have hcalls : (fragments first middle last hfirst hmiddle hlast).calls ++ calls =
        .received true first.1.opcode first.2 :: rest := by
      rw [← hrest, Message.calls, List.append_assoc]
      rfl
    have hframes : (fragments first middle last hfirst hmiddle hlast).frames ++ frames =
        first :: (middle ++ last :: frames) := by
      simp [Message.frames]
    rw [hcalls, hframes]
    exact .first first hfirst.1 hfirst.2 hassembles

theorem assembles_flatMap (messages : List Message) :
    Assembles none (messages.flatMap frames) (messages.flatMap calls) := by
  induction messages with
  | nil => exact .nil
  | cons m messages ih =>
    rw [List.flatMap_cons, List.flatMap_cons]
    exact m.assembles ih

end Message

/-- Pings and pongs may be put in anywhere. -/
theorem Assembles.insert {begun : Option (WebSocketOpCode × Bytes)} {frames : List Frame}
    {calls : List Call}
    (h : Assembles begun (frames.filter fun f ↦ !f.1.opcode.isPingPong) calls)
    (hFIN : ∀ f ∈ frames, f.1.opcode.isPingPong → f.1.FIN) : Assembles begun frames calls := by
  -- on the frames, of which the filter leaves out the pings and pongs
  induction frames generalizing begun calls with
  | nil => exact h
  | cons f frames ih =>
    obtain ⟨hf, hframes⟩ := List.forall_mem_cons.mp hFIN
    by_cases hpingPong : f.1.opcode.isPingPong
    · rw [List.filter_cons_of_neg (by simpa using hpingPong)] at h
      exact .pingPong f hpingPong (hf hpingPong) (ih h hframes)
    · rw [List.filter_cons_of_pos (by simpa using hpingPong)] at h
      cases h with
      | pingPong _ hopcode => exact absurd hopcode hpingPong
      | whole _ hopcode hFIN h => exact .whole f hopcode hFIN (ih h hframes)
      | first _ hopcode hFIN h => exact .first f hopcode hFIN (ih h hframes)
      | middle _ hopcode hFIN h => exact .middle f hopcode hFIN (ih h hframes)
      | last _ hopcode hFIN h => exact .last f hopcode hFIN (ih h hframes)

/-- Messages are received one after the other: each leads to calls with the fragments that have come
so far and, last, to one call with the whole message. Pings and pongs in between change nothing,
unless the answer to a ping fails and another ping comes on the lost connection. -/
theorem WebSocket.handleFrames_received {messages : List Message} {frames : List Frame}
    (hframes : (frames.filter fun f ↦ !f.1.opcode.isPingPong) = messages.flatMap Message.frames)
    (hFIN : ∀ f ∈ frames, f.1.opcode.isPingPong → f.1.FIN) {ws : WebSocket}
    (hconnected : ws.isConnected) (hcallback : ws.receivedCallback) :
    Ends (ws.handleFrames frames)
      (fun ws' ↦ ws'.received = ws.received ++ messages.flatMap Message.calls)
      fun e ↦ e = .notConnected ∧ .error ∈ ws.writes := by
  have hassembles : Assembles none frames (messages.flatMap Message.calls) :=
    .insert (hframes ▸ Message.assembles_flatMap messages) hFIN
  have hreceiving : ws.Receiving ws.writes := ⟨hcallback, .inl hconnected, List.Subset.refl _⟩
  refine handleFrames_assembles hassembles hcallback (fun _ _ _ ↦ hreceiving) ?_
  intro m hm
  cases hm

/-- A text in three fragments, with a ping before the last. -/
theorem WebSocket.handleFrames_received_sample :
    Ends (handleFrames [({ opcode := .TextFrame }, [1]), ({}, [2]),
          ({ opcode := .Ping, FIN := true }, []), ({ FIN := true }, [3])] {})
      (fun ws' ↦ ws'.received = received {} ++
        [.received true .TextFrame [1], .received true .TextFrame [1, 2],
          .received false .TextFrame [1, 2, 3]])
      fun e ↦ e = .notConnected ∧ .error ∈ WebSocket.writes {} :=
  @handleFrames_received [.fragments ({ opcode := .TextFrame }, [1]) [({}, [2])]
      ({ FIN := true }, [3]) (by decide) (by decide) (by decide)]
    _ (by decide) (by decide) {} rfl rfl

end WebSockets
