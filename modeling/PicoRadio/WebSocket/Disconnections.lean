import PicoRadio.WebSocket.FragmentSeries

/-!
# Clients that leave

A client that the server has registered stays in the list of clients until its message loop ends.
The handlers of `clientDisconnected` hear of its end in two ways: `close` calls `ws_close` if the
close frame was already sent, and behind the loop the server reports an abnormal end if the socket
was not closed gracefully. `gracefullyClosed` is set by a close frame with a status code alone.

So it matters who closes first. A close frame with a status code should find that the server has
sent one, and every other closing should find that it has not (`InTurn`); where it is the other way
round, the handlers hear of the client twice or never (`Serving.event_turned`).

## How the proof goes

A function of the socket that has nothing to say of its end is `Quiet`. The ones that close it call
`closeCallback` if the close frame was sent before, and that is all that reaches the handlers while
the loop runs. Whatever the event, the client is served afterwards as it was before or the loop is
over (`Turned`), so the events behind the last one that counts change nothing
(`joinMessageLoop_over`).
-/

namespace WebSockets

/-- A WebSocket of the server: that of the connection, or another one. -/
inductive SocketPtr
  | this
  | other (n : ℕ)
  deriving DecidableEq, Repr

namespace Connection

/-- Client entry structure used for storing a list of connected clients. -/
structure ClientEntry (Guid : Type) where
  guid : Guid
  ws : SocketPtr
  deriving DecidableEq, Repr

/-- A call of a handler of `clientDisconnected`. -/
structure Notification (Guid : Type) where
  /-- The index of the handler. -/
  handler : ℕ
  guid : Guid
  statusCode : UInt16
  reason : Bytes
  deriving DecidableEq, Repr

/-- What the connection of a client meets with. -/
inductive Event (Guid : Type)
  /-- The message loop has read a frame. -/
  | frame (header : WebSocketFrameHeader) (payload : Bytes)
  /-- `parseFrameHeader` gives up and disconnects. -/
  | disconnect
  /-- The TCP connection is lost. -/
  | lost
  /-- The socket is closed by the server. -/
  | close (statusCode : UInt16) (reason : Bytes)
  /-- The server disconnects the client with this guid. -/
  | disconnectClient (guid : Guid)
  /-- Other clients come and go, before and behind the entry of this one. -/
  | others (before after : List (Guid × ℕ))
  deriving DecidableEq, Repr

end Connection

open Connection

/-- A registered client: its socket, and what it shares with the rest of the server. -/
structure Connection (Guid : Type) where
  /-- List of currently connected clients. -/
  clients : List (ClientEntry Guid)
  /-- `clientDisconnected.Count()`. -/
  handlers : ℕ
  ws : WebSocket
  notified : List (Notification Guid) := []
  deriving Repr

/-- The arguments of a call of `closeCallback`. -/
def Call.closed : Call → Option (UInt16 × Bytes)
  | close statusCode reason => some (statusCode, reason)
  | _ => none

namespace Connection

variable {Guid : Type}

/-- The entries of other clients. -/
def otherEntries (others : List (Guid × ℕ)) : List (ClientEntry Guid) :=
  others.map fun o ↦ ⟨o.1, .other o.2⟩

/-- The search for the socket of this connection finds the entry of its client. -/
theorem find_this (guid : Guid) (before : List (Guid × ℕ)) (after : List (ClientEntry Guid)) :
    (otherEntries before ++ ⟨guid, .this⟩ :: after).find? (·.ws = .this) = some ⟨guid, .this⟩ := by
  have hothers : ∀ entry ∈ otherEntries before, ¬decide (entry.ws = .this) = true := by
    intro entry hentry
    obtain ⟨other, -, rfl⟩ := List.mem_map.mp hentry
    simp
  rw [List.find?_append, List.find?_eq_none.mpr hothers]
  rfl

/-- Every handler is called. -/
def notify (guid : Guid) (statusCode : UInt16) (reason : Bytes) (c : Connection Guid) :
    Connection Guid :=
  { c with notified := c.notified ++
      (List.range c.handlers).map fun i ↦ ⟨i, guid, statusCode, reason⟩ }

/-- The `closeCallback` of the socket. -/
def ws_close (statusCode : UInt16) (reason : Bytes) (c : Connection Guid) :
    Except Fault (Connection Guid) :=
  if c.handlers > 0 then
    match c.clients.find? (·.ws = .this) with
    | some entry => .ok (c.notify entry.guid statusCode reason)
    | none => .error .endIterator
  else .ok c

/-- The calls of `closeCallback` between two states of the socket. -/
def closeCalls (ws ws' : WebSocket) : List (UInt16 × Bytes) :=
  (ws'.called.drop ws.called.length).filterMap Call.closed

/-- A function of the socket is called, and its callbacks. -/
def call (f : WebSocket → Except Fault WebSocket) (c : Connection Guid) :
    Except Fault (Connection Guid) := do
  let ws ← f c.ws
  (closeCalls c.ws ws).foldlM (fun c args ↦ c.ws_close args.1 args.2) { c with ws }

section Step

variable [DecidableEq Guid]

/-- `disconnectClient` finds this client. -/
def Finds (c : Connection Guid) (guid : Guid) : Prop :=
  ∃ entry ∈ c.clients.find? (·.guid = guid), entry.ws = .this

instance (c : Connection Guid) (guid : Guid) : Decidable (c.Finds guid) :=
  inferInstanceAs (Decidable (∃ entry ∈ c.clients.find? (·.guid = guid), entry.ws = .this))

/-- The connection of the client with this guid meets with an event. -/
def event (guid : Guid) (c : Connection Guid) : Event Guid → Except Fault (Connection Guid)
  | .frame header payload => c.call (·.handlePayload header payload)
  | .disconnect => .ok { c with ws := c.ws.disconnect }
  | .lost => .ok { c with ws := c.ws.tcpDisconnect }
  | .close statusCode reason => c.call (·.close statusCode reason)
  | .disconnectClient guid => if c.Finds guid then c.call (·.closeNormally) else .ok c
  | .others before after =>
    .ok { c with clients := otherEntries before ++ ⟨guid, .this⟩ :: otherEntries after }

/-- The message loop runs as long as the socket is connected. -/
def step (guid : Guid) (c : Connection Guid) (e : Event Guid) : Except Fault (Connection Guid) :=
  if c.ws.isConnected then c.event guid e else .ok c

/-- What `handleRawConnection` does behind the message loop. -/
def leave (guid : Guid) (c : Connection Guid) : Connection Guid :=
  let c := if !c.ws.gracefullyClosed then
      c.notify guid 1006 (ascii "Message loop has ungracefully exited.") else c
  { c with clients := c.clients.eraseP (·.ws = .this) }

end Step

end Connection

/-! ### What the functions of the socket say of its end -/

namespace WebSocket

variable {ws : WebSocket}

/-- What a function of the socket leaves alone if it has nothing to say of its end. -/
structure Quiet (ws ws' : WebSocket) : Prop where
  graceful : ws'.gracefullyClosed = ws.gracefullyClosed
  callback : ws'.closeCallback = ws.closeCallback
  calls : ∃ calls, ws'.called = ws.called ++ calls ∧ calls.filterMap Call.closed = []

/-- Nothing is done. -/
theorem Quiet.refl (ws : WebSocket) : ws.Quiet ws :=
  ⟨rfl, rfl, [], (List.append_nil _).symm, rfl⟩

/-- One after the other. -/
theorem Quiet.trans {ws₁ ws₂ : WebSocket} (h : ws.Quiet ws₁) (h' : ws₁.Quiet ws₂) :
    ws.Quiet ws₂ := by
  obtain ⟨calls, hcalled, hcalls⟩ := h.calls
  obtain ⟨calls', hcalled', hcalls'⟩ := h'.calls
  refine ⟨h'.graceful.trans h.graceful, h'.callback.trans h.callback, calls ++ calls', ?_, ?_⟩
  · rw [hcalled', hcalled, List.append_assoc]
  · rw [List.filterMap_append, hcalls, hcalls']
    rfl

/-- A write, whether it succeeds or not. -/
theorem sendBuffer_quiet (hconnected : ws.isConnected) (buffer : Bytes) :
    Ends (ws.sendBuffer buffer) (fun r ↦ ws.Quiet r.2) fun _ ↦ False := by
  obtain ⟨tcp, htcp, htrue⟩ := (Option.any_eq_true _ _).mp hconnected
  rw [sendBuffer]
  split
  · exact ⟨rfl, rfl, [], (List.append_nil _).symm, rfl⟩
  · simp only [writeBytes, htcp, htrue, if_true]
    split
    all_goals exact ⟨rfl, rfl, [], (List.append_nil _).symm, rfl⟩

/-- A control frame. -/
theorem sendControl_quiet (hconnected : ws.isConnected) (opcode : WebSocketOpCode)
    (payload : Bytes) : Ends (ws.sendControl opcode payload) ws.Quiet fun _ ↦ False := by
  obtain ⟨randoms, hkey⟩ := ws.maskingKey_snd
  have hsame : isConnected { ws with randoms } := hconnected
  rw [sendControl, assertConnected, if_pos hconnected, ok_bind, sendMasked, hkey]
  refine (sendBuffer_quiet hsame _).bind fun r hr ↦ ?_
  exact ⟨hr.graceful, hr.callback, hr.calls⟩

/-- The first close sends a close frame. -/
theorem close_first (hconnected : ws.isConnected) (hsent : ws.closeFrameSent = false)
    (statusCode : UInt16) (reason : Bytes) :
    Ends (ws.close statusCode reason) ws.Quiet fun _ ↦ False := by
  obtain ⟨randoms, hkey⟩ := ws.maskingKey_snd
  have hsame : isConnected { ws with randoms } := hconnected
  rw [close, assertConnected, if_pos hconnected, ok_bind, hsent, Bool.not_false, if_pos rfl, hkey]
  refine (sendBuffer_quiet hsame _).bind fun r hr ↦ ?_
  exact ⟨hr.graceful, hr.callback, hr.calls⟩

/-- Another close calls the callback and disconnects. -/
theorem close_again (hconnected : ws.isConnected) (hsent : ws.closeFrameSent)
    (hcallback : ws.closeCallback) (statusCode : UInt16) (reason : Bytes) :
    ws.close statusCode reason = .ok (ws.call (.close statusCode reason)).disconnect := by
  rw [close, assertConnected, if_pos hconnected, ok_bind, hsent, Bool.not_true,
    if_neg Bool.false_ne_true, if_pos hcallback]
  rfl

/-- Reading a payload may find that it was freed. -/
theorem read_ends (b : Buffer) (n : ℕ) :
    Ends (b.read n) (fun _ ↦ True) fun e ↦ e = .freedBlock := by
  cases b with
  | freed =>
    rw [Buffer.read]
    split
    · trivial
    · rfl
  | _ => trivial

/-- The callback for data frames. -/
theorem callReceived_quiet (ws : WebSocket) :
    Ends ws.callReceived ws.Quiet fun e ↦ e = .freedBlock := by
  rw [callReceived]
  split
  · exact (read_ends _ _).bind fun payload _ ↦ ⟨rfl, rfl, _, rfl, rfl⟩
  · exact .refl ws

/-- A continuation is put behind what has come. -/
theorem appendPayload_quiet (payload : Bytes) (ws : WebSocket) :
    Ends (ws.appendPayload payload) ws.Quiet fun e ↦ e = .freedBlock := by
  have hfree : Ends ws.currentFrame.payload.free (fun _ ↦ True) fun e ↦ e = .freedBlock := by
    cases ws.currentFrame.payload with
    | freed => rfl
    | _ => trivial
  exact (read_ends _ _).bind fun begun _ ↦ hfree.bind fun _ _ ↦ ⟨rfl, rfl, [],
    (List.append_nil _).symm, rfl⟩

/-- A frame that does not close the connection says nothing of its end. -/
theorem handleFrame_quiet (hconnected : ws.isConnected) {header : WebSocketFrameHeader}
    (h : ¬(header.opcode = .ConnectionClose ∧ header.FIN)) (payload : Bytes) :
    Ends (ws.handleFrame header payload) ws.Quiet fun e ↦ e = .freedBlock := by
  rw [handleFrame]
  split
  · split
    · exact (callReceived_quiet _).imp fun ws' h ↦ ⟨h.graceful, h.callback, h.calls⟩
    · exact (appendPayload_quiet payload ws).bind fun ws₁ h₁ ↦
        (callReceived_quiet ws₁).imp fun ws₂ h₂ ↦ h₁.trans h₂
  · next hFIN =>
    rw [Bool.not_eq_true, Bool.not_eq_false'] at hFIN
    cases hop : header.opcode with
    | ContinuationFrame =>
      refine (appendPayload_quiet payload ws).bind fun ws₁ h₁ ↦
        (callReceived_quiet _).bind fun ws₂ h₂ ↦ ?_
      have h₃ := h₁.trans ⟨h₂.graceful, h₂.callback, h₂.calls⟩
      exact ⟨h₃.graceful, h₃.callback, h₃.calls⟩
    | Ping =>
      exact (sendControl_quiet hconnected .Pong payload).mono (fun _ ↦ id) fun _ ↦ False.elim
    | Pong =>
      cases ws.pongCallback with
      | true => exact ⟨rfl, rfl, _, rfl, rfl⟩
      | false => exact .refl ws
    | ConnectionClose => exact absurd ⟨hop, hFIN⟩ h
    | TextFrame | BinaryFrame =>
      dsimp only
      split
      · exact (callReceived_quiet _).imp fun ws' h ↦ ⟨h.graceful, h.callback, h.calls⟩
      · exact .refl ws
    | unnamed code => exact .refl ws

/-- A close frame closes the socket, gracefully if it has a status code. -/
theorem handleFrame_closing {header : WebSocketFrameHeader}
    (h : header.opcode = .ConnectionClose ∧ header.FIN) (payload : Bytes) :
    ws.handleFrame header payload =
      if payload.length ≥ 2 then
        close (ofBigEndian (payload.take 2)).toUInt16 (payload.drop 2)
          { ws with gracefullyClosed := true } >>= fun ws ↦ .ok ws.disconnect
      else ws.closeNormally := by
  rw [handleFrame, h.2, Bool.not_true, if_neg Bool.false_ne_true, h.1]
  rfl

end WebSocket

/-! ### What the handlers hear -/

namespace Connection

variable {Guid : Type} [DecidableEq Guid] {guid : Guid} {c : Connection Guid}

open WebSocket

/-- How often a handler is called for a guid. -/
def heard (i : ℕ) (guid : Guid) (c : Connection Guid) : ℕ :=
  c.notified.countP fun n ↦ n.handler = i ∧ n.guid = guid

/-- Every call of `notify` is heard once by every handler. -/
theorem heard_notify {i : ℕ} (hi : i < c.handlers) (statusCode : UInt16) (reason : Bytes) :
    (c.notify guid statusCode reason).heard i guid = c.heard i guid + 1 := by
  have hround : ((List.range c.handlers).countP fun j ↦ decide (j = i ∧ guid = guid)) = 1 := by
    rw [← List.count_eq_one_of_mem List.nodup_range (List.mem_range.mpr hi), List.count]
    refine List.countP_congr fun j _ ↦ ?_
    simp
  rw [heard, notify, List.countP_append, List.countP_map, heard]
  exact congrArg (_ + ·) hround

/-- Behind the message loop the handlers hear of an end that was not graceful. -/
theorem heard_leave {i : ℕ} (hi : i < c.handlers) :
    (c.leave guid).heard i guid = c.heard i guid + if c.ws.gracefullyClosed then 0 else 1 := by
  rw [leave]
  cases c.ws.gracefullyClosed with
  | true => rfl
  | false => exact heard_notify hi _ _

/-- The event comes in turn: a close frame with a status code when the server has sent a close
frame, and every other closing when it has not. -/
def InTurn (c : Connection Guid) : Event Guid → Prop
  | .frame header payload =>
    header.opcode = .ConnectionClose → header.FIN → (2 ≤ payload.length ↔ c.ws.closeFrameSent)
  | .close _ _ => c.ws.closeFrameSent = false
  | .disconnectClient guid => c.Finds guid → c.ws.closeFrameSent = false
  | .disconnect | .lost | .others _ _ => True

/-- The client is registered. As long as its socket is connected, the handlers have not heard of its
end. -/
structure Serving (guid : Guid) (c : Connection Guid) : Prop where
  listed : c.clients.find? (·.ws = .this) = some ⟨guid, .this⟩
  callback : c.ws.closeCallback
  unheard : c.ws.isConnected → c.ws.gracefullyClosed = false ∧ c.notified = []

/-- A handler will have heard of the client once, if nothing more comes. -/
def Once (i : ℕ) (guid : Guid) (c : Connection Guid) : Prop :=
  (c.leave guid).heard i guid = 1

omit [DecidableEq Guid] in
/-- What a call of `closeCallback` leads to. -/
theorem ws_close_eq (h : c.clients.find? (·.ws = .this) = some ⟨guid, .this⟩)
    (statusCode : UInt16) (reason : Bytes) :
    c.ws_close statusCode reason = .ok (c.notify guid statusCode reason) := by
  rw [ws_close]
  split
  · rw [h]
  · next hnone =>
    have hempty : List.range c.handlers = [] := by
      rw [Nat.eq_zero_of_not_pos hnone]
      rfl
    rw [notify, hempty, List.map_nil, List.append_nil]

omit [DecidableEq Guid] in
/-- A function of the socket that does not call `closeCallback`. -/
theorem call_silent {f : WebSocket → Except Fault WebSocket} {Q : WebSocket → Prop}
    {E : Fault → Prop}
    (h : Ends (f c.ws) (fun ws' ↦ Q ws' ∧
      ∃ calls, ws'.called = c.ws.called ++ calls ∧ calls.filterMap Call.closed = []) E) :
    Ends (c.call f) (fun c' ↦ ∃ ws', c' = { c with ws := ws' } ∧ Q ws') E := by
  refine h.bind fun ws' hws' ↦ ?_
  obtain ⟨hQ, calls, hcalled, hcalls⟩ := hws'
  rw [closeCalls, hcalled, List.drop_left, hcalls]
  exact ⟨ws', rfl, hQ⟩

omit [DecidableEq Guid] in
/-- A function of the socket that calls `closeCallback` once. -/
theorem call_closed (h : c.clients.find? (·.ws = .this) = some ⟨guid, .this⟩)
    {f : WebSocket → Except Fault WebSocket} {ws' : WebSocket} (hf : f c.ws = .ok ws')
    {statusCode : UInt16} {reason : Bytes}
    (hcalled : ws'.called = c.ws.called ++ [.close statusCode reason]) :
    c.call f = .ok (notify guid statusCode reason { c with ws := ws' }) := by
  rw [call, hf, ok_bind, closeCalls, hcalled, List.drop_left]
  show (ws_close statusCode reason { c with ws := ws' } >>= pure) = _
  rw [ws_close_eq (c := { c with ws := ws' }) h]
  rfl

/-! ### One event -/

/-- An event leaves the client as it should be if it comes in turn, and otherwise ends the message
loop of a client whose end is heard of never or twice. -/
structure Turned (guid : Guid) (inTurn : Prop) (c c' : Connection Guid) : Prop where
  serving : c'.Serving guid
  handlers : c'.handlers = c.handlers
  once : ∀ i < c.handlers, (c'.Once i guid ↔ inTurn)
  stopped : ¬inTurn → c'.ws.isConnected = false

/-- Another way to say that an event comes in turn. -/
theorem Turned.congr {P Q : Prop} {c' : Connection Guid} (h : Turned guid P c c') (hPQ : P ↔ Q) :
    Turned guid Q c c' := by
  rwa [← propext hPQ]

/-- If nothing more comes, the handlers hear of the end behind the message loop. -/
theorem once_of_unheard {i : ℕ} (hi : i < c.handlers) (hgraceful : c.ws.gracefullyClosed = false)
    (hnotified : c.notified = []) : c.Once i guid := by
  rw [Once, heard_leave hi, heard, hnotified, hgraceful]
  rfl

/-- A function that says nothing of the end. -/
theorem Serving.turned_quiet (h : c.Serving guid) (hconnected : c.ws.isConnected)
    {ws' : WebSocket} (hws' : c.ws.Quiet ws') : Turned guid True c { c with ws := ws' } := by
  obtain ⟨hgraceful, hnotified⟩ := h.unheard hconnected
  have hgraceful' : ws'.gracefullyClosed = false := hws'.graceful.trans hgraceful
  exact ⟨⟨h.listed, hws'.callback.trans h.callback, fun _ ↦ ⟨hgraceful', hnotified⟩⟩, rfl,
    fun i hi ↦ iff_of_true (@once_of_unheard _ _ _ { c with ws := ws' } _ hi hgraceful' hnotified)
      trivial, fun hno ↦ absurd trivial hno⟩

/-- The handlers hear of the end now. Behind the loop they hear of it again unless the socket was
closed gracefully. -/
theorem Serving.turned_closed (h : c.Serving guid) (hconnected : c.ws.isConnected)
    {ws' : WebSocket} (hcallback : ws'.closeCallback) (hover : ws'.isConnected = false)
    (statusCode : UInt16) (reason : Bytes) :
    Turned guid (ws'.gracefullyClosed = true) c
      (notify guid statusCode reason { c with ws := ws' }) := by
  obtain ⟨-, hnotified⟩ := h.unheard hconnected
  refine ⟨⟨h.listed, hcallback, fun hyes ↦ ?_⟩, rfl, fun i hi ↦ ?_, fun _ ↦ hover⟩
  · exact absurd hyes (by rw [Bool.not_eq_true]; exact hover)
  · let c' := notify guid statusCode reason { c with ws := ws' }
    have hleave : (c'.leave guid).heard i guid = _ := heard_leave hi
    rw [Once, hleave, heard_notify (c := { c with ws := ws' }) hi, heard, hnotified]
    show 0 + 1 + (if ws'.gracefullyClosed then 0 else 1) = 1 ↔ _
    cases ws'.gracefullyClosed <;> decide

/-- The socket was closed gracefully and nobody was told. -/
theorem Serving.turned_silent (h : c.Serving guid) (hconnected : c.ws.isConnected)
    {ws' : WebSocket} (hcallback : ws'.closeCallback) (hover : ws'.isConnected = false)
    (hgraceful : ws'.gracefullyClosed) : Turned guid False c { c with ws := ws' } := by
  obtain ⟨-, hnotified⟩ := h.unheard hconnected
  refine ⟨⟨h.listed, hcallback, fun hyes ↦ ?_⟩, rfl, fun i hi ↦ ?_, fun _ ↦ hover⟩
  · exact absurd hyes (by rw [Bool.not_eq_true]; exact hover)
  · let c' : Connection Guid := { c with ws := ws' }
    have hleave : (c'.leave guid).heard i guid = _ := heard_leave hi
    rw [Once, hleave, heard, hnotified, hgraceful]
    exact iff_of_false Nat.zero_ne_one id

/-- Behind a call of `close` nothing changes but the current frame. -/
def FrameOnly (g : WebSocket → WebSocket) : Prop :=
  ∀ ws, ∃ currentFrame, g ws = { ws with currentFrame }

/-- A function of the socket that has nothing to say of its end. -/
theorem Serving.call_quiet (h : c.Serving guid) (hconnected : c.ws.isConnected)
    {f : WebSocket → Except Fault WebSocket} {E : Fault → Prop} (hf : Ends (f c.ws) c.ws.Quiet E) :
    Ends (c.call f) (Turned guid True c) E := by
  refine (call_silent (hf.imp fun ws' hws' ↦ ⟨hws', hws'.calls⟩)).imp ?_
  rintro c' ⟨ws', rfl, hws'⟩
  exact h.turned_quiet hconnected hws'

/-- The socket is closed, by the server or by a close frame without a status code. -/
theorem Serving.call_close (h : c.Serving guid) (hconnected : c.ws.isConnected)
    {f : WebSocket → Except Fault WebSocket} {g : WebSocket → WebSocket} (hg : FrameOnly g)
    {statusCode : UInt16} {reason : Bytes}
    (hf : f c.ws = c.ws.close statusCode reason >>= fun ws ↦ .ok (g ws)) :
    Ends (c.call f) (Turned guid (c.ws.closeFrameSent = false) c) fun _ ↦ False := by
  cases hsent : c.ws.closeFrameSent with
  | false =>
    have hquiet : Ends (f c.ws) c.ws.Quiet fun _ ↦ False := by
      rw [hf]
      refine (close_first hconnected hsent statusCode reason).bind fun ws hws ↦ ?_
      obtain ⟨currentFrame, hframe⟩ := hg ws
      rw [hframe]
      exact ⟨hws.graceful, hws.callback, hws.calls⟩
    exact (h.call_quiet hconnected hquiet).imp fun c' hc' ↦ hc'.congr (by simp)
  | true =>
    let closed := (c.ws.call (.close statusCode reason)).disconnect
    obtain ⟨currentFrame, hframe⟩ := hg closed
    have hclosed : f c.ws = .ok { closed with currentFrame } := by
      rw [hf, close_again hconnected hsent h.callback, ok_bind, hframe]
    have hgraceful : ¬closed.gracefullyClosed := by
      rw [show closed.gracefullyClosed = false from (h.unheard hconnected).1]
      exact Bool.false_ne_true
    rw [call_closed h.listed hclosed rfl]
    let closed' : WebSocket := { closed with currentFrame }
    have hcallback : closed'.closeCallback := h.callback
    refine (h.turned_closed hconnected hcallback rfl statusCode reason).congr ?_
    exact iff_of_false hgraceful (by simp)

/-- A close frame with a status code. -/
theorem Serving.call_closeGracefully (h : c.Serving guid) (hconnected : c.ws.isConnected)
    {f : WebSocket → Except Fault WebSocket} {g : WebSocket → WebSocket} (hg : FrameOnly g)
    {statusCode : UInt16} {reason : Bytes}
    (hf : f c.ws = close statusCode reason { c.ws with gracefullyClosed := true } >>= fun ws ↦
      .ok (g ws.disconnect)) :
    Ends (c.call f) (Turned guid (c.ws.closeFrameSent = true) c) fun _ ↦ False := by
  let graceful : WebSocket := { c.ws with gracefullyClosed := true }
  have hconnected' : graceful.isConnected := hconnected
  cases hsent : c.ws.closeFrameSent with
  | false =>
    have hsilent : Ends (f c.ws) (fun ws' ↦
        (ws'.closeCallback ∧ ws'.isConnected = false ∧ ws'.gracefullyClosed) ∧
          ∃ calls, ws'.called = c.ws.called ++ calls ∧ calls.filterMap Call.closed = [])
        fun _ ↦ False := by
      rw [hf]
      refine (close_first hconnected' hsent statusCode reason).bind fun ws hws ↦ ?_
      obtain ⟨currentFrame, hframe⟩ := hg ws.disconnect
      rw [hframe]
      exact ⟨⟨hws.callback.trans h.callback, rfl, hws.graceful⟩, hws.calls⟩
    refine (call_silent hsilent).imp ?_
    rintro c' ⟨ws', rfl, hcallback, hover, hgraceful⟩
    exact (h.turned_silent hconnected hcallback hover hgraceful).congr (by simp)
  | true =>
    let closed := (graceful.call (.close statusCode reason)).disconnect
    obtain ⟨currentFrame, hframe⟩ := hg closed.disconnect
    have hclosed : f c.ws = .ok { closed.disconnect with currentFrame } := by
      rw [hf, close_again hconnected' hsent h.callback, ok_bind, hframe]
    let closed' : WebSocket := { closed.disconnect with currentFrame }
    have hcallback : closed'.closeCallback := h.callback
    rw [call_closed h.listed hclosed rfl]
    exact (h.turned_closed hconnected hcallback rfl statusCode reason).congr (iff_of_true rfl rfl)

/-- A frame of the client. -/
theorem Serving.frame_turned (h : c.Serving guid) (hconnected : c.ws.isConnected)
    (header : WebSocketFrameHeader) (payload : Bytes) :
    Ends (c.event guid (.frame header payload)) (Turned guid (c.InTurn (.frame header payload)) c)
      fun e ↦ e = .freedBlock := by
  let g (ws : WebSocket) : WebSocket := { ws with
    currentFrame := { ws.currentFrame with payload := ws.currentFrame.payload.afterFrame } }
  have hg : FrameOnly g := fun ws ↦ ⟨_, rfl⟩
  by_cases hclosing : header.opcode = .ConnectionClose ∧ header.FIN
  · have hiff : c.InTurn (.frame header payload) ↔ (2 ≤ payload.length ↔ c.ws.closeFrameSent) :=
      ⟨fun hturn ↦ hturn hclosing.1 hclosing.2, fun hturn _ _ ↦ hturn⟩
    have hframe : c.ws.handleFrame header payload = _ := handleFrame_closing hclosing payload
    by_cases hcode : payload.length ≥ 2
    · have hf : c.ws.handlePayload header payload =
          close (ofBigEndian (payload.take 2)).toUInt16 (payload.drop 2)
            { c.ws with gracefullyClosed := true } >>= fun ws ↦ .ok (g ws.disconnect) := by
        rw [handlePayload, hframe, if_pos hcode, bind_assoc]
        rfl
      refine (h.call_closeGracefully hconnected hg (f := (·.handlePayload header payload))
        hf).mono (fun c' hc' ↦ hc'.congr ?_) fun _ ↦ False.elim
      exact (hiff.trans (iff_true_left hcode)).symm
    · have hf : c.ws.handlePayload header payload = c.ws.close 1000 [] >>= fun ws ↦ .ok (g ws) := by
        rw [handlePayload, hframe, if_neg hcode]
        rfl
      refine (h.call_close hconnected hg (f := (·.handlePayload header payload))
        hf).mono (fun c' hc' ↦ hc'.congr ?_) fun _ ↦ False.elim
      rw [hiff, ← Bool.not_eq_true]
      exact (iff_false_left hcode).symm
  · have hquiet : Ends (c.ws.handlePayload header payload) c.ws.Quiet fun e ↦ e = .freedBlock :=
      (handleFrame_quiet hconnected hclosing payload).bind fun ws hws ↦
        ⟨hws.graceful, hws.callback, hws.calls⟩
    refine (h.call_quiet hconnected hquiet).imp fun c' hc' ↦ hc'.congr (iff_of_true trivial ?_)
    exact fun hopcode hFIN ↦ absurd ⟨hopcode, hFIN⟩ hclosing

/-- Every event of a client that is served. -/
theorem Serving.event_turned (h : c.Serving guid) (hconnected : c.ws.isConnected) (e : Event Guid) :
    Ends (c.event guid e) (Turned guid (c.InTurn e) c) fun e ↦ e = .freedBlock := by
  obtain ⟨hgraceful, hnotified⟩ := h.unheard hconnected
  have hid : FrameOnly id := fun ws ↦ ⟨ws.currentFrame, rfl⟩
  have hclose {statusCode : UInt16} {reason : Bytes} :
      Ends (c.call (·.close statusCode reason)) (Turned guid (c.ws.closeFrameSent = false) c)
        fun e ↦ e = .freedBlock := by
    have hf : c.ws.close statusCode reason =
        c.ws.close statusCode reason >>= fun ws ↦ .ok (id ws) := (bind_pure _).symm
    exact (h.call_close hconnected hid hf).mono (fun _ ↦ id) fun _ ↦ False.elim
  cases e with
  | frame header payload => exact h.frame_turned hconnected header payload
  | disconnect =>
    exact h.turned_quiet hconnected ⟨rfl, rfl, [], (List.append_nil _).symm, rfl⟩
  | lost =>
    exact h.turned_quiet hconnected ⟨rfl, rfl, [], (List.append_nil _).symm, rfl⟩
  | close statusCode reason => exact hclose
  | disconnectClient guid' =>
    rw [event]
    split
    · next hfinds => exact hclose.imp fun c' hc' ↦ hc'.congr (by simp [InTurn, hfinds])
    · next hfinds =>
      refine (h.turned_quiet hconnected (.refl c.ws)).congr (iff_of_true trivial fun hno ↦ ?_)
      exact absurd hno hfinds
  | others before after =>
    exact ⟨⟨find_this guid before _, h.callback, h.unheard⟩, rfl,
      fun i hi ↦ iff_of_true (once_of_unheard hi hgraceful hnotified) trivial,
      fun hno ↦ absurd trivial hno⟩

/-! ### Runs -/

/-- Whatever comes, the entry of the client is found where it is looked for, and no assertion
fails. -/
theorem Serving.step (h : c.Serving guid) (e : Event Guid) :
    Ends (c.step guid e) (Serving guid) fun fault ↦ fault = .freedBlock := by
  rw [Connection.step]
  split
  · next hconnected => exact (h.event_turned hconnected e).imp fun c' hc' ↦ hc'.serving
  · exact h

/-- A client whose handshake is done gets an entry behind those of the other clients, with a socket
that is connected unless the response could not be written. -/
def register (guid : Guid) (others : List (Guid × ℕ)) (handlers : ℕ) (connected : Bool)
    (writes : List WriteOutcome) : Connection Guid where
  clients := otherEntries others ++ [⟨guid, .this⟩]
  handlers := handlers
  ws := { tcp := some { connected }, writes }

end Connection

end WebSockets
