import PicoRadio.Library.Ends
import PicoRadio.WebSocket.Frame

/-!
# The state of a WebSocket and its control frames

`WebSocket` holds the members of the class that its functions use, together with what they do to
the outside: the calls of the callbacks and the bytes written. What they get from the outside is
listed in advance: how the next calls of `sendFrame` end, and the random masking keys.

Received payloads live in blocks of the heap. A block of length zero is the null pointer; a pointer
to a block that has been given back is told apart from one that is held, since `currentFrame` keeps
its pointer after the last fragment. Memory is taken to suffice.

A program that fails an assertion, follows the null pointer to the TCP client, uses a block that
was given back, or goes beyond the end of a range ends in a `Fault`.
-/

namespace WebSockets

/-- How a program of the source can go wrong. -/
inductive Fault
  /-- `assert(isConnected() == true)` fails, here or in the TCP client. -/
  | notConnected
  /-- The pointer to the TCP client is null. -/
  | tcpNull
  /-- A block of the heap is read or freed after it was freed. -/
  | freedBlock
  /-- The end of a range is moved on or dereferenced. -/
  | endIterator
  deriving DecidableEq, Repr

/-- A pointer to a payload. -/
inductive Buffer
  | null
  /-- A block that `currentFrame` owns. -/
  | held (bytes : Bytes)
  /-- The block of the frame that is being handled. It is freed afterwards. -/
  | lent (bytes : Bytes)
  | freed
  deriving DecidableEq, Repr

namespace Buffer

/-- `pvPortMalloc` and `memcpy`. -/
def alloc (bytes : Bytes) : Buffer :=
  if bytes = [] then null else held bytes

/-- The source of a `memcpy` of this length. -/
def read (length : ℕ) : Buffer → Except Fault Bytes
  | null => .ok []
  | held bytes => .ok bytes
  | lent bytes => .ok bytes
  | freed => if length = 0 then .ok [] else .error .freedBlock

/-- `vPortFree`. -/
def free : Buffer → Except Fault Unit
  | freed => .error .freedBlock
  | _ => .ok ()

/-- The pointer after the block of the handled frame is freed. -/
def afterFrame : Buffer → Buffer
  | lent _ => freed
  | b => b

end Buffer

/-- Websocket Dataframe. -/
structure WebSocketFrame where
  isFragment : Bool := false
  opcode : WebSocketOpCode := .ContinuationFrame
  payload : Buffer := .null
  payloadLength : ℕ := 0
  deriving DecidableEq, Repr

/-- A call of a callback. The payloads are what the callback can read. -/
inductive Call
  | received (isFragment : Bool) (opcode : WebSocketOpCode) (payload : Bytes)
  | pong (payload : Bytes)
  | close (statusCode : UInt16) (reason : Bytes)
  deriving DecidableEq, Repr

/-- How a call of `sendFrame` ends. -/
inductive WriteOutcome
  /-- The socket takes all bytes. -/
  | all
  /-- The socket takes at most so many bytes. -/
  | some (n : ℕ)
  /-- The socket fails. -/
  | error
  /-- `sendMutex` is not given back in time. -/
  | mutexTimeout
  deriving DecidableEq, Repr

/-- A tcp client implementation. -/
structure TcpClient where
  connected : Bool := true
  deriving DecidableEq, Repr

/-- A WebSocket implementation. -/
structure WebSocket where
  tcp : Option TcpClient := .some {}
  useMasking : Bool := false
  /-- True if this client requested a closing of the socket. -/
  closeFrameSent : Bool := false
  /-- True if this client gracefully closed the connection. -/
  gracefullyClosed : Bool := false
  /-- The current full or partial data frame being received. -/
  currentFrame : WebSocketFrame := {}
  /-- Whether the callbacks are set. -/
  receivedCallback : Bool := true
  pongCallback : Bool := true
  closeCallback : Bool := true
  /-- The next answers of `get_rand_32`, then `0`. -/
  randoms : List UInt32 := []
  /-- How the next calls of `sendFrame` end; the rest succeed. -/
  writes : List WriteOutcome := []
  /-- What was written, one entry for each write. -/
  written : List Bytes := []
  /-- The callbacks called so far. -/
  called : List Call := []
  deriving DecidableEq, Repr

namespace WebSocket

/-- Force disconnect the socket. -/
def disconnect (ws : WebSocket) : WebSocket :=
  { ws with tcp := none }

/-- `tcp->disconnect()`. -/
def tcpDisconnect (ws : WebSocket) : WebSocket :=
  { ws with tcp := ws.tcp.map fun _ ↦ { connected := false } }

/-- Returns true if the client is connected. -/
def isConnected (ws : WebSocket) : Bool :=
  ws.tcp.any (·.connected)

/-- `assert(isConnected() == true)`. -/
def assertConnected (ws : WebSocket) : Except Fault Unit :=
  if ws.isConnected then .ok () else .error .notConnected

/-- A callback is called. -/
def call (c : Call) (ws : WebSocket) : WebSocket :=
  { ws with called := ws.called ++ [c] }

/-- `useMasking ? get_rand_32() : 0`. -/
def maskingKey (ws : WebSocket) : UInt32 × WebSocket :=
  if ws.useMasking then (ws.randoms.headD 0, { ws with randoms := ws.randoms.tail }) else (0, ws)

/-- `tcp->writeBytes`, with what the callers make of its result. -/
def writeBytes (outcome : WriteOutcome) (buffer : Bytes) (ws : WebSocket) :
    Except Fault (Bool × WebSocket) :=
  match ws.tcp with
  | none => .error .tcpNull
  | .some tcp =>
    if tcp.connected then
      match outcome with
      | .some n => .ok (decide (buffer.length ≤ n),
          { ws with written := ws.written ++ [buffer.take n] })
      | .error => .ok (false, ws.tcpDisconnect)
      | .all | .mutexTimeout => .ok (true, { ws with written := ws.written ++ [buffer] })
    else .error .notConnected

/-- The part that both overloads of `sendFrame` share: the buffer is written with the
mutex taken. -/
def sendBuffer (buffer : Bytes) (ws : WebSocket) : Except Fault (Bool × WebSocket) :=
  let outcome := ws.writes.headD .all
  let ws := { ws with writes := ws.writes.tail }
  if outcome = .mutexTimeout then .ok (false, ws) else ws.writeBytes outcome buffer

/-- Sends a raw websocket frame. -/
def sendFrame (header : WebSocketFrameHeader) (payload : Bytes) (maskingKey : UInt32) :
    WebSocket → Except Fault (Bool × WebSocket) :=
  sendBuffer (frameBuffer header payload maskingKey)

/-- Sends a raw websocket frame consisting of two separate payloads. -/
def sendFrame₂ (header : WebSocketFrameHeader) (payload1 payload2 : Bytes) (maskingKey : UInt32) :
    WebSocket → Except Fault (Bool × WebSocket) :=
  sendBuffer (frameBuffer₂ header payload1 payload2 maskingKey)

/-- The header of a frame that is a message of its own. -/
def headerOf (opcode : WebSocketOpCode) (payloadLength : ℕ) (ws : WebSocket) :
    WebSocketFrameHeader where
  opcode := opcode
  FIN := true
  payloadLen := payloadLenOf payloadLength
  MASK := ws.useMasking

/-- `sendFrame(header, payload, payloadLength, useMasking ? get_rand_32() : 0)`. -/
def sendMasked (header : WebSocketFrameHeader) (payload : Bytes) (ws : WebSocket) :
    Except Fault (Bool × WebSocket) :=
  ws.maskingKey.2.sendFrame header payload ws.maskingKey.1

/-- What `ping` and `pong` do with their opcodes. -/
def sendControl (opcode : WebSocketOpCode) (payload : Bytes) (ws : WebSocket) :
    Except Fault WebSocket := do
  ws.assertConnected
  let r ← ws.sendMasked (ws.headerOf opcode payload.length) payload
  return r.2

/-- Sends a ping control frame to the server/client with a custom payload. -/
def ping (payload : Bytes) : WebSocket → Except Fault WebSocket :=
  sendControl .Ping payload

/-- Sends a ping response frame with a custom payload. -/
def pong (payload : Bytes) : WebSocket → Except Fault WebSocket :=
  sendControl .Pong payload

/-- Gracefully close the WebSocket connection by sending a closing control frame. -/
def close (statusCode : UInt16) (reason : Bytes) (ws : WebSocket) : Except Fault WebSocket := do
  ws.assertConnected
  if !ws.closeFrameSent then
    let header := ws.headerOf .ConnectionClose (reason.length + 2)
    let statusCode := bigEndian 2 statusCode.toNat
    let r ← ws.maskingKey.2.sendFrame₂ header statusCode reason ws.maskingKey.1
    return { r.2 with closeFrameSent := true }
  else
    let ws := if ws.closeCallback then ws.call (.close statusCode reason) else ws
    return ws.disconnect

/-- `close()`, with `WebSocketStatusCode::NormalClosure`. -/
def closeNormally : WebSocket → Except Fault WebSocket :=
  close 1000 []

/-! ### Writes that succeed -/

theorem maskingKey_snd (ws : WebSocket) :
    ∃ randoms, ws.maskingKey.2 = { ws with randoms } := by
  rw [maskingKey]
  split
  · exact ⟨_, rfl⟩
  · exact ⟨_, rfl⟩

/-- The socket is connected, and the next writes succeed. -/
structure Writable (ws : WebSocket) : Prop where
  connected : ws.isConnected
  writes : ∀ outcome ∈ ws.writes, outcome = .all

theorem Writable.assertConnected {ws : WebSocket} (h : ws.Writable) :
    ws.assertConnected = .ok () := by
  rw [WebSocket.assertConnected, if_pos h.connected]

theorem Writable.outcome {ws : WebSocket} (h : ws.Writable) : ws.writes.headD .all = .all := by
  cases hw : ws.writes with
  | nil => rfl
  | cons outcome writes => exact h.writes outcome (by rw [hw]; exact List.mem_cons_self)

/-- A write that succeeds appends its bytes to what was written and changes nothing else. -/
theorem Writable.sendBuffer {ws : WebSocket} (h : ws.Writable) (buffer : Bytes) :
    ∃ writes, ws.sendBuffer buffer =
        .ok (true, { ws with writes, written := ws.written ++ [buffer] }) ∧
      ∀ outcome ∈ writes, outcome = .all := by
  refine ⟨ws.writes.tail, ?_, fun outcome hmem ↦ h.writes _ (List.mem_of_mem_tail hmem)⟩
  obtain ⟨tcp, htcp, hconnected⟩ := Option.any_eq_true _ _ |>.mp h.connected
  simp only [WebSocket.sendBuffer, h.outcome, writeBytes, htcp, hconnected, if_true, reduceCtorEq,
    if_false]

theorem Writable.sendMasked {ws : WebSocket} (h : ws.Writable) (header : WebSocketFrameHeader)
    (payload : Bytes) :
    ∃ key writes randoms, ws.sendMasked header payload =
        .ok (true, { ws with
          writes, randoms, written := ws.written ++ [frameBuffer header payload key] }) ∧
      ∀ outcome ∈ writes, outcome = .all := by
  obtain ⟨randoms, hkey⟩ := ws.maskingKey_snd
  have hws : Writable { ws with randoms } := ⟨h.connected, h.writes⟩
  obtain ⟨writes, hsend, hwrites⟩ := hws.sendBuffer (frameBuffer header payload ws.maskingKey.1)
  exact ⟨ws.maskingKey.1, writes, randoms, by rw [WebSocket.sendMasked, hkey]; exact hsend, hwrites⟩

/-! ### Received frames -/

/-- `receivedCallback` is called with the current frame. -/
def callReceived (ws : WebSocket) : Except Fault WebSocket := do
  if ws.receivedCallback then
    let payload ← ws.currentFrame.payload.read ws.currentFrame.payloadLength
    return ws.call (.received ws.currentFrame.isFragment ws.currentFrame.opcode payload)
  else return ws

/-- The payload of the current frame with another one behind it, in a new block. -/
def appendPayload (payload : Bytes) (ws : WebSocket) : Except Fault WebSocket := do
  let begun ← ws.currentFrame.payload.read ws.currentFrame.payloadLength
  ws.currentFrame.payload.free
  return { ws with currentFrame := { ws.currentFrame with
    payload := .alloc (begun ++ payload)
    payloadLength := ws.currentFrame.payloadLength + payload.length } }

/-- Handles the different types of frames. -/
def handleFrame (header : WebSocketFrameHeader) (payload : Bytes) (ws : WebSocket) :
    Except Fault WebSocket := do
  if !header.FIN then -- fragmented message
    if header.opcode ≠ .ContinuationFrame then -- first fragment in series
      callReceived { ws with
        currentFrame := ⟨true, header.opcode, .alloc payload, payload.length⟩ }
    else -- subsequent fragments in series
      let ws ← ws.appendPayload payload
      ws.callReceived
  else
    match header.opcode with
    | .ContinuationFrame => -- last fragment in series
      let ws ← ws.appendPayload payload
      let ws ← callReceived { ws with currentFrame := { ws.currentFrame with isFragment := false } }
      -- the frame keeps the pointer to the block that is freed here
      return { ws with currentFrame := { ws.currentFrame with
        payload := if ws.currentFrame.payload = .null then .null else .freed } }
    | .Ping => ws.pong payload
    | .Pong => return if ws.pongCallback then ws.call (.pong payload) else ws
    | .ConnectionClose =>
      if payload.length ≥ 2 then -- has status code
        let statusCode := (ofBigEndian (payload.take 2)).toUInt16
        let reason := payload.drop 2
        let ws ← close statusCode reason { ws with gracefullyClosed := true }
        return ws.disconnect
      else ws.closeNormally
    | .TextFrame | .BinaryFrame =>
      if ws.receivedCallback then
        callReceived { ws with
          currentFrame := ⟨false, header.opcode,
            if payload = [] then .null else .lent payload, payload.length⟩ }
      else return ws
    | .unnamed _ => return ws

end WebSocket

end WebSockets
