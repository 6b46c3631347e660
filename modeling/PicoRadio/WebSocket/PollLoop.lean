import PicoRadio.WebSocket.Socket
import PicoRadio.WebSocket.TcpClient

/-!
# The message loop

`enterPollLoop` reads the two bytes of a header, `parseFrameHeader` the length, the masking key and
the payload, each with one call of `readBytes`, and the frame goes to `handleFrame`. What one turn
of the loop reads is `readFrame`; the assertion of `readBytes` holds at each of its reads, since a
read that loses the connection is the last one.

A call of `readBytes` may return less than it was asked for. Where that happens inside a frame the
loop reads on at the wrong place or gives up, although the rest of the frame would arrive.
-/

namespace WebSockets

/-! ### Reading a frame -/

/-- What one turn of the message loop reads. -/
inductive ReadFrame
  /-- The arguments of `handleFrame`. -/
  | frame (header : WebSocketFrameHeader) (payload : Bytes)
  /-- `parseFrameHeader` gives up and disconnects. -/
  | disconnect
  /-- The header was not read. The connection may be gone. -/
  | noHeader (connected : Bool)
  deriving DecidableEq, Repr

/-- One read of `parseFrameHeader`, which goes on only with all the bytes. Where there is nothing to
read it goes on without. -/
def readField (len : ℕ) (next : Bytes → Network → ReadFrame × Network) (net : Network) :
    ReadFrame × Network :=
  if len > 0 then
    match net.readBytes len with
    | (.bytes mem, net) => if mem.length = len then next mem net else (.disconnect, net)
    | (_, net) => (.disconnect, net)
  else next [] net

/-- The payload as `handleFrame` gets it. -/
def unmasked (header : WebSocketFrameHeader) (key payload : Bytes) : Bytes :=
  payloadBytes header payload (ofLittleEndian key).toUInt32

/-- Parses a websocket frame using its header, up to the call of `handleFrame`. -/
def parseFrameHeader (header : WebSocketFrameHeader) (net : Network) : ReadFrame × Network :=
  if header.opcode.isNamed then
    net |> readField header.extension fun len ↦
      readField (if header.MASK then 4 else 0) fun key ↦
      readField (payloadLength header len) fun payload net ↦
      (.frame header (unmasked header key payload), net)
  else (.disconnect, net) -- invalid op code - close socket

/-- What one turn of the message loop reads. -/
def readFrame (net : Network) : ReadFrame × Network :=
  match net.readBytes 2 with
  | (.bytes [b₀, b₁], net) => parseFrameHeader (.ofBytes b₀ b₁) net
  | (.closed, net) => (.noHeader false, net)
  | (_, net) => (.noHeader true, net)

/-! ### The loop -/

/-- A run of the message loop: the calls of `handleFrame`, and how it ends. -/
structure PollRun where
  handed : List (WebSocketFrameHeader × Bytes)
  ends : Except Fault WebSocket
  deriving Repr

/-- `handleFrame` is called, and the payload freed. -/
def WebSocket.handlePayload (header : WebSocketFrameHeader) (payload : Bytes) (ws : WebSocket) :
    Except Fault WebSocket := do
  let ws ← ws.handleFrame header payload
  return { ws with
    currentFrame := { ws.currentFrame with payload := ws.currentFrame.payload.afterFrame } }

/-- The rest of a turn, once the frame is read, and of the loop. -/
def afterRead (loop : Network → WebSocket → PollRun) (ws : WebSocket) :
    ReadFrame × Network → PollRun
  | (.frame header payload, net) =>
    match ws.handlePayload header payload with
    | .ok ws => ⟨(header, payload) :: (loop net ws).handed, (loop net ws).ends⟩
    | .error e => ⟨[(header, payload)], .error e⟩
  | (.disconnect, net) => loop net ws.disconnect
  | (.noHeader true, net) => loop net ws
  | (.noHeader false, net) => loop net ws.tcpDisconnect

/-- The message loop for so many turns. -/
def pollLoop : ℕ → Network → WebSocket → PollRun
  | 0, _, ws => ⟨[], .ok ws⟩
  | n + 1, net, ws =>
    if ws.isConnected then afterRead (pollLoop n) ws (readFrame net) else ⟨[], .ok ws⟩

/-- Enters the message poll loop on the current thread. A turn that leaves the socket connected has
read something or waited in vain, so there are not more turns than `left` says. -/
def enterPollLoop (net : Network) (ws : WebSocket) : PollRun :=
  pollLoop (net.left + 1) net ws

/-! ### Every turn reads -/

/-- The bytes of a frame with this header and payload. -/
def wireLength (header : WebSocketFrameHeader) (payload : Bytes) : ℕ :=
  2 + header.extension + (if header.MASK then 4 else 0) + payload.length

/-- What holds if the field cannot be read, and holds of what follows if it can, holds. -/
theorem readField_induct {Q : ReadFrame × Network → Prop} {len : ℕ} {net : Network}
    {next : Bytes → Network → ReadFrame × Network} (hstop : ∀ net', Q (.disconnect, net'))
    (hnext : ∀ mem net', mem.length = len → net.incoming = mem ++ net'.incoming →
      net'.arrivals.length ≤ net.arrivals.length → Q (next mem net')) :
    Q (readField len next net) := by
  rw [readField]
  split
  · next hlen =>
    rcases net.readBytes_spec hlen with ⟨mem, rest, hbs, -, h⟩ | ⟨net', h⟩ | ⟨arrivals, -, h⟩
    · rw [h]
      dsimp only
      split
      · next hlen => exact hnext mem _ hlen hbs (by simp)
      · exact hstop _
    · rw [h]
      exact hstop _
    · rw [h]
      exact hstop _
  · next hlen => exact hnext [] net (by simp only [List.length_nil]; omega) rfl le_rfl

theorem length_unmasked (header : WebSocketFrameHeader) (key payload : Bytes) :
    (unmasked header key payload).length = payload.length := by
  rw [unmasked, length_payloadBytes]

/-- What a turn read was there: `used` bytes, in front of what is left. -/
def ReadFrame.Consumed (net : Network) (used : ℕ) (r : ReadFrame × Network) : Prop :=
  match r.1 with
  | .frame header payload =>
    r.2.incoming.length + wireLength header payload = net.incoming.length + used ∧
      r.2.arrivals.length ≤ net.arrivals.length
  | .noHeader true => r.2.incoming.length ≤ net.incoming.length ∧ r.2.left < net.left
  | .disconnect | .noHeader false => True

theorem ReadFrame.Consumed.mono {net net' : Network} {used used' : ℕ} {r : ReadFrame × Network}
    (h : ReadFrame.Consumed net used r)
    (hlen : net.incoming.length + used = net'.incoming.length + used')
    (hused : net.incoming.length ≤ net'.incoming.length)
    (harrivals : net.arrivals.length ≤ net'.arrivals.length) :
    ReadFrame.Consumed net' used' r := by
  obtain ⟨r, net''⟩ := r
  cases r with
  | frame header payload => exact ⟨h.1.trans hlen, h.2.trans harrivals⟩
  | disconnect => trivial
  | noHeader connected =>
    cases connected with
    | true => exact ⟨h.1.trans hused, h.2.trans_le (Nat.add_le_add hused harrivals)⟩
    | false => trivial

/-- A frame that is parsed was there, behind its header. -/
theorem parseFrameHeader_consumed (header : WebSocketFrameHeader) (net : Network) :
    ReadFrame.Consumed net 2 (parseFrameHeader header net) := by
  rw [parseFrameHeader]
  split
  · refine readField_induct (fun _ ↦ trivial) fun len net₁ hlen h₁ ha₁ ↦ ?_
    refine readField_induct (fun _ ↦ trivial) fun key net₂ hkey h₂ ha₂ ↦ ?_
    refine readField_induct (fun _ ↦ trivial) fun mem net₃ hmem h₃ ha₃ ↦ ?_
    refine ⟨?_, ha₃.trans (ha₂.trans ha₁)⟩
    rw [wireLength, length_unmasked, h₁, h₂, h₃]
    simp only [List.length_append]
    omega
  · trivial

/-- A turn that leaves the socket connected leaves less to read. -/
theorem readFrame_consumed (net : Network) : ReadFrame.Consumed net 0 (readFrame net) := by
  rw [readFrame]
  rcases Network.readBytes_spec (by decide : 0 < 2) net with
    ⟨mem, rest, hbs, hmem, h⟩ | ⟨net', h⟩ | ⟨arrivals, ha, h⟩
  · have hlen := congrArg List.length hbs
    have htail : net.arrivals.tail.length ≤ net.arrivals.length := by simp
    rw [h]
    rcases mem with _ | ⟨b₀, _ | ⟨b₁, _ | ⟨b₂, mem⟩⟩⟩
    · exact absurd rfl hmem
    · simp only [List.length_append, List.length_cons, List.length_nil] at hlen
      exact ⟨by dsimp only; omega, by dsimp only [Network.left]; omega⟩
    · have hparse := parseFrameHeader_consumed (.ofBytes b₀ b₁) ⟨rest, net.arrivals.tail⟩
      simp only [List.length_append, List.length_cons, List.length_nil] at hlen
      exact hparse.mono (by dsimp only; omega) (by dsimp only; omega) htail
    · simp only [List.length_append, List.length_cons] at hlen
      exact ⟨by dsimp only; omega, by dsimp only [Network.left]; omega⟩
  · rw [h]
    trivial
  · have hlen := congrArg List.length ha
    rw [List.length_cons] at hlen
    rw [h]
    exact ⟨le_rfl, by dsimp only [Network.left]; omega⟩

/-! ### The loop, turn by turn -/

@[simp]
theorem WebSocket.isConnected_disconnect (ws : WebSocket) : ws.disconnect.isConnected = false :=
  rfl

@[simp]
theorem WebSocket.isConnected_tcpDisconnect (ws : WebSocket) :
    ws.tcpDisconnect.isConnected = false := by
  rw [isConnected, tcpDisconnect, Option.any_map]
  cases ws.tcp <;> rfl

theorem pollLoop_of_not_connected {ws : WebSocket} (h : ws.isConnected = false) (n : ℕ)
    (net : Network) : pollLoop n net ws = ⟨[], .ok ws⟩ := by
  cases n with
  | zero => rfl
  | succ n => rw [pollLoop, h, if_neg Bool.false_ne_true]

/-- The rest of a turn only depends on what the loop does with less to read and without a
connection. -/
theorem afterRead_congr {loop loop' : Network → WebSocket → PollRun} {net : Network}
    (hleft : ∀ net' ws, net'.left < net.left → loop net' ws = loop' net' ws)
    (hclosed : ∀ net' ws, ws.isConnected = false → loop net' ws = loop' net' ws) (ws : WebSocket) :
    afterRead loop ws (readFrame net) = afterRead loop' ws (readFrame net) := by
  have hconsumed := readFrame_consumed net
  generalize readFrame net = r at hconsumed ⊢
  obtain ⟨r, net'⟩ := r
  cases r with
  | frame header payload =>
    have hless : net'.left < net.left := by
      have hlen := hconsumed.1
      have harrivals := hconsumed.2
      simp only [wireLength, Network.left] at *
      omega
    simp only [afterRead, hleft net' _ hless]
  | disconnect => exact hclosed net' _ ws.isConnected_disconnect
  | noHeader connected =>
    cases connected with
    | true => exact hleft net' ws hconsumed.2
    | false => exact hclosed net' _ ws.isConnected_tcpDisconnect

/-- More turns than there is to read change nothing. -/
theorem pollLoop_eq {n m : ℕ} {net : Network} (hn : net.left < n) (hm : net.left < m)
    (ws : WebSocket) : pollLoop n net ws = pollLoop m net ws := by
  induction n generalizing m net ws with
  | zero => exact absurd hn (Nat.not_lt_zero _)
  | succ n ih =>
    obtain ⟨m, rfl⟩ := Nat.exists_eq_add_one_of_ne_zero (Nat.ne_zero_of_lt hm)
    have hrest : afterRead (pollLoop n) ws (readFrame net) =
        afterRead (pollLoop m) ws (readFrame net) := by
      refine afterRead_congr (fun net' ws hless ↦ ?_) (fun net' ws hclosed ↦ ?_) ws
      · exact ih (by omega) (by omega) ws
      · rw [pollLoop_of_not_connected hclosed, pollLoop_of_not_connected hclosed]
    rw [pollLoop, pollLoop, hrest]

theorem enterPollLoop_of_not_connected {ws : WebSocket} (h : ws.isConnected = false)
    (net : Network) : enterPollLoop net ws = ⟨[], .ok ws⟩ :=
  pollLoop_of_not_connected h _ net

/-- After a turn the loop goes on as it would start there. -/
theorem enterPollLoop_turn {ws : WebSocket} (h : ws.isConnected) (net : Network) :
    enterPollLoop net ws = afterRead enterPollLoop ws (readFrame net) := by
  rw [enterPollLoop, pollLoop, if_pos h]
  refine afterRead_congr (fun net' ws hless ↦ ?_) (fun net' ws hclosed ↦ ?_) ws
  · exact pollLoop_eq hless (Nat.lt_succ_self _) ws
  · rw [pollLoop_of_not_connected hclosed, enterPollLoop_of_not_connected hclosed]

end WebSockets
