import PicoRadio.WebSocket.Socket

/-!
# Messages and their fragments

`send` writes a message as one frame if the frame is no larger than `WEBSOCKET_MAX_PACKET_SIZE`, and
as fragments otherwise. Each turn of the fragment loop sends one frame (`nextFragment`) and stops if
that fails, so what a call sends is a list of frames known in advance (`framesOf`), up to the first
that fails (`send_eq`).

## The fragment loop

The loop of the source counts the bytes that are left. Every turn leaves fewer, so as many turns as
there are bytes are enough. The header changes on the way: the first fragment has the opcode of the
message, the others are continuations, and the last one has the bit `FIN`. `Continues` states this
of a list of frames, and `MessageFrames` of a whole message.
-/

namespace WebSockets

/-- The size of the largest frame. -/
def WEBSOCKET_MAX_PACKET_SIZE : ℕ :=
  1460

/-- Supported message formats for websocket communication. -/
inductive WebSocketMessageType
  | Text
  | Binary
  deriving DecidableEq, Repr

/-- The opcode of a message. -/
def WebSocketMessageType.opcode : WebSocketMessageType → WebSocketOpCode
  | Binary => .BinaryFrame
  | Text => .TextFrame

/-! ### The functions -/

/-- The size of a frame with this header and payload length. -/
def packetSize (header : WebSocketFrameHeader) (length : ℕ) : ℕ :=
  2 + header.extension + (if header.MASK then 4 else 0) + length

/-- What a fragment needs beside its payload. -/
def fragmentHeaderSize (header : WebSocketFrameHeader) : ℕ :=
  2 + (if WEBSOCKET_MAX_PACKET_SIZE - 8 ≥ 0xffff then 8
    else if WEBSOCKET_MAX_PACKET_SIZE - 6 ≥ 126 then 2 else 0) + if header.MASK then 4 else 0

/-- The payload of a fragment that is full. -/
def fragmentPayloadLength (header : WebSocketFrameHeader) : ℕ :=
  WEBSOCKET_MAX_PACKET_SIZE - fragmentHeaderSize header

/-- A call of `sendFrame` in the fragment loop, and the bytes left after it. -/
structure Fragment where
  header : WebSocketFrameHeader
  payload : Bytes
  bytesLeft : ℕ
  deriving DecidableEq, Repr

/-- One turn of the fragment loop. A fragment with which the function returns leaves nothing. -/
def nextFragment (header : WebSocketFrameHeader) (data : Bytes) (bytesLeft : ℕ) : Fragment :=
  let full := fragmentPayloadLength header
  if bytesLeft ≥ full then
    if bytesLeft = full then -- final fragment in series
      { header := { header with
          opcode := .ContinuationFrame, FIN := true, payloadLen := payloadLenOf full }
        payload := (data.drop (data.length - bytesLeft)).take full
        bytesLeft := 0 }
    else if bytesLeft = data.length then -- first fragment in series
      { header := { header with FIN := false, payloadLen := payloadLenOf full }
        payload := data.take full
        bytesLeft := bytesLeft - full }
    else -- middle fragment in series, which sends the start of the data again
      { header := { header with
          FIN := false, opcode := .ContinuationFrame, payloadLen := payloadLenOf full }
        payload := data.take full
        bytesLeft := bytesLeft - full }
  else -- left over fragment bytes
    { header := { header with
        opcode := .ContinuationFrame, FIN := true, payloadLen := payloadLenOf bytesLeft }
      payload := (data.drop (data.length - bytesLeft)).take bytesLeft
      bytesLeft := 0 }

namespace WebSocket

/-- The fragment loop for so many turns. -/
def sendFragments (data : Bytes) :
    ℕ → WebSocketFrameHeader → ℕ → WebSocket → Except Fault (Bool × WebSocket)
  | 0, _, _, ws => .ok (true, ws)
  | n + 1, header, bytesLeft, ws =>
    if bytesLeft > 0 then do
      let f := nextFragment header data bytesLeft
      let r ← ws.sendMasked f.header f.payload
      if r.1 then sendFragments data n f.header f.bytesLeft r.2 else return r
    else .ok (true, ws)

/-- Send a message to the server/client. Every turn of the fragment loop leaves fewer bytes. -/
def send (data : Bytes) (messageType : WebSocketMessageType) (ws : WebSocket) :
    Except Fault (Bool × WebSocket) := do
  ws.assertConnected
  let header := ws.headerOf messageType.opcode data.length
  if packetSize header data.length > WEBSOCKET_MAX_PACKET_SIZE then
    ws.sendFragments data data.length header data.length
  else ws.sendMasked header data

end WebSocket

/-! ### What a call sends -/

/-- The calls of `sendFrame` in the fragment loop, as long as they succeed. -/
def fragmentsFrom (data : Bytes) : ℕ → WebSocketFrameHeader → ℕ → List Fragment
  | 0, _, _ => []
  | n + 1, header, bytesLeft =>
    if bytesLeft > 0 then
      let f := nextFragment header data bytesLeft
      f :: fragmentsFrom data n f.header f.bytesLeft
    else []

/-- The calls of `sendFrame` for a message. -/
def framesOf (header : WebSocketFrameHeader) (data : Bytes) : List Fragment :=
  if packetSize header data.length > WEBSOCKET_MAX_PACKET_SIZE then
    fragmentsFrom data data.length header data.length
  else [⟨header, data, 0⟩]

/-- Frames are sent one after the other until one fails. -/
def sendAll : List Fragment → WebSocket → Except Fault (Bool × WebSocket)
  | [], ws => .ok (true, ws)
  | f :: frames, ws => do
    let r ← ws.sendMasked f.header f.payload
    if r.1 then sendAll frames r.2 else return r

/-- The loop sends the fragments in order. -/
theorem sendFragments_eq (data : Bytes) (n : ℕ) (header : WebSocketFrameHeader) (bytesLeft : ℕ)
    (ws : WebSocket) :
    ws.sendFragments data n header bytesLeft =
      sendAll (fragmentsFrom data n header bytesLeft) ws := by
  induction n generalizing header bytesLeft ws with
  | zero => rfl
  | succ n ih =>
    rw [WebSocket.sendFragments, fragmentsFrom]
    split
    · simp only [sendAll, ih]
    · rfl

/-- A call of `send` sends its frames. -/
theorem WebSocket.send_eq (data : Bytes) (messageType : WebSocketMessageType) (ws : WebSocket) :
    ws.send data messageType = (ws.assertConnected >>= fun _ ↦
      sendAll (framesOf (ws.headerOf messageType.opcode data.length) data) ws) := by
  have hsingle (f : Fragment) : sendAll [f] ws = ws.sendMasked f.header f.payload := by
    rw [sendAll]
    cases ws.sendMasked f.header f.payload with
    | error e => rfl
    | ok r =>
      obtain ⟨sent, ws'⟩ := r
      cases sent <;> rfl
  refine congrArg (ws.assertConnected >>= ·) (funext fun _ ↦ ?_)
  show (if _ then _ else _) = _
  rw [framesOf, sendFragments_eq, apply_ite (sendAll · ws), hsingle]

/-! ### The fragment loop -/

/-- Four bytes less if there is a masking key. -/
theorem fragmentPayloadLength_eq (header : WebSocketFrameHeader) :
    fragmentPayloadLength header = if header.MASK then 1452 else 1456 := by
  rw [fragmentPayloadLength, fragmentHeaderSize]
  cases header.MASK <;> rfl

/-- A full fragment is not empty. -/
theorem fragmentPayloadLength_pos (header : WebSocketFrameHeader) :
    0 < fragmentPayloadLength header := by
  rw [fragmentPayloadLength_eq]
  split <;> decide

/-- Every turn leaves fewer bytes. -/
theorem nextFragment_bytesLeft_lt (header : WebSocketFrameHeader) (data : Bytes) {bytesLeft : ℕ}
    (h : 0 < bytesLeft) : (nextFragment header data bytesLeft).bytesLeft < bytesLeft := by
  have hfull := fragmentPayloadLength_pos header
  rw [nextFragment]
  repeat' split
  all_goals dsimp only
  all_goals omega

/-- More turns than bytes are left change nothing: the loop ends by itself. -/
theorem fragmentsFrom_eq {data : Bytes} {n m : ℕ} {header : WebSocketFrameHeader} {bytesLeft : ℕ}
    (hn : bytesLeft ≤ n) (hm : bytesLeft ≤ m) :
    fragmentsFrom data n header bytesLeft = fragmentsFrom data m header bytesLeft := by
  induction n generalizing m header bytesLeft with
  | zero =>
    obtain rfl := Nat.le_zero.mp hn
    cases m <;> rfl
  | succ n ih =>
    rw [fragmentsFrom]
    split
    · next hleft =>
      obtain ⟨m, rfl⟩ := Nat.exists_eq_add_one_of_ne_zero (by omega : m ≠ 0)
      have hless := nextFragment_bytesLeft_lt header data hleft
      have hrest : fragmentsFrom data n (nextFragment header data bytesLeft).header
          (nextFragment header data bytesLeft).bytesLeft =
          fragmentsFrom data m (nextFragment header data bytesLeft).header
          (nextFragment header data bytesLeft).bytesLeft :=
        ih (by omega) (by omega)
      rw [fragmentsFrom, if_pos hleft]
      dsimp only
      rw [hrest]
    · next hleft =>
      cases m with
      | zero => rfl
      | succ m => rw [fragmentsFrom, if_neg hleft]

/-! ### The shape of a message -/

/-- The frame says how long its payload is, and fits into a packet. -/
structure Fragment.Fits (f : Fragment) : Prop where
  payloadLen : f.header.payloadLen = payloadLenOf f.payload.length
  packet : packetSize f.header f.payload.length ≤ WEBSOCKET_MAX_PACKET_SIZE

/-- The fragments behind the first, with so many bytes in all. -/
inductive Continues : List Fragment → ℕ → Prop
  | last (f : Fragment) (hFIN : f.header.FIN) (hopcode : f.header.opcode = .ContinuationFrame)
      (hfits : f.Fits) : Continues [f] f.payload.length
  | middle (f : Fragment) (hFIN : f.header.FIN = false)
      (hopcode : f.header.opcode = .ContinuationFrame) (hfits : f.Fits) {frames : List Fragment}
      {n : ℕ} (hrest : Continues frames n) : Continues (f :: frames) (f.payload.length + n)

/-- A payload that is no longer than that of a full fragment fits. -/
theorem Fragment.Fits.of_le {f : Fragment}
    (hlen : f.header.payloadLen = payloadLenOf f.payload.length)
    (h : f.payload.length ≤ fragmentPayloadLength f.header) : f.Fits := by
  refine ⟨hlen, ?_⟩
  rw [fragmentPayloadLength_eq] at h
  rw [packetSize, f.header.extension_eq hlen, WEBSOCKET_MAX_PACKET_SIZE]
  split at h <;> repeat' split
  all_goals omega

/-- What the first turn sends of a message that needs more than one. -/
theorem nextFragment_first {header : WebSocketFrameHeader} {data : Bytes}
    (h : fragmentPayloadLength header < data.length) :
    let f := nextFragment header data data.length
    f.header.FIN = false ∧ f.header.opcode = header.opcode ∧ f.header.MASK = header.MASK ∧
      f.Fits ∧ f.payload = data.take (fragmentPayloadLength header) ∧
      f.bytesLeft = data.length - fragmentPayloadLength header := by
  intro f
  have hlen : (data.take (fragmentPayloadLength header)).length = fragmentPayloadLength header := by
    rw [List.length_take]
    omega
  have hf : f = ⟨{ header with FIN := false
                               payloadLen := payloadLenOf (fragmentPayloadLength header) },
      data.take (fragmentPayloadLength header), data.length - fragmentPayloadLength header⟩ := by
    dsimp only [f]
    rw [nextFragment, if_pos h.le, if_neg h.ne', if_pos rfl]
  rw [hf]
  exact ⟨rfl, rfl, rfl, .of_le (congrArg payloadLenOf hlen.symm) hlen.le, rfl, rfl⟩

/-- What a later turn sends, when it is not the last. It is the start of the data again. -/
theorem nextFragment_middle {header : WebSocketFrameHeader} {data : Bytes} {bytesLeft : ℕ}
    (h : fragmentPayloadLength header < bytesLeft) (hless : bytesLeft < data.length) :
    let f := nextFragment header data bytesLeft
    f.header.FIN = false ∧ f.header.opcode = .ContinuationFrame ∧ f.header.MASK = header.MASK ∧
      f.Fits ∧ f.payload = data.take (fragmentPayloadLength header) ∧
      f.bytesLeft = bytesLeft - fragmentPayloadLength header := by
  intro f
  have hlen : (data.take (fragmentPayloadLength header)).length = fragmentPayloadLength header := by
    rw [List.length_take]
    omega
  have hf : f = ⟨{ header with FIN := false, opcode := .ContinuationFrame
                               payloadLen := payloadLenOf (fragmentPayloadLength header) },
      data.take (fragmentPayloadLength header), bytesLeft - fragmentPayloadLength header⟩ := by
    dsimp only [f]
    rw [nextFragment, if_pos h.le, if_neg h.ne', if_neg hless.ne]
  rw [hf]
  exact ⟨rfl, rfl, rfl, .of_le (congrArg payloadLenOf hlen.symm) hlen.le, rfl, rfl⟩

/-- What the last turn sends: all that is left. -/
theorem nextFragment_last {header : WebSocketFrameHeader} {data : Bytes} {bytesLeft : ℕ}
    (h : bytesLeft ≤ fragmentPayloadLength header) (hless : bytesLeft ≤ data.length) :
    let f := nextFragment header data bytesLeft
    f.header.FIN = true ∧ f.header.opcode = .ContinuationFrame ∧ f.header.MASK = header.MASK ∧
      f.Fits ∧ f.payload = data.drop (data.length - bytesLeft) ∧ f.bytesLeft = 0 := by
  intro f
  have hlen : (data.drop (data.length - bytesLeft)).length = bytesLeft := by
    rw [List.length_drop]
    omega
  have hf : f = ⟨{ header with opcode := .ContinuationFrame, FIN := true
                               payloadLen := payloadLenOf bytesLeft },
      data.drop (data.length - bytesLeft), 0⟩ := by
    dsimp only [f]
    rw [nextFragment]
    by_cases heq : bytesLeft = fragmentPayloadLength header
    · rw [if_pos heq.ge, if_pos heq, ← heq, List.take_of_length_le hlen.le]
    · rw [if_neg (by omega), List.take_of_length_le hlen.le]
  rw [hf]
  exact ⟨rfl, rfl, rfl, .of_le (congrArg payloadLenOf hlen.symm) (hlen.trans_le h), rfl, rfl⟩

/-- Once the first fragment is sent, the loop sends continuations of all that is left. -/
theorem fragmentsFrom_continues {data : Bytes} {n : ℕ} {header : WebSocketFrameHeader}
    {bytesLeft : ℕ} (hleft : 0 < bytesLeft) (hless : bytesLeft < data.length)
    (hn : bytesLeft ≤ n) : Continues (fragmentsFrom data n header bytesLeft) bytesLeft := by
  induction n generalizing header bytesLeft with
  | zero => omega
  | succ n ih =>
    have hfull := fragmentPayloadLength_pos header
    rw [fragmentsFrom, if_pos hleft]
    dsimp only
    by_cases hlast : bytesLeft ≤ fragmentPayloadLength header
    · obtain ⟨hFIN, hopcode, -, hfits, hpayload, hzero⟩ := nextFragment_last hlast hless.le
      have hnil : fragmentsFrom data n (nextFragment header data bytesLeft).header 0 = [] := by
        cases n <;> rfl
      have hlen : (nextFragment header data bytesLeft).payload.length = bytesLeft := by
        rw [hpayload, List.length_drop]
        omega
      have hcontinues := Continues.last _ hFIN hopcode hfits
      rw [hlen] at hcontinues
      rwa [hzero, hnil]
    · obtain ⟨hFIN, hopcode, -, hfits, hpayload, hrest⟩ :=
        nextFragment_middle (not_le.mp hlast) hless
      have hlen : (nextFragment header data bytesLeft).payload.length =
          fragmentPayloadLength header := by
        rw [hpayload, List.length_take]
        omega
      have hbehind : Continues (fragmentsFrom data n (nextFragment header data bytesLeft).header
          (bytesLeft - fragmentPayloadLength header))
          (bytesLeft - fragmentPayloadLength header) :=
        ih (by omega) (by omega) (by omega)
      have hmiddle := Continues.middle _ hFIN hopcode hfits hbehind
      rw [hlen, Nat.add_sub_cancel' (not_le.mp hlast).le] at hmiddle
      rwa [hrest]

/-- The frames of a message: one frame, or a first fragment and its continuations. -/
structure MessageFrames (opcode : WebSocketOpCode) (length : ℕ) (frames : List Fragment) :
    Prop where
  shape : (∃ f, frames = [f] ∧ f.header.FIN ∧ f.header.opcode = opcode) ∨
    ∃ first middle last, frames = first :: (middle ++ [last]) ∧
      (first.header.FIN = false ∧ first.header.opcode = opcode) ∧
      (∀ f ∈ middle, f.header.FIN = false ∧ f.header.opcode = .ContinuationFrame) ∧
      last.header.FIN ∧ last.header.opcode = .ContinuationFrame
  wire : ∀ f ∈ frames, ∀ key,
    (frameBuffer f.header f.payload key).length ≤ WEBSOCKET_MAX_PACKET_SIZE
  declared : ∀ f ∈ frames,
    payloadLength f.header (lengthBytes f.header f.payload.length) = f.payload.length
  total : (frames.map (·.payload.length)).sum = length

/-- Frames of the right shape that fit are those of a message. -/
theorem MessageFrames.of_fits {opcode : WebSocketOpCode} {length : ℕ} {frames : List Fragment}
    (hshape : (∃ f, frames = [f] ∧ f.header.FIN ∧ f.header.opcode = opcode) ∨
      ∃ first middle last, frames = first :: (middle ++ [last]) ∧
        (first.header.FIN = false ∧ first.header.opcode = opcode) ∧
        (∀ f ∈ middle, f.header.FIN = false ∧ f.header.opcode = .ContinuationFrame) ∧
        last.header.FIN ∧ last.header.opcode = .ContinuationFrame)
    (hfits : ∀ f ∈ frames, f.Fits) (htotal : (frames.map (·.payload.length)).sum = length) :
    MessageFrames opcode length frames := by
  refine ⟨hshape, fun f hf key ↦ ?_, fun f hf ↦ ?_, htotal⟩
  · rw [length_frameBuffer]
    exact (hfits f hf).packet
  · refine payloadLength_lengthBytes (hfits f hf).payloadLen ?_
    have hpacket := (hfits f hf).packet
    rw [packetSize, WEBSOCKET_MAX_PACKET_SIZE] at hpacket
    omega

/-- Continuations, the last one with the bit `FIN` and the others without. -/
theorem Continues.shape {frames : List Fragment} {n : ℕ} (h : Continues frames n) :
    (∃ middle last, frames = middle ++ [last] ∧
      (∀ f ∈ middle, f.header.FIN = false ∧ f.header.opcode = .ContinuationFrame) ∧
      last.header.FIN ∧ last.header.opcode = .ContinuationFrame) ∧
    (∀ f ∈ frames, f.Fits) ∧ (frames.map (·.payload.length)).sum = n := by
  induction h with
  | last f hFIN hopcode hfits =>
    refine ⟨⟨[], f, rfl, List.forall_mem_nil _, hFIN, hopcode⟩, ?_, by simp⟩
    rwa [List.forall_mem_singleton]
  | middle f hFIN hopcode hfits _ ih =>
    obtain ⟨⟨middle, last, rfl, hmiddle, hlast⟩, hrest, htotal⟩ := ih
    refine ⟨⟨f :: middle, last, rfl, ?_, hlast⟩, ?_, ?_⟩
    · exact List.forall_mem_cons.mpr ⟨⟨hFIN, hopcode⟩, hmiddle⟩
    · exact List.forall_mem_cons.mpr ⟨hfits, hrest⟩
    · rw [List.map_cons, List.sum_cons, htotal]

/-- There is at least one. -/
theorem Continues.ne_nil {frames : List Fragment} {n : ℕ} (h : Continues frames n) :
    frames ≠ [] := by
  cases h <;> exact List.cons_ne_nil _ _

/-- A message needs fragments if it is longer than the payload of one. -/
theorem packetSize_gt_iff {header : WebSocketFrameHeader} {n : ℕ}
    (hlen : header.payloadLen = payloadLenOf n) :
    packetSize header n > WEBSOCKET_MAX_PACKET_SIZE ↔ fragmentPayloadLength header < n := by
  rw [packetSize, header.extension_eq hlen, WEBSOCKET_MAX_PACKET_SIZE, fragmentPayloadLength_eq]
  repeat' split
  all_goals omega

/-- A short message is one frame. -/
theorem framesOf_small {header : WebSocketFrameHeader} {data : Bytes}
    (hlen : header.payloadLen = payloadLenOf data.length)
    (h : data.length ≤ fragmentPayloadLength header) :
    framesOf header data = [⟨header, data, 0⟩] := by
  rw [framesOf, if_neg]
  rw [packetSize_gt_iff hlen]
  exact not_lt.mpr h

/-- A message that needs fragments is sent by the turns of the loop. -/
theorem framesOf_large {header : WebSocketFrameHeader} {data : Bytes}
    (hlen : header.payloadLen = payloadLenOf data.length)
    (h : fragmentPayloadLength header < data.length) :
    framesOf header data = nextFragment header data data.length ::
      fragmentsFrom data data.length (nextFragment header data data.length).header
        (data.length - fragmentPayloadLength header) := by
  have hfull := fragmentPayloadLength_pos header
  obtain ⟨-, -, -, -, -, hrest⟩ := nextFragment_first h
  rw [framesOf, if_pos ((packetSize_gt_iff hlen).mpr h), ← hrest,
    fragmentsFrom_eq le_rfl (Nat.le_succ data.length), fragmentsFrom, if_pos (by omega)]

/-- What is sent behind the first fragment continues it. -/
theorem framesOf_continues {header : WebSocketFrameHeader} {data : Bytes}
    (h : fragmentPayloadLength header < data.length) :
    Continues (fragmentsFrom data data.length (nextFragment header data data.length).header
      (data.length - fragmentPayloadLength header))
      (data.length - fragmentPayloadLength header) := by
  have hfull := fragmentPayloadLength_pos header
  exact fragmentsFrom_continues (by omega) (by omega) (by omega)

/-- Every frame of a message fits into a packet. -/
theorem framesOf_fits {header : WebSocketFrameHeader} {data : Bytes}
    (hlen : header.payloadLen = payloadLenOf data.length) :
    ∀ f ∈ framesOf header data, f.Fits := by
  by_cases hlarge : fragmentPayloadLength header < data.length
  · obtain ⟨-, -, -, hfits, -, -⟩ := nextFragment_first hlarge
    rw [framesOf_large hlen hlarge]
    exact List.forall_mem_cons.mpr ⟨hfits, (framesOf_continues hlarge).shape.2.1⟩
  · rw [framesOf_small hlen (not_lt.mp hlarge), List.forall_mem_singleton]
    exact .of_le hlen (not_lt.mp hlarge)

/-- What a call of `send` sends are the frames of a message. -/
theorem framesOf_shape {header : WebSocketFrameHeader} {data : Bytes} (hFIN : header.FIN)
    (hlen : header.payloadLen = payloadLenOf data.length) :
    MessageFrames header.opcode data.length (framesOf header data) := by
  have hfits := framesOf_fits hlen
  by_cases hlarge : fragmentPayloadLength header < data.length
  · obtain ⟨hFIN, hopcode, -, -, hpayload, -⟩ := nextFragment_first hlarge
    obtain ⟨⟨middle, last, hbehind, hmiddle, hlast⟩, -, htotal⟩ :=
      (framesOf_continues hlarge).shape
    rw [framesOf_large hlen hlarge] at hfits ⊢
    rw [hbehind] at hfits htotal ⊢
    refine .of_fits (.inr ⟨_, middle, last, rfl, ⟨hFIN, hopcode⟩, hmiddle, hlast⟩) hfits ?_
    rw [List.map_cons, List.sum_cons, htotal, hpayload, List.length_take]
    omega
  · rw [framesOf_small hlen (not_lt.mp hlarge)] at hfits ⊢
    exact .of_fits (.inl ⟨_, rfl, hFIN, rfl⟩) hfits (by simp)

/-- If all writes succeed, the frames are written one after the other. -/
theorem sendAll_ok (frames : List Fragment) {ws : WebSocket} (h : ws.Writable) :
    ∃ ws' keys, sendAll frames ws = .ok (true, ws') ∧ keys.length = frames.length ∧
      ws'.written = ws.written ++
        frames.zipWith (fun f key ↦ frameBuffer f.header f.payload key) keys := by
  induction frames generalizing ws with
  | nil => exact ⟨ws, [], rfl, rfl, (List.append_nil _).symm⟩
  | cons f frames ih =>
    obtain ⟨key, writes, randoms, hsend, hwrites⟩ := h.sendMasked f.header f.payload
    have hws : WebSocket.Writable { ws with
        writes, randoms, written := ws.written ++ [frameBuffer f.header f.payload key] } :=
      ⟨h.connected, hwrites⟩
    obtain ⟨ws', keys, hrest, hlen, hwritten⟩ := ih hws
    refine ⟨ws', key :: keys, ?_, by simp [hlen], ?_⟩
    · rw [sendAll, hsend]
      exact hrest
    · rw [hwritten, List.zipWith_cons_cons, List.append_assoc]
      rfl

/-- If all writes succeed, `send` writes its message as one frame or as fragments in series, each no
larger than a packet. More turns of the fragment loop would change nothing. -/
theorem WebSocket.send_shape (data : Bytes) (messageType : WebSocketMessageType) {ws : WebSocket}
    (h : ws.Writable) :
    (∃ ws' frames keys, ws.send data messageType = .ok (true, ws') ∧
      keys.length = frames.length ∧
      ws'.written = ws.written ++
        frames.zipWith (fun f key ↦ frameBuffer f.header f.payload key) keys ∧
      MessageFrames messageType.opcode data.length frames) ∧
    ∀ n ≥ data.length, ∀ header,
      ws.sendFragments data n header data.length =
        ws.sendFragments data data.length header data.length := by
  have hshape : MessageFrames messageType.opcode data.length
      (framesOf (ws.headerOf messageType.opcode data.length) data) :=
    @framesOf_shape (ws.headerOf messageType.opcode data.length) data rfl rfl
  constructor
  · obtain ⟨ws', keys, hsend, hlen, hwritten⟩ := sendAll_ok (framesOf _ data) h
    refine ⟨ws', _, keys, ?_, hlen, hwritten, hshape⟩
    rw [send_eq, h.assertConnected]
    exact hsend
  · intro n hn header
    rw [sendFragments_eq, sendFragments_eq, fragmentsFrom_eq hn le_rfl]

/-- A message of 3000 bytes is sent by a client. -/
theorem WebSocket.send_shape_sample :
    (∃ ws' frames keys, send (.replicate 3000 7) .Binary { useMasking := true } = .ok (true, ws') ∧
      keys.length = frames.length ∧
      ws'.written = [] ++
        frames.zipWith (fun f key ↦ frameBuffer f.header f.payload key) keys ∧
      MessageFrames .BinaryFrame (List.replicate 3000 (7 : UInt8)).length frames) ∧
    ∀ n ≥ (List.replicate 3000 (7 : UInt8)).length, ∀ header,
      sendFragments (.replicate 3000 7) n header (List.replicate 3000 (7 : UInt8)).length
          { useMasking := true } =
        sendFragments (.replicate 3000 7) (List.replicate 3000 (7 : UInt8)).length header
          (List.replicate 3000 (7 : UInt8)).length { useMasking := true } :=
  send_shape (.replicate 3000 7) .Binary ⟨rfl, List.forall_mem_nil _⟩

end WebSockets
