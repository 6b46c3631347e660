import PicoRadio.WebSocket.Segmentation
import PicoRadio.WebSocket.Sending

/-!
# Frames are read as they are written

The header that `ping`, `pong`, `close` and `send` build says of its payload what the parser wants
to know: how long it is, in the form that its length asks for, and whether it is masked. So the
buffer that `sendFrame` writes is a complete frame (`WireFrame.ofBuffer`), and the parser gives back
the header and the payload.
-/

namespace WebSockets

/-- The key that is read masks like the key that was written. -/
theorem unmasked_keyBytes (header : WebSocketFrameHeader) (payload : Bytes) (key : UInt32) :
    unmasked header (keyBytes header key) (payloadBytes header payload key) = payload := by
  rw [unmasked, keyBytes, payloadBytes, payloadBytes]
  cases header.MASK with
  | false => rfl
  | true =>
    have hkey : (ofLittleEndian (littleEndian 4 key.toNat)).toUInt32 = key := by
      have hlt : key.toNat < 256 ^ 4 := key.toNat_lt
      rw [ofLittleEndian_littleEndian, Nat.mod_eq_of_lt hlt]
      exact UInt32.ofNat_toNat
    rw [if_pos rfl, if_pos rfl, if_pos rfl, hkey, maskPayload_maskPayload]

/-- The buffer of a frame whose header says how long its payload is. -/
def WireFrame.ofBuffer (header : WebSocketFrameHeader) (payload : Bytes) (key : UInt32)
    (hnamed : header.opcode.isNamed) (hlen : header.payloadLen = payloadLenOf payload.length)
    (hpayload : payload.length < 2 ^ 32) : WireFrame where
  b₀ := header.byte₀
  b₁ := header.byte₁
  len := lengthBytes header payload.length
  key := keyBytes header key
  payload := payloadBytes header payload key
  length_len := by rw [WebSocketFrameHeader.ofBytes_bytes hnamed, length_lengthBytes]
  length_key := by rw [WebSocketFrameHeader.ofBytes_bytes hnamed, length_keyBytes]
  length_payload := by
    rw [WebSocketFrameHeader.ofBytes_bytes hnamed, payloadLength_lengthBytes hlen hpayload,
      length_payloadBytes]

/-- A frame that is read in full comes out as it was written. -/
theorem readFrame_frameBuffer {header : WebSocketFrameHeader} {payload : Bytes} (key : UInt32)
    (hnamed : header.opcode.isNamed) (hlen : header.payloadLen = payloadLenOf payload.length)
    (hpayload : payload.length < 2 ^ 32) (rest : Bytes) :
    readFrame (.pieces (frameBuffer header payload key ++ rest) []) =
      (.frame header payload, .pieces rest []) := by
  let f := WireFrame.ofBuffer header payload key hnamed hlen hpayload
  have hheader : f.header = header := WebSocketFrameHeader.ofBytes_bytes hnamed
  have hbytes : frameBuffer header payload key = f.bytes := by
    rw [frameBuffer, List.append_assoc, List.append_assoc]
    rfl
  have hhanded : f.handed.2 = payload := by
    show unmasked f.header (keyBytes header key) (payloadBytes header payload key) = payload
    rw [hheader, unmasked_keyBytes]
  rcases readFrame_pieces f (hheader ▸ hnamed) rest [] with ⟨hread, -⟩ | ⟨-, hcut⟩
  · rw [hbytes, hread, hheader, hhanded, List.tail_nil, f.afterFields_nil]
  · exact absurd (served_nil _) (hcut [])

/-! ### The frames of the socket's functions -/

/-- Since the first state one frame was written, with this opcode and payload. A connected peer to
which its bytes come handles this frame, and reads on behind them. -/
def Received (opcode : WebSocketOpCode) (payload : Bytes) (ws ws' : WebSocket) : Prop :=
  ∃ header bytes, ws'.written = ws.written ++ [bytes] ∧ header.opcode = opcode ∧ header.FIN ∧
    ∀ (rest : Bytes) (peer : WebSocket), peer.isConnected →
      enterPollLoop (.pieces (bytes ++ rest) []) peer =
        afterRead enterPollLoop peer (.frame header payload, .pieces rest [])

/-- A frame with a header that the socket builds is handled by the peer. -/
theorem enterPollLoop_frameBuffer {opcode : WebSocketOpCode} {payload : Bytes}
    (hnamed : opcode.isNamed) (hpayload : payload.length < 2 ^ 32) (ws : WebSocket) (key : UInt32)
    (rest : Bytes) {peer : WebSocket} (hpeer : peer.isConnected) :
    enterPollLoop (.pieces (frameBuffer (ws.headerOf opcode payload.length) payload key ++ rest) [])
        peer =
      afterRead enterPollLoop peer
        (.frame (ws.headerOf opcode payload.length) payload, .pieces rest []) := by
  have hread := @readFrame_frameBuffer (ws.headerOf opcode payload.length) payload key hnamed rfl
    hpayload rest
  rw [enterPollLoop_turn hpeer, hread]

theorem Received.of_written {opcode : WebSocketOpCode} {payload : Bytes} {ws ws' : WebSocket}
    (hnamed : opcode.isNamed) (hpayload : payload.length < 2 ^ 32) (key : UInt32)
    (h : ws'.written =
      ws.written ++ [frameBuffer (ws.headerOf opcode payload.length) payload key]) :
    Received opcode payload ws ws' :=
  ⟨_, _, h, rfl, rfl, fun rest _ hpeer ↦
    enterPollLoop_frameBuffer hnamed hpayload ws key rest hpeer⟩

theorem WebSocket.Writable.sendControl_received {ws : WebSocket} (h : ws.Writable)
    {opcode : WebSocketOpCode} (hnamed : opcode.isNamed) {payload : Bytes}
    (hpayload : payload.length < 2 ^ 32) :
    ∃ ws', ws.sendControl opcode payload = .ok ws' ∧ Received opcode payload ws ws' := by
  obtain ⟨key, writes, randoms, hsend, -⟩ :=
    h.sendMasked (ws.headerOf opcode payload.length) payload
  refine ⟨{ ws with writes, randoms, written := ws.written ++ [frameBuffer _ payload key] }, ?_,
    .of_written hnamed hpayload key rfl⟩
  rw [sendControl, h.assertConnected, ok_bind, hsend]
  rfl

theorem WebSocket.Writable.send_received {ws : WebSocket} (h : ws.Writable) {data : Bytes}
    {messageType : WebSocketMessageType}
    (hsmall : packetSize (ws.headerOf messageType.opcode data.length) data.length ≤
      WEBSOCKET_MAX_PACKET_SIZE) :
    ∃ ws', ws.send data messageType = .ok (true, ws') ∧
      Received messageType.opcode data ws ws' := by
  have hdata : data.length < 2 ^ 32 := by
    rw [packetSize, WEBSOCKET_MAX_PACKET_SIZE] at hsmall
    omega
  have hnamed : messageType.opcode.isNamed := by
    cases messageType <;> rfl
  obtain ⟨key, writes, randoms, hsend, -⟩ :=
    h.sendMasked (ws.headerOf messageType.opcode data.length) data
  refine ⟨{ ws with writes, randoms, written := ws.written ++ [frameBuffer _ data key] }, ?_,
    .of_written hnamed hdata key rfl⟩
  rw [send, h.assertConnected, ok_bind]
  exact (if_neg (not_lt.mpr hsmall)).trans hsend

theorem WebSocket.Writable.close_received {ws : WebSocket} (h : ws.Writable)
    (hsent : ws.closeFrameSent = false) (statusCode : UInt16) {reason : Bytes}
    (hreason : reason.length + 2 < 2 ^ 32) :
    ∃ ws', ws.close statusCode reason = .ok ws' ∧
      Received .ConnectionClose (bigEndian 2 statusCode.toNat ++ reason) ws ws' := by
  obtain ⟨randoms, hkey⟩ := ws.maskingKey_snd
  have hws : Writable { ws with randoms } := ⟨h.connected, h.writes⟩
  have hlen : (bigEndian 2 statusCode.toNat ++ reason).length = reason.length + 2 := by
    rw [List.length_append, length_bigEndian, Nat.add_comm]
  let buffer := frameBuffer₂ (ws.headerOf .ConnectionClose (reason.length + 2))
    (bigEndian 2 statusCode.toNat) reason ws.maskingKey.1
  obtain ⟨writes, hsend, -⟩ := hws.sendBuffer buffer
  refine ⟨{ ws with
    writes, randoms, closeFrameSent := true, written := ws.written ++ [buffer] }, ?_,
    .of_written rfl (hlen ▸ hreason) ws.maskingKey.1 ?_⟩
  · rw [close, h.assertConnected, ok_bind, hsent, Bool.not_false, if_pos rfl]
    dsimp only
    rw [hkey, sendFrame₂, hsend]
    rfl
  · rw [hlen, ← frameBuffer₂_eq]

/-- The peer finds the status code and the reason in the payload of a close frame. -/
theorem WebSocket.handleFrame_close (statusCode : UInt16) (reason : Bytes)
    {header : WebSocketFrameHeader} (hopcode : header.opcode = .ConnectionClose)
    (hFIN : header.FIN) (peer : WebSocket) :
    peer.handleFrame header (bigEndian 2 statusCode.toNat ++ reason) =
      (close statusCode reason { peer with gracefullyClosed := true } >>= fun ws ↦
        .ok ws.disconnect) := by
  have hlen : (bigEndian 2 statusCode.toNat ++ reason).length ≥ 2 := by
    rw [List.length_append, length_bigEndian]
    omega
  have htake : (bigEndian 2 statusCode.toNat ++ reason).take 2 = bigEndian 2 statusCode.toNat :=
    List.take_left' (length_bigEndian 2 _)
  have hdrop : (bigEndian 2 statusCode.toNat ++ reason).drop 2 = reason :=
    List.drop_left' (length_bigEndian 2 _)
  have hcode : (ofBigEndian (bigEndian 2 statusCode.toNat)).toUInt16 = statusCode := by
    have hlt : statusCode.toNat < 256 ^ 2 := statusCode.toNat_lt
    rw [ofBigEndian_bigEndian, Nat.mod_eq_of_lt hlt]
    exact UInt16.ofNat_toNat
  simp only [handleFrame, hFIN, hopcode, hlen, htake, hdrop, hcode, Bool.not_true,
    Bool.false_eq_true, if_false, if_true]
  rfl

/-- Every frame is read as it is written, whatever its opcode, its payload and the masking key: the
frames that `ping`, `pong` and `close` send, and those of `send` that are messages of their own. A
peer that handles a close frame goes on with its status code and its reason. -/
theorem WebSocket.frames_roundtrip {ws : WebSocket} (h : ws.Writable) :
    (∀ (opcode : WebSocketOpCode) (payload rest : Bytes) (key : UInt32) (peer : WebSocket),
      opcode.isNamed → payload.length < 2 ^ 32 - 14 → peer.isConnected →
      enterPollLoop
          (.pieces (frameBuffer (ws.headerOf opcode payload.length) payload key ++ rest) []) peer =
        afterRead enterPollLoop peer
          (.frame (ws.headerOf opcode payload.length) payload, .pieces rest [])) ∧
    (∀ payload : Bytes, payload.length < 2 ^ 32 - 14 →
      (∃ ws', ws.ping payload = .ok ws' ∧ Received .Ping payload ws ws') ∧
      ∃ ws', ws.pong payload = .ok ws' ∧ Received .Pong payload ws ws') ∧
    (∀ (data : Bytes) (messageType : WebSocketMessageType),
      packetSize (ws.headerOf messageType.opcode data.length) data.length ≤
        WEBSOCKET_MAX_PACKET_SIZE →
      ∃ ws', ws.send data messageType = .ok (true, ws') ∧
        Received messageType.opcode data ws ws') ∧
    (∀ (statusCode : UInt16) (reason : Bytes), ws.closeFrameSent = false →
      reason.length + 2 < 2 ^ 32 - 14 →
      ∃ ws', ws.close statusCode reason = .ok ws' ∧
        Received .ConnectionClose (bigEndian 2 statusCode.toNat ++ reason) ws ws') ∧
    ∀ (statusCode : UInt16) (reason : Bytes) (header : WebSocketFrameHeader) (peer : WebSocket),
      header.opcode = .ConnectionClose → header.FIN →
      peer.handleFrame header (bigEndian 2 statusCode.toNat ++ reason) =
        (close statusCode reason { peer with gracefullyClosed := true } >>= fun ws ↦
          .ok ws.disconnect) := by
  have hlt {n : ℕ} (hn : n < 2 ^ 32 - 14) : n < 2 ^ 32 := hn.trans (by decide)
  refine ⟨fun opcode payload rest key peer hnamed hlen hpeer ↦ ?_, fun payload hlen ↦ ⟨?_, ?_⟩,
    fun data messageType hsmall ↦ h.send_received hsmall, fun statusCode reason hsent hlen ↦ ?_,
    fun statusCode reason header peer hopcode hFIN ↦ ?_⟩
  · exact enterPollLoop_frameBuffer hnamed (hlt hlen) ws key rest hpeer
  · exact h.sendControl_received rfl (hlt hlen)
  · exact h.sendControl_received rfl (hlt hlen)
  · exact h.close_received hsent statusCode (hlt hlen)
  · exact handleFrame_close statusCode reason hopcode hFIN peer

/-- A client sends a ping. -/
theorem WebSocket.ping_roundtrip :
    ∃ ws', ping [1, 2, 3] { useMasking := true, randoms := [0xdeadbeef] } = .ok ws' ∧
      Received .Ping [1, 2, 3] { useMasking := true, randoms := [0xdeadbeef] } ws' :=
  ((frames_roundtrip ⟨rfl, List.forall_mem_nil _⟩).2.1 [1, 2, 3] (by decide)).1

end WebSockets
