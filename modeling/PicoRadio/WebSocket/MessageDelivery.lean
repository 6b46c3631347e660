import PicoRadio.WebSocket.FrameRoundTrip
import PicoRadio.WebSocket.Reassembly

/-!
# What the peer receives of a message

The frames that a call of `send` writes are read by the message loop of the peer as they were
written, and put together again. So the peer receives one message, whose payload are those of the
fragments (`WebSocket.send_poll`).

A middle fragment carries the start of the data again, not the bytes that are due. The payloads are
the data exactly if these bytes are the same (`flatMap_framesOf_iff`), which a message of one or two
frames cannot get wrong.

## From one end to the other

Three results are put together: what `send` writes, how the loop of the peer reads frames from a
stream, and how it joins them. The stream is one that comes without cuts. Masking is taken off on
the way, so whether a message arrives does not depend on the key.
-/

namespace WebSockets

/-! ### The payloads of the fragments -/

/-- Every block of so many bytes that has more behind it is the first block again. -/
def BlocksRepeat (n : ℕ) (data : Bytes) : Prop :=
  ∀ i, (i + 1) * n < data.length → (data.drop (i * n)).take n = data.take n

/-- A list is cut behind its first elements. -/
theorem append_eq_drop_iff {α : Type*} {data start rest : List α} {k : ℕ}
    (h : k + start.length ≤ data.length) :
    start ++ rest = data.drop k ↔
      (data.drop k).take start.length = start ∧ rest = data.drop (k + start.length) := by
  have hsplit : data.drop k =
      (data.drop k).take start.length ++ data.drop (k + start.length) := by
    rw [← List.drop_drop, List.take_append_drop]
  have hlen : start.length = ((data.drop k).take start.length).length := by
    rw [List.length_take, List.length_drop]
    omega
  constructor
  · intro heq
    obtain ⟨hstart, hrest⟩ := List.append_inj (heq.trans hsplit) hlen
    exact ⟨hstart.symm, hrest⟩
  · rintro ⟨hstart, hrest⟩
    rw [hsplit, hstart, ← hrest]

/-- What is left of the data is sent if the blocks that the middle fragments should carry are the
start of the data. -/
theorem flatMap_fragmentsFrom_iff {data : Bytes} {m : ℕ} {header : WebSocketFrameHeader}
    {bytesLeft full : ℕ} (hfull : fragmentPayloadLength header = full)
    (hless : bytesLeft < data.length) (hm : bytesLeft ≤ m) :
    (fragmentsFrom data m header bytesLeft).flatMap Fragment.payload =
        data.drop (data.length - bytesLeft) ↔
      ∀ i, (i + 1) * full < bytesLeft →
        (data.drop (data.length - bytesLeft + i * full)).take full = data.take full := by
  have hpos : 0 < full := hfull ▸ fragmentPayloadLength_pos header
  induction m generalizing header bytesLeft with
  | zero =>
    obtain rfl := Nat.le_zero.mp hm
    refine iff_of_true ?_ fun i hi ↦ absurd hi (Nat.not_lt_zero _)
    rw [Nat.sub_zero, List.drop_length]
    rfl
  | succ m ih =>
    rw [fragmentsFrom]
    by_cases hleft : bytesLeft > 0
    · rw [if_pos hleft, List.flatMap_cons]
      by_cases hlast : bytesLeft ≤ full
      · -- the last fragment carries what is left
        obtain ⟨-, -, -, -, hpayload, hzero⟩ := nextFragment_last (hfull ▸ hlast) hless.le
        have hnil : fragmentsFrom data m (nextFragment header data bytesLeft).header 0 = [] := by
          cases m <;> rfl
        rw [hzero, hnil, hpayload, List.flatMap_nil, List.append_nil]
        refine iff_of_true rfl fun i hi ↦ ?_
        rw [Nat.succ_mul] at hi
        omega
      · -- a middle fragment carries the start of the data
        rw [not_le] at hlast
        obtain ⟨-, -, hMASK, -, hpayload, hrest⟩ := nextFragment_middle (hfull ▸ hlast) hless
        have hfull' : fragmentPayloadLength (nextFragment header data bytesLeft).header = full := by
          rw [← hfull, fragmentPayloadLength_eq, fragmentPayloadLength_eq, hMASK]
        have hlen : (data.take full).length = full := by
          rw [List.length_take]
          omega
        have hbehind : data.length - bytesLeft + full = data.length - (bytesLeft - full) := by
          omega
        have hless' : bytesLeft - full < data.length := by
          omega
        have hstart : data.length - bytesLeft + (data.take full).length ≤ data.length := by
          omega
        have hturns : bytesLeft - full ≤ m := by
          omega
        have hbehindSent := ih hfull' hless' hturns
        rw [hpayload, hrest, hfull, append_eq_drop_iff hstart, hlen, hbehind]
        -- the first block, and the blocks behind it
        refine Iff.trans (and_congr ?_ (hbehindSent.trans (forall_congr' fun i ↦ ?_)))
          (Nat.and_forall_add_one (p := fun i ↦ (i + 1) * full < bytesLeft →
            (data.drop (data.length - bytesLeft + i * full)).take full = data.take full))
        · rw [Nat.zero_mul, Nat.zero_add, Nat.one_mul, Nat.add_zero]
          exact (imp_iff_right hlast).symm
        · rw [← hbehind, Nat.add_assoc, Nat.add_comm full, ← Nat.succ_mul,
            Nat.succ_mul (i + 1) full]
          exact imp_congr_left (by omega)
    · rw [if_neg hleft, List.flatMap_nil]
      have hzero : bytesLeft = 0 := by omega
      refine iff_of_true ?_ fun i hi ↦ absurd hi (by omega)
      rw [hzero, Nat.sub_zero, List.drop_length]

/-- A message is sent as it is if the blocks that its middle fragments should carry are the start of
the data. -/
theorem flatMap_framesOf_iff {header : WebSocketFrameHeader} {data : Bytes}
    (hlen : header.payloadLen = payloadLenOf data.length) :
    (framesOf header data).flatMap Fragment.payload = data ↔
      BlocksRepeat (fragmentPayloadLength header) data := by
  have hpos := fragmentPayloadLength_pos header
  by_cases hlarge : fragmentPayloadLength header < data.length
  · obtain ⟨-, -, hMASK, -, hpayload, -⟩ := nextFragment_first hlarge
    have hfull : fragmentPayloadLength (nextFragment header data data.length).header =
        fragmentPayloadLength header := by
      rw [fragmentPayloadLength_eq, fragmentPayloadLength_eq, hMASK]
    rw [framesOf_large hlen hlarge, List.flatMap_cons, hpayload]
    generalize fragmentPayloadLength header = full at hpos hlarge hfull ⊢
    have hbehind := flatMap_fragmentsFrom_iff hfull (by omega : data.length - full < data.length)
      (Nat.sub_le data.length full)
    have hlen : (data.take full).length = full := by
      rw [List.length_take]
      omega
    have hstart : 0 + (data.take full).length ≤ data.length := by
      omega
    conv_lhs => rhs; rw [← List.drop_zero (l := data)]
    rw [append_eq_drop_iff hstart, hlen, List.drop_zero, Nat.zero_add, eq_self_iff_true,
      true_and]
    have hrest : data.length - (data.length - full) = full := Nat.sub_sub_self hlarge.le
    rw [hrest] at hbehind
    -- the first block is the first block again
    refine hbehind.trans (Iff.trans ?_ (Nat.and_forall_add_one (p := fun i ↦
      (i + 1) * full < data.length → (data.drop (i * full)).take full = data.take full)))
    rw [Nat.zero_mul, List.drop_zero, eq_self_iff_true, imp_true_iff, true_and]
    refine forall_congr' fun i ↦ ?_
    rw [Nat.add_comm full, ← Nat.succ_mul, Nat.succ_mul (i + 1) full]
    exact imp_congr_left (by omega)
  · rw [framesOf_small hlen (not_lt.mp hlarge)]
    refine iff_of_true (List.append_nil data) fun i hi ↦ ?_
    rw [Nat.succ_mul] at hi
    omega

/-! ### The message that they are -/

/-- The arguments of `handleFrame` for a fragment. -/
def Fragment.frame (f : Fragment) : Frame :=
  (f.header, f.payload)

/-- The frames of a message are one, with the payloads of the frames. -/
theorem framesOf_message {header : WebSocketFrameHeader} {data : Bytes}
    (hdata : header.opcode.isData) (hFIN : header.FIN)
    (hlen : header.payloadLen = payloadLenOf data.length) :
    ∃ m : Message, m.frames = (framesOf header data).map Fragment.frame ∧
      m.opcode = header.opcode ∧
      m.payload = (framesOf header data).flatMap Fragment.payload := by
  rcases (framesOf_shape hFIN hlen).shape with
    ⟨f, hframes, hFIN, hopcode⟩ | ⟨first, middle, last, hframes, hfirst, hmiddle, hlast⟩
  · rw [hframes]
    exact ⟨.whole f.frame (hopcode ▸ hdata) hFIN, rfl, hopcode, (List.append_nil f.payload).symm⟩
  · have hmiddle' : ∀ f ∈ middle.map Fragment.frame,
        f.1.opcode = .ContinuationFrame ∧ f.1.FIN = false := by
      rw [List.forall_mem_map]
      exact fun f hf ↦ (hmiddle f hf).symm
    refine ⟨.fragments first.frame (middle.map Fragment.frame) last.frame
      ⟨hfirst.2 ▸ hdata, hfirst.1⟩ hmiddle' hlast.symm, ?_, hfirst.2, ?_⟩
    · rw [hframes, List.map_cons, List.map_append]
      rfl
    · show first.payload ++ (middle.map Fragment.frame).flatMap Prod.snd ++ last.payload = _
      rw [hframes, List.flatMap_cons, List.flatMap_append, List.flatMap_map, List.append_assoc,
        List.flatMap_singleton]
      rfl

/-! ### The frames are read -/

namespace WebSocket

variable {ws : WebSocket} {f : Frame}

theorem callReceived_tcp (ws : WebSocket) :
    Ends ws.callReceived (fun ws' ↦ ws'.tcp = ws.tcp) fun _ ↦ True := by
  rw [callReceived]
  split
  · exact Ends.bind_any fun payload ↦ rfl
  · rfl

theorem appendPayload_tcp (payload : Bytes) (ws : WebSocket) :
    Ends (ws.appendPayload payload) (fun ws' ↦ ws'.tcp = ws.tcp) fun _ ↦ True :=
  Ends.bind_any fun _ ↦ Ends.bind_any fun _ ↦ rfl

/-- A frame of a message leaves the connection alone. -/
theorem handlePayload_tcp (h : f.1.opcode.isData ∨ f.1.opcode = .ContinuationFrame)
    (ws : WebSocket) :
    Ends (ws.handlePayload f.1 f.2) (fun ws' ↦ ws'.tcp = ws.tcp) fun _ ↦ True := by
  have hframe : Ends (ws.handleFrame f.1 f.2) (fun ws' ↦ ws'.tcp = ws.tcp) fun _ ↦ True := by
    rw [handleFrame]
    split
    · split
      · exact callReceived_tcp _
      · exact (appendPayload_tcp f.2 ws).bind fun ws₁ h₁ ↦
          (callReceived_tcp ws₁).imp fun ws₂ h₂ ↦ h₂.trans h₁
    · rcases f with ⟨header, payload⟩
      cases hop : header.opcode with
      | ContinuationFrame =>
        exact (appendPayload_tcp payload ws).bind fun ws₁ h₁ ↦
          (callReceived_tcp _).bind fun ws₂ h₂ ↦ h₂.trans h₁
      | TextFrame | BinaryFrame =>
        dsimp only
        split
        · exact callReceived_tcp _
        · rfl
      | _ =>
        rw [hop] at h
        simp [WebSocketOpCode.isData] at h
  exact hframe.bind fun ws' hws' ↦ hws'

end WebSocket

theorem WebSocketOpCode.isNamed_of_isData {opcode : WebSocketOpCode} (h : opcode.isData) :
    opcode.isNamed := by
  cases opcode with
  | TextFrame | BinaryFrame => rfl
  | _ => cases h

/-- A frame that fits is read as it was written. -/
theorem Fragment.Fits.readFrame {f : Fragment} (h : f.Fits) (hnamed : f.header.opcode.isNamed)
    (key : UInt32) (rest : Bytes) :
    WebSockets.readFrame (.pieces (frameBuffer f.header f.payload key ++ rest) []) =
      (.frame f.header f.payload, .pieces rest []) := by
  have hpacket := h.packet
  rw [packetSize, WEBSOCKET_MAX_PACKET_SIZE] at hpacket
  exact readFrame_frameBuffer key hnamed h.payloadLen (by omega) rest

/-- The bytes of frames, each with its masking key. -/
def buffersOf (frames : List Fragment) (keys : List UInt32) : List Bytes :=
  frames.zipWith (fun f key ↦ frameBuffer f.header f.payload key) keys

/-- The message loop handles the frames of a message one after the other, and loses the connection
behind them. -/
theorem enterPollLoop_frames {frames : List Fragment} (hfits : ∀ f ∈ frames, f.Fits)
    (hopcode : ∀ f ∈ frames, f.header.opcode.isData ∨ f.header.opcode = .ContinuationFrame)
    {keys : List UInt32} (hkeys : keys.length = frames.length) {peer peer' : WebSocket}
    (hpeer : peer.isConnected)
    (h : peer.handleFrames (frames.map Fragment.frame) = .ok peer') :
    (enterPollLoop (.pieces (buffersOf frames keys).flatten []) peer).ends =
      .ok peer'.tcpDisconnect := by
  induction frames generalizing keys peer with
  | nil =>
    obtain rfl := Except.ok.inj h
    obtain ⟨net, hread⟩ := readFrame_empty []
    rw [enterPollLoop_turn hpeer, buffersOf, List.zipWith_nil_left, List.flatten_nil, hread,
      afterRead, enterPollLoop_of_not_connected peer.isConnected_tcpDisconnect]
  | cons f frames ih =>
    obtain ⟨hf, hfits⟩ := List.forall_mem_cons.mp hfits
    obtain ⟨hop, hopcode⟩ := List.forall_mem_cons.mp hopcode
    obtain ⟨key, keys, rfl⟩ := List.exists_cons_of_length_eq_add_one hkeys
    have hnamed : f.header.opcode.isNamed := by
      rcases hop with hop | hop
      · exact WebSocketOpCode.isNamed_of_isData hop
      · rw [hop]
        rfl
    have htcp := WebSocket.handlePayload_tcp (f := f.frame) hop peer
    rw [List.map_cons, WebSocket.handleFrames, List.foldlM_cons] at h
    rw [enterPollLoop_turn hpeer, buffersOf, List.zipWith_cons_cons, List.flatten_cons,
      hf.readFrame hnamed, afterRead]
    cases hhandle : peer.handlePayload f.frame.1 f.frame.2 with
    | error e =>
      rw [hhandle] at h
      cases h
    | ok peer₁ =>
      rw [hhandle] at h htcp
      have hconnected : peer₁.isConnected := by
        rw [WebSocket.isConnected, show peer₁.tcp = peer.tcp from htcp]
        exact hpeer
      have hhandle' : peer.handlePayload f.header f.payload = .ok peer₁ := hhandle
      rw [hhandle']
      exact ih hfits hopcode (Nat.succ.inj hkeys) hconnected h

/-! ### What is received -/

/-- A call of `receivedCallback` with a whole message. -/
def Call.isMessage : Call → Bool
  | received isFragment _ _ => !isFragment
  | _ => false

namespace Message

theorem opcode_cases (m : Message) :
    ∀ f ∈ m.frames, f.1.opcode.isData ∨ f.1.opcode = .ContinuationFrame := by
  cases m with
  | whole f hopcode hFIN => exact List.forall_mem_singleton.mpr (.inl hopcode)
  | fragments first middle last hfirst hmiddle hlast =>
    refine List.forall_mem_cons.mpr ⟨.inl hfirst.1, List.forall_mem_append.mpr ⟨?_, ?_⟩⟩
    · exact fun f hf ↦ .inr (hmiddle f hf).1
    · exact List.forall_mem_singleton.mpr (.inr hlast.1)

theorem not_isPingPong (m : Message) : ∀ f ∈ m.frames, ¬f.1.opcode.isPingPong := by
  intro f hf hping
  rcases m.opcode_cases f hf with hdata | hcontinuation
  · cases hopcode : f.1.opcode with
    | TextFrame | BinaryFrame =>
      rw [hopcode] at hping
      cases hping
    | _ =>
      rw [hopcode] at hdata
      cases hdata
  · rw [hcontinuation] at hping
    cases hping

/-- A message leads to one call with the whole of it. -/
theorem filter_calls (m : Message) :
    m.calls.filter Call.isMessage = [.received false m.opcode m.payload] := by
  have hpartial : m.partialCalls.filter Call.isMessage = [] := by
    rw [List.filter_eq_nil_iff]
    intro c hc
    cases m with
    | whole f hopcode hFIN => cases hc
    | fragments first middle last hfirst hmiddle hlast =>
      obtain ⟨done, -, rfl⟩ := List.mem_map.mp hc
      exact Bool.false_ne_true
  rw [calls, List.filter_append, hpartial]
  rfl

end Message

namespace WebSocket

/-- The messages received so far. -/
def messages (ws : WebSocket) : List Call :=
  ws.called.filter Call.isMessage

theorem messages_eq (ws : WebSocket) : ws.messages = ws.received.filter Call.isMessage := by
  rw [messages, received, List.filter_filter]
  refine List.filter_congr fun c _ ↦ ?_
  cases c with
  | received isFragment opcode payload => exact (Bool.and_true _).symm
  | pong payload => rfl
  | close statusCode reason => rfl

/-- The frames of a message are handled without fault. -/
theorem handleFrames_message (m : Message) {ws : WebSocket} (hcallback : ws.receivedCallback) :
    ∃ ws', ws.handleFrames m.frames = .ok ws' ∧
      ws'.messages = ws.messages ++ [.received false m.opcode m.payload] := by
  have hassembles := m.assembles .nil
  rw [List.append_nil, List.append_nil] at hassembles
  -- no ping comes, so no write can fail
  have hends : Ends (ws.handleFrames m.frames)
      (fun ws' ↦ ws'.received = ws.received ++ m.calls)
      fun e ↦ e = .notConnected ∧ WriteOutcome.error ∈ [] :=
    handleFrames_assembles hassembles hcallback
      (fun f hf hping ↦ absurd hping (m.not_isPingPong f hf)) fun m hm ↦ by cases hm
  cases hhandle : ws.handleFrames m.frames with
  | error e => cases (hends.of_error hhandle).2
  | ok ws' =>
    refine ⟨ws', rfl, ?_⟩
    rw [messages_eq, messages_eq, hends.of_ok hhandle, List.filter_append, m.filter_calls]

/-- The call of `send` succeeds, and the peer, which gets its bytes, receives the data as one more
message. -/
def Delivers (data : Bytes) (messageType : WebSocketMessageType) (ws peer : WebSocket) : Prop :=
  ∃ ws' bufs peer', ws.send data messageType = .ok (true, ws') ∧
    ws'.written = ws.written ++ bufs ∧
    (enterPollLoop (.pieces bufs.flatten []) peer).ends = .ok peer' ∧
    peer'.messages = peer.messages ++ [.received false messageType.opcode data]

/-- The peer receives one message, with the payloads of the frames. -/
theorem send_poll (data : Bytes) (messageType : WebSocketMessageType) {ws peer : WebSocket}
    (h : ws.Writable) (hpeer : peer.isConnected) (hcallback : peer.receivedCallback) :
    ∃ ws' bufs peer', ws.send data messageType = .ok (true, ws') ∧
      ws'.written = ws.written ++ bufs ∧
      (enterPollLoop (.pieces bufs.flatten []) peer).ends = .ok peer' ∧
      peer'.messages = peer.messages ++ [.received false messageType.opcode
        ((framesOf (ws.headerOf messageType.opcode data.length) data).flatMap
          Fragment.payload)] := by
  have hdata : messageType.opcode.isData := by
    cases messageType <;> rfl
  have hframesOf :=
    @framesOf_message (ws.headerOf messageType.opcode data.length) data hdata rfl rfl
  generalize hframes : framesOf (ws.headerOf messageType.opcode data.length) data = frames
    at hframesOf ⊢
  have hfits : ∀ f ∈ frames, f.Fits := hframes ▸ framesOf_fits rfl
  obtain ⟨m, hm, hopcode, hpayload⟩ := hframesOf
  have hopcodes : ∀ f ∈ frames, f.header.opcode.isData ∨
      f.header.opcode = .ContinuationFrame := by
    have hcases := m.opcode_cases
    rwa [hm, List.forall_mem_map] at hcases
  obtain ⟨ws', keys, hsend, hkeys, hwritten⟩ := sendAll_ok frames h
  obtain ⟨peer', hhandle, hmessages⟩ := handleFrames_message m hcallback
  rw [hm] at hhandle
  rw [hopcode, hpayload] at hmessages
  refine ⟨ws', buffersOf frames keys, peer'.tcpDisconnect, ?_, hwritten,
    enterPollLoop_frames hfits hopcodes hkeys hpeer hhandle, hmessages⟩
  rw [send_eq, h.assertConnected, hframes]
  exact hsend

/-- The data arrives if the payloads of the frames are the data. -/
theorem delivers_iff_payload {data : Bytes} {messageType : WebSocketMessageType}
    {ws peer : WebSocket} (h : ws.Writable) (hpeer : peer.isConnected)
    (hcallback : peer.receivedCallback) :
    ws.Delivers data messageType peer ↔
      (framesOf (ws.headerOf messageType.opcode data.length) data).flatMap Fragment.payload =
        data := by
  obtain ⟨ws', bufs, peer', hsend, hwritten, hpoll, hmessages⟩ :=
    send_poll data messageType h hpeer hcallback
  constructor
  · rintro ⟨ws₂, bufs₂, peer₂, hsend₂, hwritten₂, hpoll₂, hmessages₂⟩
    obtain rfl : ws' = ws₂ := congrArg Prod.snd (Except.ok.inj (hsend.symm.trans hsend₂))
    obtain rfl : bufs = bufs₂ := List.append_cancel_left (hwritten.symm.trans hwritten₂)
    obtain rfl : peer' = peer₂ := Except.ok.inj (hpoll.symm.trans hpoll₂)
    have hreceived := List.append_cancel_left (hmessages.symm.trans hmessages₂)
    exact (Call.received.inj (List.singleton_inj.mp hreceived)).2.2
  · intro hpayload
    rw [hpayload] at hmessages
    exact ⟨ws', bufs, peer', hsend, hwritten, hpoll, hmessages⟩

/-- If all writes succeed, the peer receives what is sent, as one message, if and only if the blocks
that the middle fragments should carry are the same as the first. -/
theorem delivers_iff (data : Bytes) (messageType : WebSocketMessageType) {ws peer : WebSocket}
    (h : ws.Writable) (hpeer : peer.isConnected) (hcallback : peer.receivedCallback) :
    ws.Delivers data messageType peer ↔
      BlocksRepeat (if ws.useMasking then 1452 else 1456) data := by
  have hfull := fragmentPayloadLength_eq (ws.headerOf messageType.opcode data.length)
  rw [delivers_iff_payload h hpeer hcallback, flatMap_framesOf_iff rfl, hfull]
  rfl

/-- A client sends a text of three fragments, masked, whose bytes are all the same. -/
theorem delivers_iff_sample :
    Delivers (.replicate 3000 0x61) .Text
      { useMasking := true, randoms := [0xdeadbeef, 0x12345678, 0x9abcdef0] } {} := by
  refine (delivers_iff (.replicate 3000 0x61) .Text ⟨rfl, List.forall_mem_nil _⟩ rfl rfl).2
    fun i hi ↦ ?_
  have hi : (i + 1) * 1452 < 3000 := by rwa [List.length_replicate] at hi
  rw [List.drop_replicate, List.take_replicate, List.take_replicate]
  congr 1
  show min 1452 (3000 - i * 1452) = min 1452 3000
  omega

/-- A message in three fragments, of which the second carries the bytes of the first. -/
theorem middle_fragment_resent :
    ¬Delivers (.replicate 1456 0 ++ (.replicate 1456 1 ++ [2])) .Binary {} {} := by
  have hiff (data : Bytes) : Delivers data .Binary {} {} ↔ BlocksRepeat 1456 data := by
    rw [delivers_iff_payload ⟨rfl, List.forall_mem_nil _⟩ rfl rfl, flatMap_framesOf_iff rfl,
      fragmentPayloadLength_eq]
    rfl
  have htake (byte : UInt8) (rest : Bytes) :
      (List.replicate 1456 byte ++ rest).take 1456 = .replicate 1456 byte :=
    List.take_left' List.length_replicate
  have hdrop (rest : Bytes) : (List.replicate 1456 (0 : UInt8) ++ rest).drop 1456 = rest :=
    List.drop_left' List.length_replicate
  rw [hiff]
  intro h
  have hlen : (List.replicate 1456 (0 : UInt8) ++ (List.replicate 1456 1 ++ [2])).length =
      2913 := by
    rw [List.length_append, List.length_append, List.length_replicate, List.length_replicate]
    rfl
  have hsame := h 1 (by rw [hlen]; decide)
  rw [Nat.one_mul, hdrop, htake, htake] at hsame
  exact absurd (List.replicate_inj.mp hsame).2 (by decide)

end WebSocket

end WebSockets
