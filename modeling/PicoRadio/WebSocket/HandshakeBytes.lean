import PicoRadio.WebSocket.Handshake

/-!
# Where the handshake leaves the stream

`initiateHandshake` reads the response through a `TextStream` of its own, which is deleted at the
end. What it has read beyond the blank line goes with it: the message loop sees the frames behind
the response only if a read ends right behind it.
-/

namespace WebSockets

open Lines Network

/-- A response that the client accepts when it reads its lines. -/
structure ValidResponse (digest : Str → Bytes) (keyStr : Str) where
  statusLine : Str
  headers : List Str
  protocol : Str
  statusLine_noBreak : NoBreak CR LF statusLine
  headers_noBreak : ∀ l ∈ headers, NoBreak CR LF l
  headers_ne_nil : ∀ l ∈ headers, l ≠ []
  status : (splitView SPACE statusLine)[1]? = some (ascii "101")
  accepted : acceptedProtocol digest keyStr
    (headers.foldl (Headers.add (ascii "Sec-WebSocket-Accept")) {}) = some protocol

namespace ValidResponse

variable {digest : Str → Bytes} {keyStr : Str}

/-- The lines of a response and the blank line. -/
def lines (r : ValidResponse digest keyStr) : List Str :=
  r.statusLine :: r.headers ++ [[]]

/-- The bytes of a response. -/
def text (r : ValidResponse digest keyStr) : Bytes :=
  unlines CR LF r.lines

theorem lines_noBreak (r : ValidResponse digest keyStr) : ∀ l ∈ r.lines, NoBreak CR LF l := by
  rw [lines, List.forall_mem_append, List.forall_mem_cons, List.forall_mem_singleton]
  exact ⟨⟨r.statusLine_noBreak, r.headers_noBreak⟩, noBreak_nil⟩

end ValidResponse

/-- The reads that begin in the response end behind line breaks in it, up to the one that reads its
end: `rest` is what that leaves of the frames. -/
inductive ReadsThrough (bufferSize : ℕ) (frames rest : Bytes) : Bytes → List ℕ → Prop
  | last {response sizes} (k : ℕ) : k = pieceSize bufferSize sizes → response.length ≤ k →
      rest = frames.drop (k - response.length) → ReadsThrough bufferSize frames rest response sizes
  | line {response sizes} (k : ℕ) : k = pieceSize bufferSize sizes → k < response.length →
      EndsLine CR LF (response.take k) → ¬Split CR LF (response.take k) (response.drop k) →
      ReadsThrough bufferSize frames rest (response.drop k) sizes.tail →
      ReadsThrough bufferSize frames rest response sizes

/-- What the message loop is to read after a handshake that succeeds. -/
def KeepsFrames (digest : Str → Bytes) (guid : Bytes) (path host : Str) (protocols : List Str)
    (frames : Bytes) (s : TextStream) (ws : WebSocket) : Prop :=
  ∀ (protocol : Str) (s' : TextStream) (ws' : WebSocket),
    initiateHandshake TextStream.lines digest guid path host protocols s ws =
      .ok (some protocol, s', ws') → s'.net.incoming = frames

/-! ### Lines in pieces -/

namespace TextStream

variable {s s' : TextStream} {lines' : List Str}

theorem feeds_congr (h : s.readLine = s'.readLine) (hne : lines' ≠ []) {t : TextStream}
    (hfeeds : lines.Feeds s' lines' t) : lines.Feeds s lines' t := by
  obtain ⟨l, lines', rfl⟩ := List.exists_cons_of_ne_nil hne
  obtain ⟨u, hread, hu⟩ := hfeeds
  exact ⟨u, h.trans hread, hu⟩

/-- Lines that are unread are handed out. -/
theorem Loaded.feeds {more : Bytes} (hlines : ∀ l ∈ lines', NoBreak CR LF l)
    (h : s.Loaded (unlines CR LF lines' ++ more)) :
    ∃ t, lines.Feeds s lines' t ∧ t.Loaded more ∧ t.net = s.net ∧ t.bufferSize = s.bufferSize := by
  induction lines' generalizing s with
  | nil => exact ⟨s, rfl, h, rfl, rfl⟩
  | cons l lines' ih =>
    obtain ⟨hl, hlines⟩ := List.forall_mem_cons.mp hlines
    rw [unlines_cons] at h
    have hline := nextLine_of_break hl isBreak_CR (LF :: (unlines CR LF lines' ++ more))
    rw [behind, if_pos ⟨rfl, rfl⟩] at hline
    obtain ⟨u, hread, hu, hnet, hsize⟩ := h.readLine_of_nextLine hline
    obtain ⟨t, hfeeds, ht, htnet, htsize⟩ := ih hlines hu
    exact ⟨t, ⟨u, hread, hfeeds⟩, ht, htnet.trans hnet, htsize.trans hsize⟩

/-- Lines that arrive in pieces that end at lines are handed out. What is read behind them is lost
to others. -/
theorem Loaded.feeds_pieces {frames rest response : Bytes} {sizes : List ℕ} {lines' : List Str}
    {bufferSize : ℕ} (hreads : ReadsThrough bufferSize frames rest response sizes)
    (hlines : ∀ l ∈ lines', NoBreak CR LF l) (hne : lines' ≠ [])
    (hresponse : response = unlines CR LF lines') (h : s.Loaded [])
    (hsize : s.bufferSize = bufferSize) (hnet : s.net = pieces (response ++ frames) sizes) :
    ∃ t, lines.Feeds s lines' t ∧ t.net.incoming = rest ∧ t.source.connected = true := by
  induction hreads generalizing s lines' with
  | @last response sizes k hk hle hrest =>
    have hresponse_ne : response ≠ [] := hresponse ▸ unlines_eq_nil.not.mpr hne
    have hstream : response ++ frames ≠ [] := List.append_ne_nil_of_left_ne_nil hresponse_ne _
    obtain ⟨u, hread, hu, hunet, husize⟩ := h.readLine_piece hnet hstream (hsize ▸ hk)
    rw [List.take_append, List.take_of_length_le hle, hresponse] at hu
    obtain ⟨t, hfeeds, ht, htnet, -⟩ := hu.feeds hlines
    refine ⟨t, feeds_congr hread hne hfeeds, ?_, ht.connected⟩
    rw [htnet, hunet, hrest, pieces, List.drop_append, List.drop_eq_nil_of_le hle, List.nil_append]
  | @line response sizes k hk hlt hends hsplit hreads ih =>
    have hresponse_ne : response ≠ [] := hresponse ▸ unlines_eq_nil.not.mpr hne
    have hstream : response ++ frames ≠ [] := List.append_ne_nil_of_left_ne_nil hresponse_ne _
    obtain ⟨lines₁, lines₂, rfl, htake, hdrop⟩ := unlines_eq_append hlines
      (hresponse ▸ (List.take_append_drop k response).symm) hends hsplit
    obtain ⟨hlines₁, hlines₂⟩ := List.forall_mem_append.mp hlines
    have hne₁ : lines₁ ≠ [] := by
      rintro rfl
      exact hends.not_noBreak (htake ▸ noBreak_nil)
    have hne₂ : lines₂ ≠ [] := by
      rintro rfl
      exact absurd (List.drop_eq_nil_iff.mp hdrop) (not_le.mpr hlt)
    -- the piece is made of whole lines
    obtain ⟨u, hread, hu, hunet, husize⟩ := h.readLine_piece hnet hstream (hsize ▸ hk)
    rw [List.take_append_of_le_length hlt.le, htake,
      ← List.append_nil (unlines CR LF lines₁)] at hu
    rw [List.drop_append_of_le_length hlt.le] at hunet
    obtain ⟨t, hfeeds, ht, htnet, htsize⟩ := hu.feeds hlines₁
    obtain ⟨v, hfeeds', hv, hconn⟩ := ih hlines₂ hne₂ hdrop ht
      (htsize.trans (husize.trans hsize)) (htnet.trans hunet)
    exact ⟨v, (feeds_congr hread hne₁ hfeeds).append hfeeds', hv, hconn⟩

end TextStream

/-! ### After the handshake -/

section After

variable {digest : Str → Bytes} {guid : Bytes} (path host : Str) (protocols : List Str)
  {frames rest : Bytes} {sizes : List ℕ} {buffer : Bytes} {ws : WebSocket}

theorem WebSocket.Writable.writeString (h : ws.Writable) (text : Str) :
    ∃ ws', ws.writeString text = .ok (true, ws') := by
  obtain ⟨tcp, htcp, hconnected⟩ := Option.any_eq_true _ _ |>.mp h.connected
  refine ⟨{ ws with writes := ws.writes.tail, written := ws.written ++ [text] }, ?_⟩
  simp only [WebSocket.writeString, h.outcome, writeBytes, htcp, hconnected, if_true]

/-- A handshake whose reads end at lines succeeds, and leaves what the last read has left. -/
theorem initiateHandshake_readsThrough (r : ValidResponse digest (base64_encode guid))
    (hws : ws.Writable) (hbuffer : buffer.length = 1024)
    (hreads : ReadsThrough 1024 frames rest r.text sizes) :
    ∃ s' ws', initiateHandshake TextStream.lines digest guid path host protocols
        (.new buffer (pieces (r.text ++ frames) sizes)) ws = .ok (some r.protocol, s', ws') ∧
      s'.net.incoming = rest ∧ s'.source.connected = true := by
  have hne : buffer ≠ [] := by
    rintro rfl
    cases hbuffer
  have hloaded := TextStream.new_loaded hne (pieces (r.text ++ frames) sizes)
  obtain ⟨s', hfeeds, hrest, hconn⟩ := hloaded.feeds_pieces hreads r.lines_noBreak
    (List.cons_ne_nil _ _) rfl hbuffer rfl
  obtain ⟨ws', hwrite⟩ := hws.writeString
    (handshakeRequest path host protocols (base64_encode guid))
  have hread := @readResponse_of_feeds _ _ _ _ digest (base64_encode guid) _ _
    r.headers_ne_nil hfeeds r.status
  refine ⟨s', ws', ?_, hrest, hconn⟩
  rw [initiateHandshake, hwrite, ok_bind]
  dsimp only
  rw [if_pos rfl, hread, r.accepted]
  rfl

/-- **What the message loop reads after a handshake whose reads end at lines**: the handshake
succeeds, and the frames are all there if and only if the last read ends behind the blank line. -/
theorem keepsFrames_iff (r : ValidResponse digest (base64_encode guid))
    (hws : ws.Writable) (hbuffer : buffer.length = 1024)
    (hreads : ReadsThrough 1024 frames rest r.text sizes) :
    (∃ s' ws', initiateHandshake TextStream.lines digest guid path host protocols
        (.new buffer (pieces (r.text ++ frames) sizes)) ws = .ok (some r.protocol, s', ws')) ∧
      (KeepsFrames digest guid path host protocols frames
          (.new buffer (pieces (r.text ++ frames) sizes)) ws ↔ rest = frames) := by
  obtain ⟨s', ws', hhandshake, hrest, -⟩ :=
    initiateHandshake_readsThrough path host protocols r hws hbuffer hreads
  refine ⟨⟨s', ws', hhandshake⟩, fun h ↦ ?_, fun heq protocol t wt ht ↦ ?_⟩
  · rw [← hrest]
    exact h _ _ _ hhandshake
  · rw [hhandshake] at ht
    cases ht
    exact hrest.trans heq

end After

/-! ### A response -/

/-- The SHA-1 digest of `dGhlIHNhbXBsZSBub25jZQ==258EAFA5-E914-47DA-95CA-C5AB0DC85B11`. -/
def sampleDigest : Str → Bytes := fun _ ↦
  [0xb3, 0x7a, 0x4f, 0x2c, 0xc0, 0x62, 0x4f, 0x16, 0x90, 0xf6, 0x46, 0x06, 0xcf, 0x38, 0x59, 0x45,
    0xb2, 0xbe, 0xc4, 0xea]

/-- A response to the key that encodes `the sample nonce`. -/
def sampleResponse : ValidResponse sampleDigest (base64_encode (ascii "the sample nonce")) where
  statusLine := ascii "HTTP/1.1 101 Switching Protocols"
  headers := [ascii "Upgrade: websocket", ascii "Connection: Upgrade",
    ascii "Sec-WebSocket-Accept: s3pPLMBiTxaQ9kYGzzhZRbK+xOo="]
  protocol := []
  statusLine_noBreak := by decide
  headers_noBreak := by decide
  headers_ne_nil := by decide
  status := by decide
  accepted := by decide +kernel

/-- The response comes alone, in one segment. -/
theorem keepsFrames_sample :
    (∃ s' ws', initiateHandshake TextStream.lines sampleDigest (ascii "the sample nonce")
        (ascii "/") (ascii "robot") [] (.new (.replicate 1024 0)
          (pieces (sampleResponse.text ++ [0x89, 0]) [sampleResponse.text.length])) {} =
        .ok (some sampleResponse.protocol, s', ws')) ∧
      (KeepsFrames sampleDigest (ascii "the sample nonce") (ascii "/") (ascii "robot") [] [0x89, 0]
          (.new (.replicate 1024 0)
            (pieces (sampleResponse.text ++ [0x89, 0]) [sampleResponse.text.length])) {} ↔
        ([0x89, 0] : Bytes) = [0x89, 0]) := by
  refine keepsFrames_iff _ _ _ sampleResponse ⟨rfl, List.forall_mem_nil _⟩ List.length_replicate
    (.last _ rfl ?_ ?_)
  · decide +kernel
  · decide +kernel

/-- A ping follows in the same segment. -/
theorem ping_swallowed :
    ¬∀ (digest : Str → Bytes) (guid : Bytes) (path host : Str) (protocols : List Str)
      (r : ValidResponse digest (base64_encode guid)) (frames : Bytes) (sizes : List ℕ)
      (buffer : Bytes), buffer.length = 1024 →
      KeepsFrames digest guid path host protocols frames
        (.new buffer (pieces (r.text ++ frames) sizes)) {} := by
  intro h
  have hreads : ReadsThrough 1024 [0x89, 0] [] sampleResponse.text [] := by
    refine .last _ rfl ?_ ?_
    · decide +kernel
    · decide +kernel
  obtain ⟨s', ws', hhandshake, hrest, -⟩ := initiateHandshake_readsThrough (ascii "/")
    (ascii "robot") [] sampleResponse (⟨rfl, List.forall_mem_nil _⟩ : WebSocket.Writable {})
    (List.length_replicate (a := (0 : UInt8))) hreads
  have hframes := h _ _ _ _ _ sampleResponse [0x89, 0] [] _ List.length_replicate _ _ _ hhandshake
  rw [hrest] at hframes
  cases hframes

end WebSockets
