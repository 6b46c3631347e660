import PicoRadio.WebSocket.PollLoop

/-!
# Frames and how they are cut

A stream of complete frames (`WireFrame`) is read by the message loop field by field. If every call
of `readBytes` for a field returns all of it, the loop does with the stream what it would do with
the frames themselves (`framesLoop`). If a call returns less, bytes are lost: either the first half
of a header, and the loop reads on one byte too far, or the connection. The bytes that are left are
then too few for the frames that should still come (`handed_le_incoming`).

## Why a cut is always seen

A call of `readBytes` that returns less than a whole field is not repeated. What it has taken is
gone, and the loop goes on with too few bytes for the frames that are still to come, however it
reads the rest. So it cannot hand over as many bytes of frames as were sent, and this is what the
converse compares.
-/

namespace WebSockets

/-! ### Frames as they are sent -/

/-- A complete frame on the wire. -/
structure WireFrame where
  b₀ : UInt8
  b₁ : UInt8
  len : Bytes
  key : Bytes
  payload : Bytes
  length_len : len.length = (WebSocketFrameHeader.ofBytes b₀ b₁).extension
  length_key : key.length = if (WebSocketFrameHeader.ofBytes b₀ b₁).MASK then 4 else 0
  length_payload : payload.length = payloadLength (.ofBytes b₀ b₁) len

namespace WireFrame

variable (f : WireFrame)

def header : WebSocketFrameHeader :=
  .ofBytes f.b₀ f.b₁

def bytes : Bytes :=
  f.b₀ :: f.b₁ :: (f.len ++ (f.key ++ f.payload))

/-- The lengths of the fields, as far as there is something to read. -/
def fields : List ℕ :=
  [2, f.len.length, f.key.length, f.payload.length].filter (0 < ·)

/-- What `handleFrame` gets. -/
def handed : WebSocketFrameHeader × Bytes :=
  (f.header, unmasked f.header f.key f.payload)

theorem wireLength_handed : wireLength f.handed.1 f.handed.2 = f.bytes.length := by
  have hlen : f.len.length = f.header.extension := f.length_len
  have hkey : f.key.length = if f.header.MASK then 4 else 0 := f.length_key
  rw [handed, wireLength, length_unmasked, bytes, ← hlen, ← hkey]
  simp only [List.length_cons, List.length_append]
  omega

end WireFrame

/-- The bytes of a sequence of frames. -/
def streamOf (frames : List WireFrame) : Bytes :=
  frames.flatMap WireFrame.bytes

/-- The lengths of their fields. -/
def fieldsOf (frames : List WireFrame) : List ℕ :=
  frames.flatMap WireFrame.fields

/-- What the message loop does with frames that it gets one by one. -/
def framesLoop : List WireFrame → WebSocket → PollRun
  | [], ws => ⟨[], .ok (if ws.isConnected then ws.tcpDisconnect else ws)⟩
  | f :: frames, ws =>
    if ws.isConnected then
      if f.header.opcode.isNamed then
        afterRead (fun _ ↦ framesLoop frames) ws (.frame f.header f.handed.2, ⟨[], []⟩)
      else ⟨[], .ok ws.disconnect⟩
    else ⟨[], .ok ws⟩

/-- The lengths of the fields that the loop reads: those of the frames up to the one that ends it.
Of a frame without a named opcode it reads the first two bytes. -/
def fieldsReached : List WireFrame → WebSocket → List ℕ
  | [], _ => []
  | f :: frames, ws =>
    if ws.isConnected then
      if f.header.opcode.isNamed then
        f.fields ++
          match ws.handlePayload f.header f.handed.2 with
          | .ok ws => fieldsReached frames ws
          | .error _ => []
      else [2]
    else []

theorem isPrefix_fieldsReached (frames : List WireFrame) (ws : WebSocket) :
    fieldsReached frames ws <+: fieldsOf frames := by
  induction frames generalizing ws with
  | nil => exact List.prefix_rfl
  | cons f frames ih =>
    rw [fieldsReached, fieldsOf, List.flatMap_cons]
    split
    · split
      · refine (List.prefix_append_right_inj _).mpr ?_
        split
        · exact ih _
        · exact List.nil_prefix
      · exact ⟨_, rfl⟩
    · exact List.nil_prefix

theorem Served.of_initial {lens lens' sizes : List ℕ} (h : Served lens' sizes)
    (hinitial : lens <+: lens') : Served lens sizes := by
  induction lens generalizing lens' sizes with
  | nil => trivial
  | cons len lens ih =>
    obtain ⟨rest, rfl⟩ := hinitial
    rw [List.cons_append, served_cons] at h
    exact served_cons.mpr ⟨h.1, ih h.2 (List.prefix_append lens rest)⟩

/-! ### Fields that are cut -/

open Network

/-- The calls that are left after a field. -/
def afterField (field : Bytes) (sizes : List ℕ) : List ℕ :=
  if field = [] then sizes else sizes.tail

theorem afterField_nil (field : Bytes) : afterField field [] = [] := by
  rw [afterField, List.tail_nil, ite_self]

/-- The calls that are left behind the header of a frame. -/
def WireFrame.afterFields (f : WireFrame) (sizes : List ℕ) : List ℕ :=
  afterField f.payload (afterField f.key (afterField f.len sizes))

theorem WireFrame.afterFields_nil (f : WireFrame) : f.afterFields [] = [] := by
  rw [afterFields, afterField_nil, afterField_nil, afterField_nil]

/-- A field is read whole, or the connection is given up. -/
theorem readField_pieces (field rest : Bytes) (sizes : List ℕ)
    (next : Bytes → Network → ReadFrame × Network) :
    (readField field.length next (pieces (field ++ rest) sizes) =
        next field (pieces rest (afterField field sizes)) ∧
      ∀ lens, Served ([field.length].filter (0 < ·) ++ lens) sizes ↔
        Served lens (afterField field sizes)) ∨
    (∃ net, readField field.length next (pieces (field ++ rest) sizes) = (.disconnect, net)) ∧
      ∀ lens, ¬Served ([field.length].filter (0 < ·) ++ lens) sizes := by
  by_cases hfield : field = []
  · subst hfield
    exact .inl ⟨rfl, fun lens ↦ Iff.rfl⟩
  · have hlen : 0 < field.length := List.length_pos_iff.mpr hfield
    rw [afterField, if_neg hfield, readField, if_pos hlen,
      List.filter_cons_of_pos (by simpa using hlen)]
    rcases readBytes_pieces hfield rest sizes with
      ⟨hserved, h⟩ | ⟨⟨n, hn, hcut⟩, got, rest', -, -, hgot, h⟩
    · refine .inl ⟨by rw [h]; exact if_pos rfl, fun lens ↦ ?_⟩
      exact served_cons.trans (and_iff_right hserved)
    · refine .inr ⟨⟨_, by rw [h]; exact if_neg hgot.ne⟩, fun lens hserved ↦ ?_⟩
      exact absurd ((served_cons.mp hserved).1 n hn) (by omega)

/-- Behind its header a frame is read whole, or the connection is given up. -/
theorem parseFrameHeader_pieces (f : WireFrame) (hnamed : f.header.opcode.isNamed) (rest : Bytes)
    (sizes : List ℕ) :
    let net := pieces (f.len ++ (f.key ++ (f.payload ++ rest))) sizes
    let fields := [f.len.length, f.key.length, f.payload.length].filter (0 < ·)
    (parseFrameHeader f.header net =
        (.frame f.header f.handed.2, pieces rest (f.afterFields sizes)) ∧
      ∀ lens, Served (fields ++ lens) sizes ↔ Served lens (f.afterFields sizes)) ∨
    (∃ net', parseFrameHeader f.header net = (.disconnect, net')) ∧
      ∀ lens, ¬Served (fields ++ lens) sizes := by
  intro net fields
  have hfields (lens : List ℕ) : fields ++ lens = [f.len.length].filter (0 < ·) ++
      ([f.key.length].filter (0 < ·) ++ ([f.payload.length].filter (0 < ·) ++ lens)) := by
    rw [← List.append_assoc, ← List.append_assoc, ← List.filter_append, ← List.filter_append]
    rfl
  have hlen : f.header.extension = f.len.length := f.length_len.symm
  have hkey : (if f.header.MASK then 4 else 0) = f.key.length := f.length_key.symm
  have hpayload : payloadLength f.header f.len = f.payload.length := f.length_payload.symm
  simp only [hfields]
  rw [parseFrameHeader, if_pos hnamed, hlen, hkey]
  dsimp only [net]
  -- the three fields one after the other
  rcases readField_pieces f.len (f.key ++ (f.payload ++ rest)) sizes _ with
    ⟨hread₁, hserved₁⟩ | ⟨hstop, hcut⟩
  swap
  · exact .inr ⟨hstop, fun lens ↦ hcut _⟩
  rcases readField_pieces f.key (f.payload ++ rest) (afterField f.len sizes) _ with
    ⟨hread₂, hserved₂⟩ | ⟨hstop, hcut⟩
  swap
  · exact .inr ⟨hstop.imp fun net' h ↦ hread₁.trans h, fun lens h ↦ hcut _ ((hserved₁ _).mp h)⟩
  rcases readField_pieces f.payload rest (afterField f.key (afterField f.len sizes)) _ with
    ⟨hread₃, hserved₃⟩ | ⟨hstop, hcut⟩
  · refine .inl ⟨hread₁.trans (hread₂.trans ?_), fun lens ↦
      (hserved₁ _).trans ((hserved₂ _).trans (hserved₃ lens))⟩
    rw [hpayload]
    exact hread₃
  · refine .inr ⟨hstop.imp fun net' h ↦ hread₁.trans (hread₂.trans ?_), fun lens h ↦
      hcut _ ((hserved₂ _).mp ((hserved₁ _).mp h))⟩
    rw [hpayload]
    exact h

/-- A frame is read whole, or too few bytes are left, or the connection is given up. -/
theorem readFrame_pieces (f : WireFrame) (hnamed : f.header.opcode.isNamed) (rest : Bytes)
    (sizes : List ℕ) :
    (readFrame (pieces (f.bytes ++ rest) sizes) =
        (.frame f.header f.handed.2, pieces rest (f.afterFields sizes.tail)) ∧
      ∀ lens, Served (f.fields ++ lens) sizes ↔ Served lens (f.afterFields sizes.tail)) ∨
    (∃ net, readFrame (pieces (f.bytes ++ rest) sizes) = (.disconnect, net) ∨
        readFrame (pieces (f.bytes ++ rest) sizes) = (.noHeader true, net) ∧
          net.incoming.length < (f.bytes ++ rest).length) ∧
      ∀ lens, ¬Served (f.fields ++ lens) sizes := by
  have hbytes : f.bytes ++ rest = [f.b₀, f.b₁] ++ (f.len ++ (f.key ++ (f.payload ++ rest))) := by
    simp [WireFrame.bytes]
  have hfields (lens : List ℕ) : f.fields ++ lens =
      2 :: ([f.len.length, f.key.length, f.payload.length].filter (0 < ·) ++ lens) :=
    rfl
  simp only [hfields, served_cons]
  rw [hbytes, readFrame]
  rcases readBytes_pieces (List.cons_ne_nil f.b₀ [f.b₁]) (f.len ++ (f.key ++ (f.payload ++ rest)))
    sizes with ⟨hserved, h⟩ | ⟨⟨n, hn, hcut⟩, got, rest', heq, hne, hgot, h⟩
  · have hheader : readBytes 2 (pieces ([f.b₀, f.b₁] ++ _) sizes) = _ := h
    rw [hheader]
    rcases parseFrameHeader_pieces f hnamed rest sizes.tail with
      ⟨hparse, hrest⟩ | ⟨⟨net, hparse⟩, hrest⟩
    · exact .inl ⟨hparse, fun lens ↦ (and_iff_right hserved).trans (hrest lens)⟩
    · exact .inr ⟨⟨net, .inl hparse⟩, fun lens h ↦ hrest lens h.2⟩
  · have hheader : readBytes 2 (pieces ([f.b₀, f.b₁] ++ _) sizes) = _ := h
    rw [hheader, heq]
    have hcut' : n ∈ sizes.head? → ¬2 ≤ max 1 n := fun _ ↦ not_le.mpr hcut
    refine .inr ⟨?_, fun lens h ↦ hcut' hn (h.1 n hn)⟩
    -- the one byte that the call returned is lost
    rcases got with _ | ⟨b, _ | ⟨b', got⟩⟩
    · exact absurd rfl hne
    · exact ⟨_, .inr ⟨rfl, Nat.lt_succ_self _⟩⟩
    · simp only [List.length_cons, List.length_nil] at hgot
      omega

theorem readFrame_unnamed {f : WireFrame} (h : ¬f.header.opcode.isNamed) (rest : Bytes)
    {sizes : List ℕ} (hserved : Served [2] sizes) :
    ∃ net, readFrame (pieces (f.bytes ++ rest) sizes) = (.disconnect, net) := by
  have hbytes : f.bytes ++ rest = [f.b₀, f.b₁] ++ (f.len ++ (f.key ++ (f.payload ++ rest))) := by
    simp [WireFrame.bytes]
  have hheader := (served_cons.mp hserved).1
  rw [hbytes, readFrame]
  rcases readBytes_pieces (List.cons_ne_nil f.b₀ [f.b₁]) (f.len ++ (f.key ++ (f.payload ++ rest)))
    sizes with ⟨-, hread⟩ | ⟨⟨n, hn, hcut⟩, -⟩
  · have hread : readBytes 2 (pieces ([f.b₀, f.b₁] ++ _) sizes) = _ := hread
    rw [hread]
    exact ⟨_, if_neg h⟩
  · exact absurd (hheader n hn) (not_le.mpr hcut)

theorem readFrame_empty (sizes : List ℕ) :
    ∃ net, readFrame (pieces [] sizes) = (.noHeader false, net) := by
  cases sizes with
  | nil => exact ⟨_, rfl⟩
  | cons n sizes => exact ⟨_, rfl⟩

/-! ### The loop over frames -/

/-- If all calls return what they ask for, the loop does what it would do with the frames. -/
theorem enterPollLoop_served {frames : List WireFrame} {sizes : List ℕ}
    {ws : WebSocket} (h : Served (fieldsReached frames ws) sizes) :
    enterPollLoop (pieces (streamOf frames) sizes) ws = framesLoop frames ws := by
  induction frames generalizing sizes ws with
  | nil =>
    rw [framesLoop]
    by_cases hws : ws.isConnected
    · obtain ⟨net, hread⟩ := readFrame_empty sizes
      rw [enterPollLoop_turn hws, if_pos hws, streamOf, List.flatMap_nil, hread]
      exact enterPollLoop_of_not_connected ws.isConnected_tcpDisconnect _
    · rw [enterPollLoop_of_not_connected (by simpa using hws), if_neg hws]
  | cons f frames ih =>
    have hstream : streamOf (f :: frames) = f.bytes ++ streamOf frames := List.flatMap_cons
    rw [hstream, framesLoop]
    rw [fieldsReached] at h
    by_cases hws : ws.isConnected
    · rw [if_pos hws] at h
      rw [enterPollLoop_turn hws, if_pos hws]
      by_cases hnamed : f.header.opcode.isNamed
      · rw [if_pos hnamed] at h ⊢
        rcases readFrame_pieces f hnamed (streamOf frames) sizes with
          ⟨hread, hserved⟩ | ⟨-, hcut⟩
        · rw [hread, afterRead, afterRead]
          rw [hserved] at h
          cases hhandle : ws.handlePayload f.header f.handed.2 with
          | ok ws' =>
            rw [hhandle] at h
            dsimp only
            rw [ih h]
          | error e => rfl
        · exact absurd h (hcut _)
      · rw [if_neg hnamed] at h ⊢
        obtain ⟨net, hread⟩ := readFrame_unnamed hnamed (streamOf frames) h
        rw [hread]
        exact enterPollLoop_of_not_connected ws.isConnected_disconnect _
    · rw [enterPollLoop_of_not_connected (by simpa using hws), if_neg hws]

/-- The frames that the loop hands over were there. -/
theorem handed_le_incoming (net : Network) (ws : WebSocket) :
    ((enterPollLoop net ws).handed.map fun r ↦ wireLength r.1 r.2).sum ≤ net.incoming.length := by
  induction hn : net.left using Nat.strong_induction_on generalizing net ws with
  | _ n ih =>
    by_cases hws : ws.isConnected
    swap
    · rw [enterPollLoop_of_not_connected (by simpa using hws)]
      exact Nat.zero_le _
    have hconsumed := readFrame_consumed net
    rw [enterPollLoop_turn hws]
    generalize readFrame net = r at hconsumed ⊢
    obtain ⟨r, net'⟩ := r
    cases r with
    | frame header payload =>
      have hless : net'.left < n := by
        have hlen := hconsumed.1
        have harrivals := hconsumed.2
        simp only [wireLength, Network.left] at *
        omega
      have hlen : net'.incoming.length + wireLength header payload = net.incoming.length :=
        hconsumed.1
      rw [afterRead]
      split
      · next ws' _ =>
        have hrest := ih _ hless net' ws' rfl
        rw [List.map_cons, List.sum_cons]
        dsimp only
        omega
      · rw [List.map_singleton, List.sum_singleton]
        dsimp only
        omega
    | disconnect =>
      rw [afterRead, enterPollLoop_of_not_connected ws.isConnected_disconnect]
      exact Nat.zero_le _
    | noHeader connected =>
      cases connected with
      | true => exact (ih _ (hn ▸ hconsumed.2) net' ws rfl).trans hconsumed.1
      | false =>
        rw [afterRead, enterPollLoop_of_not_connected ws.isConnected_tcpDisconnect]
        exact Nat.zero_le _

theorem sum_wireLength (frames : List WireFrame) :
    ((frames.map WireFrame.handed).map fun r ↦ wireLength r.1 r.2).sum =
      (streamOf frames).length := by
  induction frames with
  | nil => rfl
  | cons f frames ih =>
    rw [List.map_cons, List.map_cons, List.sum_cons, ih, f.wireLength_handed, streamOf, streamOf,
      List.flatMap_cons, List.length_append]

/-- If a call for a field returns less, the loop does not hand over all frames. -/
theorem enterPollLoop_cut {frames : List WireFrame} {sizes : List ℕ}
    {ws : WebSocket} (h : ¬Served (fieldsReached frames ws) sizes)
    (hall : (framesLoop frames ws).handed = frames.map WireFrame.handed) :
    (enterPollLoop (pieces (streamOf frames) sizes) ws).handed ≠ frames.map WireFrame.handed := by
  induction frames generalizing sizes ws with
  | nil => exact absurd trivial h
  | cons f frames ih =>
    rw [framesLoop] at hall
    split at hall
    swap
    · cases hall
    next hws =>
    split at hall
    swap
    · cases hall
    next hnamed =>
    have hturn := enterPollLoop_turn hws (pieces (streamOf (f :: frames)) sizes)
    have hstream : streamOf (f :: frames) = f.bytes ++ streamOf frames := List.flatMap_cons
    rw [fieldsReached, if_pos hws, if_pos hnamed] at h
    rcases readFrame_pieces f hnamed (streamOf frames) sizes with
      ⟨hread, hserved⟩ | ⟨⟨net, hread | ⟨hread, hless⟩⟩, -⟩
    · rw [hturn, hstream, hread]
      rw [hserved] at h
      rw [afterRead] at hall ⊢
      split at hall
      · next ws' hws' =>
        intro heq
        rw [hws'] at h
        exact ih h (List.cons.inj hall).2 (List.cons.inj heq).2
      · next hws' =>
        -- no frame comes after the one that fails
        rw [hws'] at h
        exact absurd trivial h
    · rw [hturn, hstream, hread, afterRead,
        enterPollLoop_of_not_connected ws.isConnected_disconnect]
      exact List.cons_ne_nil _ _ ∘ Eq.symm
    · intro heq
      have hsum := handed_le_incoming net ws
      rw [hturn, hstream, hread, afterRead] at heq
      rw [heq, sum_wireLength, hstream] at hsum
      omega

/-- The loop hands over the same frames, however the stream is cut, as long as every call for a
field that it reads returns all of it. What comes behind the frame that ends the loop may be cut
anywhere. A cut inside a field is always seen, if no frame but the last ends the loop. -/
theorem enterPollLoop_segmentation (frames : List WireFrame) (sizes : List ℕ) (ws : WebSocket) :
    let whole := (enterPollLoop (pieces (streamOf frames) []) ws).handed
    let cut := (enterPollLoop (pieces (streamOf frames) sizes) ws).handed
    (Served (fieldsReached frames ws) sizes → cut = whole) ∧
      (whole = frames.map WireFrame.handed →
        (cut = whole ↔ Served (fieldsReached frames ws) sizes)) := by
  intro whole cut
  have hwhole : whole = (framesLoop frames ws).handed :=
    congrArg PollRun.handed (enterPollLoop_served (served_nil _))
  have hsame (h : Served (fieldsReached frames ws) sizes) : cut = whole := by
    rw [hwhole]
    exact congrArg PollRun.handed (enterPollLoop_served h)
  refine ⟨hsame, fun hall ↦ ⟨fun heq ↦ ?_, hsame⟩⟩
  by_contra hcut
  exact enterPollLoop_cut hcut (hwhole.symm.trans hall) (heq.trans hall)

/-- A ping frame of the peer, without masking and payload. -/
def WireFrame.samplePing : WireFrame where
  b₀ := 0x89
  b₁ := 0x00
  len := []
  key := []
  payload := []
  length_len := by decide
  length_key := by decide
  length_payload := by decide

/-- A masked text of 126 bytes. -/
def WireFrame.sampleText : WireFrame where
  b₀ := 0x81
  b₁ := 0xfe
  len := [0x00, 0x7e]
  key := [0x01, 0x02, 0x03, 0x04]
  payload := List.replicate 126 0x60
  length_len := by decide
  length_key := by decide
  length_payload := List.length_replicate

/-- A closing frame of the peer, with a status code. -/
def WireFrame.sampleClose : WireFrame where
  b₀ := 0x88
  b₁ := 0x02
  len := []
  key := []
  payload := [0x03, 0xe8]
  length_len := by decide
  length_key := by decide
  length_payload := by decide

set_option maxRecDepth 4000 in
/-- The peer sends a text, a ping and a closing frame. Every field comes in one piece. What comes
behind the closing frame may be cut. -/
theorem enterPollLoop_segmentation_sample :
    let frames : List WireFrame := [.sampleText, .samplePing, .sampleClose, .samplePing]
    let handed (sizes : List ℕ) :=
      (enterPollLoop (pieces (streamOf frames) sizes) {}).handed
    handed [2, 2, 4, 126, 2, 2, 2, 1] = handed [] := by
  intro frames handed
  refine (enterPollLoop_segmentation frames [2, 2, 4, 126, 2, 2, 2, 1] _).1 ?_
  decide +kernel

/-- A ping frame is cut after its first byte. -/
theorem ping_cut_lost :
    ¬∀ (frames : List WireFrame) (sizes : List ℕ) (ws : WebSocket),
      (enterPollLoop (pieces (streamOf frames) sizes) ws).handed =
        (enterPollLoop (pieces (streamOf frames) []) ws).handed := by
  intro h
  have hlost := h [.samplePing] [1] {}
  revert hlost
  decide

end WebSockets
