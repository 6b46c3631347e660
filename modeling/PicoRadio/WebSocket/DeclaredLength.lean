import PicoRadio.WebSocket.PollLoop

/-!
# The length that a frame declares

A frame declares a length of up to 64 bits. `parseFrameHeader` keeps it in a `size_t`, which has 32:
of a frame that declares more, only the length modulo 2³² is read as payload, and what follows is
taken for the next header.
-/

namespace WebSockets

/-- The length of the payload as the frame says it. -/
def declaredLength (header : WebSocketFrameHeader) (len : Bytes) : ℕ :=
  if header.payloadLen = 126 ∨ header.payloadLen = 127 then ofBigEndian len
  else header.payloadLen.toNat

theorem payloadLength_eq_mod (header : WebSocketFrameHeader) (len : Bytes) :
    payloadLength header len = declaredLength header len % 2 ^ 32 := by
  rw [payloadLength, declaredLength]
  split
  · rfl
  · have := header.payloadLen.isLt
    omega

/-- The next calls of `readBytes` that ask for these numbers of bytes return them all. Where there
is nothing to ask for, there is no call. -/
def Network.Serves : List ℕ → Network → Prop
  | [], _ => True
  | 0 :: lens, net => Serves lens net
  | (len + 1) :: lens, net => ∃ mem, (net.readBytes (len + 1)).1 = .bytes mem ∧
      mem.length = len + 1 ∧ Serves lens (net.readBytes (len + 1)).2

/-- The bytes that say the length of the frame. -/
def lengthField (header : WebSocketFrameHeader) (net : Network) : Bytes :=
  net.incoming.take header.extension

/-- All fields of a frame with a known opcode can be read, the payload with the length that is left
of the declared one. -/
def Readable (header : WebSocketFrameHeader) (net : Network) : Prop :=
  header.opcode.isNamed ∧ net.Serves [header.extension, if header.MASK then 4 else 0,
    declaredLength header (lengthField header net) % 2 ^ 32]

/-- The connection is given up, or the payload that is handed over has the length that the frame
declares, and the next header is read behind it. -/
def Honoured (header : WebSocketFrameHeader) (net : Network) : Prop :=
  match parseFrameHeader header net with
  | (.frame header' payload, net') => header' = header ∧
      ∃ len key received, net.incoming = len ++ (key ++ (received ++ net'.incoming)) ∧
        len.length = header.extension ∧ key.length = (if header.MASK then 4 else 0) ∧
        received.length = declaredLength header len ∧ payload = unmasked header key received
  | (.disconnect, _) => True
  | (.noHeader _, _) => False

/-- A field is read if the network serves it, and the connection given up if not. -/
theorem readField_cases (len : ℕ) (next : Bytes → Network → ReadFrame × Network) (net : Network) :
    (∃ mem net', mem.length = len ∧ net.incoming = mem ++ net'.incoming ∧
        readField len next net = next mem net' ∧
        ∀ lens, net.Serves (len :: lens) ↔ net'.Serves lens) ∨
      ∃ net', readField len next net = (.disconnect, net') ∧ ∀ lens, ¬net.Serves (len :: lens) := by
  cases len with
  | zero => exact .inl ⟨[], net, rfl, rfl, rfl, fun lens ↦ by rw [Network.Serves]⟩
  | succ len =>
    rw [readField, if_pos (Nat.succ_pos len)]
    rcases net.readBytes_spec (Nat.succ_pos len) with
      ⟨mem, rest, hbs, -, h⟩ | ⟨net', h⟩ | ⟨arrivals, -, h⟩
    · rw [h]
      dsimp only
      by_cases hmem : mem.length = len + 1
      · refine .inl ⟨mem, _, hmem, hbs, if_pos hmem, fun lens ↦ ?_⟩
        rw [Network.Serves, h]
        refine ⟨fun hserves ↦ ?_, fun hrest ↦ ⟨mem, rfl, hmem, hrest⟩⟩
        obtain ⟨-, -, -, hrest⟩ := hserves
        exact hrest
      · refine .inr ⟨_, if_neg hmem, fun lens hserves ↦ ?_⟩
        rw [Network.Serves, h] at hserves
        obtain ⟨mem', heq, hmem', -⟩ := hserves
        obtain rfl := ReadResult.bytes.inj heq
        exact hmem hmem'
    · refine .inr ⟨net', by rw [h], fun lens hserves ↦ ?_⟩
      rw [Network.Serves, h] at hserves
      obtain ⟨mem', heq, -⟩ := hserves
      cases heq
    · refine .inr ⟨_, by rw [h], fun lens hserves ↦ ?_⟩
      rw [Network.Serves, h] at hserves
      obtain ⟨mem', heq, -⟩ := hserves
      cases heq

/-- A frame that is readable is read, with as many bytes as are left of the declared length. Of any
other the connection is given up. -/
theorem parseFrameHeader_cases (header : WebSocketFrameHeader) (net : Network) :
    (Readable header net ∧ ∃ key received net', parseFrameHeader header net =
        (.frame header (unmasked header key received), net') ∧
      net.incoming = lengthField header net ++ (key ++ (received ++ net'.incoming)) ∧
      (lengthField header net).length = header.extension ∧
      key.length = (if header.MASK then 4 else 0) ∧
      received.length = declaredLength header (lengthField header net) % 2 ^ 32) ∨
    ¬Readable header net ∧ ∃ net', parseFrameHeader header net = (.disconnect, net') := by
  rw [parseFrameHeader, Readable]
  by_cases hnamed : header.opcode.isNamed
  · rw [if_pos hnamed]
    rcases readField_cases header.extension _ net with
      ⟨len, net₁, hlen, hnet, hread, hserves⟩ | ⟨net', hread, hserves⟩
    · have hfield : lengthField header net = len := by
        rw [lengthField, hnet]
        exact List.take_left' hlen
      rw [hread, hserves, hfield]
      rcases readField_cases (if header.MASK then 4 else 0) _ net₁ with
        ⟨key, net₂, hkey, hnet₁, hread, hserves⟩ | ⟨net', hread, hserves⟩
      · rw [hread, hserves, ← payloadLength_eq_mod]
        rcases readField_cases (payloadLength header len) _ net₂ with
          ⟨received, net₃, hreceived, hnet₂, hread, hserves⟩ | ⟨net', hread, hserves⟩
        · refine .inl ⟨⟨hnamed, (hserves []).mpr trivial⟩, key, received, net₃, hread, ?_, hlen,
            hkey, hreceived⟩
          rw [hnet, hnet₁, hnet₂]
        · exact .inr ⟨fun h ↦ hserves [] h.2, net', hread⟩
      · exact .inr ⟨fun h ↦ hserves _ h.2, net', hread⟩
    · exact .inr ⟨fun h ↦ hserves _ h.2, net', hread⟩
  · rw [if_neg hnamed]
    exact .inr ⟨fun h ↦ hnamed h.1, net, rfl⟩

/-- **The declared length is honoured exactly if it has 32 bits, or the frame cannot be read.** -/
theorem honoured_iff (header : WebSocketFrameHeader) (net : Network) :
    Honoured header net ↔
      declaredLength header (lengthField header net) < 2 ^ 32 ∨ ¬Readable header net := by
  rcases parseFrameHeader_cases header net with
    ⟨hreadable, key, received, net', hparse, hnet, hlen, hkey, hreceived⟩ | ⟨hno, net', hparse⟩
  · rw [Honoured, hparse]
    refine ⟨fun h ↦ .inl ?_, fun h ↦ ?_⟩
    · -- both readings of the stream agree on the fields, so also on the length of the payload
      obtain ⟨-, len, key', received', hnet', hlen', hkey', hreceived', -⟩ := h
      have hfield : lengthField header net = len := by
        rw [lengthField, hnet']
        exact List.take_left' hlen'
      have hlength := congrArg List.length (hnet.symm.trans hnet')
      simp only [List.length_append] at hlength
      rw [hfield] at hreceived hlen hlength ⊢
      omega
    · have hsmall := h.resolve_right (not_not_intro hreadable)
      rw [Nat.mod_eq_of_lt hsmall] at hreceived
      exact ⟨rfl, _, key, received, hnet, hlen, hkey, hreceived, rfl⟩
  · rw [Honoured, hparse]
    exact iff_of_true trivial (.inr hno)

/-- A frame that declares 2³² + 1 bytes is handled with one. -/
theorem length_wraps : ¬∀ (header : WebSocketFrameHeader) (net : Network), Honoured header net := by
  intro h
  let header : WebSocketFrameHeader := { opcode := .BinaryFrame, FIN := true, payloadLen := 127 }
  let net : Network := ⟨[0, 0, 0, 1, 0, 0, 0, 1, 7], []⟩
  have hparse : parseFrameHeader header net = (.frame header [7], ⟨[], []⟩) := by decide
  have hhonoured := h header net
  rw [Honoured, hparse] at hhonoured
  obtain ⟨-, len, key, received, hnet, hlen, -, hreceived, -⟩ := hhonoured
  have hfield : len = [0, 0, 0, 1, 0, 0, 0, 1] := by
    rw [← List.take_left' hlen, ← hnet]
    rfl
  have hlength := congrArg List.length hnet
  rw [hfield] at hlength hreceived
  have hdeclared : declaredLength header [0, 0, 0, 1, 0, 0, 0, 1] = 2 ^ 32 + 1 := by decide
  have hnine : net.incoming.length = 9 := rfl
  simp only [List.length_append] at hlength
  omega

end WebSockets
