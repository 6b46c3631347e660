import Mathlib.Data.List.Basic
import PicoRadio.Bytes

/-!
# Frames on the wire

The header of a WebSocket frame is a struct of bit fields that is copied to the wire as it lies in
memory; behind it come a length of two or eight bytes, the masking key and the payload, each where
the header says so. `frameBuffer` is the buffer that `sendFrame` fills.

Memory is little endian, as on the Pico: the bit fields fill a byte from its low end, the masking
key is copied as it lies there, and `htons` and `htonll` turn lengths around.
-/

namespace WebSockets

/-! ### The header -/

/-- Possible dataframe opcodes. The field of the header has four bits, so it can hold values that
have no name. -/
inductive WebSocketOpCode
  | ContinuationFrame
  | TextFrame
  | BinaryFrame
  | ConnectionClose
  | Ping
  | Pong
  | unnamed (code : BitVec 4)
  deriving DecidableEq, Repr

namespace WebSocketOpCode

/-- The value of an opcode. -/
def code : WebSocketOpCode → BitVec 4
  | ContinuationFrame => 0x0
  | TextFrame => 0x1
  | BinaryFrame => 0x2
  | ConnectionClose => 0x8
  | Ping => 0x9
  | Pong => 0xA
  | unnamed code => code

/-- The opcode that a field of four bits holds. -/
def ofCode (code : BitVec 4) : WebSocketOpCode :=
  if code = 0x0 then ContinuationFrame
  else if code = 0x1 then TextFrame
  else if code = 0x2 then BinaryFrame
  else if code = 0x8 then ConnectionClose
  else if code = 0x9 then Ping
  else if code = 0xA then Pong
  else unnamed code

/-- One of the enumerators. -/
def isNamed : WebSocketOpCode → Bool
  | unnamed _ => false
  | _ => true

theorem ofCode_code {opcode : WebSocketOpCode} (h : opcode.isNamed) :
    ofCode opcode.code = opcode := by
  cases opcode with
  | unnamed => cases h
  | _ => rfl

end WebSocketOpCode

/-- Dataframe header format. -/
structure WebSocketFrameHeader where
  opcode : WebSocketOpCode := .ContinuationFrame
  RSV3 : Bool := false
  RSV2 : Bool := false
  RSV1 : Bool := false
  /-- is final frame flag -/
  FIN : Bool := false
  /-- payload length (0-125, 126, or 127) -/
  payloadLen : BitVec 7 := 0
  /-- is masked flag -/
  MASK : Bool := false
  deriving DecidableEq, Repr

namespace WebSocketFrameHeader

/-- The first byte of the header in memory. -/
def byte₀ (header : WebSocketFrameHeader) : UInt8 :=
  .ofBitVec (BitVec.ofBool header.FIN ++ BitVec.ofBool header.RSV1 ++ BitVec.ofBool header.RSV2 ++
    BitVec.ofBool header.RSV3 ++ header.opcode.code)

/-- The second byte of the header in memory. -/
def byte₁ (header : WebSocketFrameHeader) : UInt8 :=
  .ofBitVec (BitVec.ofBool header.MASK ++ header.payloadLen)

/-- The header that two bytes in memory make. -/
def ofBytes (b₀ b₁ : UInt8) : WebSocketFrameHeader where
  opcode := .ofCode (b₀.toBitVec.extractLsb' 0 4)
  RSV3 := b₀.toBitVec.getLsbD 4
  RSV2 := b₀.toBitVec.getLsbD 5
  RSV1 := b₀.toBitVec.getLsbD 6
  FIN := b₀.toBitVec.getLsbD 7
  payloadLen := b₁.toBitVec.extractLsb' 0 7
  MASK := b₁.toBitVec.getLsbD 7

theorem ofBytes_bytes {header : WebSocketFrameHeader} (h : header.opcode.isNamed) :
    ofBytes header.byte₀ header.byte₁ = header := by
  obtain ⟨opcode, RSV3, RSV2, RSV1, FIN, payloadLen, MASK⟩ := header
  -- the two bytes are read back bit by bit, whatever the bits are
  have hbyte₀ : ∀ (b₇ b₆ b₅ b₄ : Bool) (code : BitVec 4),
      let v := BitVec.ofBool b₇ ++ BitVec.ofBool b₆ ++ BitVec.ofBool b₅ ++ BitVec.ofBool b₄ ++ code
      v.extractLsb' 0 4 = code ∧ v.getLsbD 4 = b₄ ∧ v.getLsbD 5 = b₅ ∧ v.getLsbD 6 = b₆ ∧
        v.getLsbD 7 = b₇ := by
    decide
  have hbyte₁ : ∀ (b₇ : Bool) (len : BitVec 7),
      (BitVec.ofBool b₇ ++ len).extractLsb' 0 7 = len ∧
        (BitVec.ofBool b₇ ++ len).getLsbD 7 = b₇ := by
    decide
  obtain ⟨hcode, hRSV3, hRSV2, hRSV1, hFIN⟩ := hbyte₀ FIN RSV1 RSV2 RSV3 opcode.code
  obtain ⟨hlen, hMASK⟩ := hbyte₁ MASK payloadLen
  have hopcode := (congrArg WebSocketOpCode.ofCode hcode).trans (WebSocketOpCode.ofCode_code h)
  show WebSocketFrameHeader.mk _ _ _ _ _ _ _ = _
  rw [WebSocketFrameHeader.mk.injEq]
  exact ⟨hopcode, hRSV3, hRSV2, hRSV1, hFIN, hlen, hMASK⟩

/-- The bytes that follow the header and say the length. -/
def extension (header : WebSocketFrameHeader) : ℕ :=
  if header.payloadLen = 127 then 8 else if header.payloadLen = 126 then 2 else 0

end WebSocketFrameHeader

/-- What `payloadLength >= UINT16_MAX ? 127 : payloadLength >= 126 ? 126 : payloadLength` leaves in
the field of the header. -/
def payloadLenOf (payloadLength : ℕ) : BitVec 7 :=
  if payloadLength ≥ 0xffff then 127
  else if payloadLength ≥ 126 then 126
  else .ofNat 7 payloadLength

/-- How many bytes say the length behind a header that is filled in for it. -/
theorem WebSocketFrameHeader.extension_eq {header : WebSocketFrameHeader} {n : ℕ}
    (h : header.payloadLen = payloadLenOf n) :
    header.extension = if n ≥ 0xffff then 8 else if n ≥ 126 then 2 else 0 := by
  rw [extension, h, payloadLenOf]
  split
  · rfl
  · split
    · rfl
    · have hn : (BitVec.ofNat 7 n).toNat = n := by
        rw [BitVec.toNat_ofNat]
        omega
      rw [if_neg fun heq ↦ ?_, if_neg fun heq ↦ ?_]
      · rw [heq] at hn
        have : n = 126 := hn.symm
        omega
      · rw [heq] at hn
        have : n = 127 := hn.symm
        omega

/-! ### Masking -/

/-- `(maskingKey >> (8 * (i % 4))) & 0xFF`. -/
def maskingByte (maskingKey : UInt32) (i : ℕ) : UInt8 :=
  (maskingKey.toNat >>> (8 * (i % 4))).toUInt8

/-- Masks a payload using a masking key. -/
def maskPayload (payload : Bytes) (maskingKey : UInt32) : Bytes :=
  payload.mapIdx fun i b ↦ b ^^^ maskingByte maskingKey i

@[simp]
theorem length_maskPayload (payload : Bytes) (maskingKey : UInt32) :
    (maskPayload payload maskingKey).length = payload.length := by
  simp [maskPayload]

/-- Masking twice with the same key is not masking at all. -/
theorem maskPayload_maskPayload (payload : Bytes) (maskingKey : UInt32) :
    maskPayload (maskPayload payload maskingKey) maskingKey = payload := by
  refine List.ext_getElem (by simp) fun i _ _ ↦ ?_
  simp only [maskPayload, List.getElem_mapIdx, UInt8.xor_assoc, UInt8.xor_self, UInt8.xor_zero]

/-! ### The frame -/

/-- The length behind the header. -/
def lengthBytes (header : WebSocketFrameHeader) (payloadLength : ℕ) : Bytes :=
  if header.payloadLen = 127 then bigEndian 8 payloadLength
  else if header.payloadLen = 126 then bigEndian 2 payloadLength
  else []

/-- The masking key behind the length. -/
def keyBytes (header : WebSocketFrameHeader) (maskingKey : UInt32) : Bytes :=
  if header.MASK then littleEndian 4 maskingKey.toNat else []

/-- The payload behind the masking key. -/
def payloadBytes (header : WebSocketFrameHeader) (payload : Bytes) (maskingKey : UInt32) : Bytes :=
  if header.MASK then maskPayload payload maskingKey else payload

/-- The length of the payload as `parseFrameHeader` reads it. A `size_t` has 32 bits. -/
def payloadLength (header : WebSocketFrameHeader) (len : Bytes) : ℕ :=
  if header.payloadLen = 126 ∨ header.payloadLen = 127 then ofBigEndian len % 2 ^ 32
  else header.payloadLen.toNat

/-- The length that `sendFrame` writes is the length that `parseFrameHeader` reads. -/
theorem payloadLength_lengthBytes {header : WebSocketFrameHeader} {n : ℕ}
    (h : header.payloadLen = payloadLenOf n) (hn : n < 2 ^ 32) :
    payloadLength header (lengthBytes header n) = n := by
  rw [payloadLength, lengthBytes, h, payloadLenOf]
  split
  · rw [if_pos (.inr rfl), if_pos rfl, ofBigEndian_bigEndian]
    omega
  · split
    · rw [if_pos (.inl rfl), if_neg (by decide), if_pos rfl, ofBigEndian_bigEndian]
      omega
    · have hn : (BitVec.ofNat 7 n).toNat = n := by
        rw [BitVec.toNat_ofNat]
        omega
      rw [if_neg fun hor ↦ ?_, hn]
      rcases hor with heq | heq
      all_goals rw [heq] at hn
      · have : n = 126 := hn.symm
        omega
      · have : n = 127 := hn.symm
        omega

/-- The buffer that `sendFrame` fills. -/
def frameBuffer (header : WebSocketFrameHeader) (payload : Bytes) (maskingKey : UInt32) : Bytes :=
  [header.byte₀, header.byte₁] ++ lengthBytes header payload.length ++ keyBytes header maskingKey ++
    payloadBytes header payload maskingKey

theorem length_lengthBytes (header : WebSocketFrameHeader) (payloadLength : ℕ) :
    (lengthBytes header payloadLength).length = header.extension := by
  rw [lengthBytes, WebSocketFrameHeader.extension]
  split
  · rw [length_bigEndian]
  · split
    · rw [length_bigEndian]
    · rfl

theorem length_keyBytes (header : WebSocketFrameHeader) (maskingKey : UInt32) :
    (keyBytes header maskingKey).length = if header.MASK then 4 else 0 := by
  rw [keyBytes, apply_ite List.length, length_littleEndian, List.length_nil]

@[simp]
theorem length_payloadBytes (header : WebSocketFrameHeader) (payload : Bytes)
    (maskingKey : UInt32) : (payloadBytes header payload maskingKey).length = payload.length := by
  rw [payloadBytes, apply_ite List.length, length_maskPayload, ite_self]

theorem length_frameBuffer (header : WebSocketFrameHeader) (payload : Bytes) (maskingKey : UInt32) :
    (frameBuffer header payload maskingKey).length =
      2 + header.extension + (if header.MASK then 4 else 0) + payload.length := by
  rw [frameBuffer, List.length_append, List.length_append, List.length_append, length_lengthBytes,
    length_keyBytes, length_payloadBytes]
  rfl

/-- The buffer that the overload of `sendFrame` for two payloads fills. -/
def frameBuffer₂ (header : WebSocketFrameHeader) (payload1 payload2 : Bytes) (maskingKey : UInt32) :
    Bytes :=
  [header.byte₀, header.byte₁] ++ lengthBytes header (payload1.length + payload2.length) ++
    keyBytes header maskingKey ++ payloadBytes header (payload1 ++ payload2) maskingKey

theorem frameBuffer₂_eq (header : WebSocketFrameHeader) (payload1 payload2 : Bytes)
    (maskingKey : UInt32) :
    frameBuffer₂ header payload1 payload2 maskingKey =
      frameBuffer header (payload1 ++ payload2) maskingKey := by
  rw [frameBuffer₂, frameBuffer, List.length_append]

end WebSockets
