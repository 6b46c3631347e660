import PicoRadio.Library.Cells
import PicoRadio.WebSocket.Socket

/-!
# How the frame buffers are filled

Both overloads of `sendFrame` allocate a block for the frame, copy the parts of the frame into it
one behind the other and mask the payload in place. Every access to the block is checked here. What
they write is the frame (`frameBuffer`), whatever the block held before, and the overload for two
payloads writes the frame of the two joined.

A payload without bytes may be the null pointer. Memory is taken to suffice, so the length of a
frame is no larger than a `size_t`.

## Blocks with holes

A new block holds anything, so its cells are given as an argument and the result must not depend on
them. Every copy is a step from one block to the next that fails outside the block, and the steps
are added up: header, length, key and payload fill the block without a gap.
-/

namespace WebSockets

open Cells

/-- The block of a frame, and where its next part goes. -/
structure FrameWriter where
  buffer : Bytes
  index : ℕ
  deriving DecidableEq, Repr

namespace FrameWriter

/-- `pvPortMalloc`, with what the memory held before. -/
def alloc (memory : ℕ → UInt8) (frameLength : ℕ) : FrameWriter where
  buffer := (List.range frameLength).map memory
  index := 0

/-- `std::memcpy(&buffer[index], src, n)` and `index += n`. -/
def put (src : Bytes) (w : FrameWriter) : Except Cells.Fault FrameWriter := do
  let buffer ← copy w.buffer w.index src
  return { buffer, index := w.index + src.length }

/-- A payload is copied if there is one. -/
def putPayload (payload : Bytes) (w : FrameWriter) : Except Cells.Fault FrameWriter :=
  if payload.length > 0 then w.put payload else .ok w

/-- The length behind the header. -/
def putLength (header : WebSocketFrameHeader) (payloadLength : ℕ) (w : FrameWriter) :
    Except Cells.Fault FrameWriter :=
  if header.payloadLen = 127 then w.put (bigEndian 8 payloadLength)
  else if header.payloadLen = 126 then w.put (bigEndian 2 payloadLength)
  else .ok w

/-- The masking key behind the length. -/
def putKey (header : WebSocketFrameHeader) (maskingKey : UInt32) (w : FrameWriter) :
    Except Cells.Fault FrameWriter :=
  if header.MASK then w.put (littleEndian 4 maskingKey.toNat) else .ok w

/-- `maskPayload(&buffer[start], payloadLength, maskingKey)` if the header asks for it. -/
def mask (header : WebSocketFrameHeader) (start payloadLength : ℕ) (maskingKey : UInt32)
    (w : FrameWriter) : Except Cells.Fault FrameWriter :=
  if header.MASK then
    if start + payloadLength ≤ w.buffer.length then do
      let buffer ← copy w.buffer start
        (maskPayload ((w.buffer.drop start).take payloadLength) maskingKey)
      return { w with buffer }
    else .error .outOfBounds
  else .ok w

end FrameWriter

/-- The length of a frame. -/
def frameLength (header : WebSocketFrameHeader) (payloadLength : ℕ) : ℕ :=
  2 + header.extension + (if header.MASK then 4 else 0) + payloadLength

/-- What `sendFrame` hands to `tcp->writeBytes`. -/
def fillFrame (memory : ℕ → UInt8) (header : WebSocketFrameHeader) (payload : Bytes)
    (maskingKey : UInt32) : Except Cells.Fault Bytes := do
  let w := FrameWriter.alloc memory (frameLength header payload.length)
  let w ← w.put [header.byte₀, header.byte₁]
  let w ← w.putLength header payload.length
  let w ← w.putKey header maskingKey
  if payload.length > 0 then
    let buffer ← copy w.buffer w.index payload
    let w ← { w with buffer }.mask header w.index payload.length maskingKey
    return w.buffer
  else return w.buffer

/-- What the overload of `sendFrame` for two payloads hands to `tcp->writeBytes`. -/
def fillFrame₂ (memory : ℕ → UInt8) (header : WebSocketFrameHeader) (payload1 payload2 : Bytes)
    (maskingKey : UInt32) : Except Cells.Fault Bytes := do
  let w := FrameWriter.alloc memory (frameLength header (payload1.length + payload2.length))
  let w ← w.put [header.byte₀, header.byte₁]
  let w ← w.putLength header (payload1.length + payload2.length)
  let w ← w.putKey header maskingKey
  if payload1.length > 0 ∨ payload2.length > 0 then
    let payloadStart := w.index
    let w ← w.putPayload payload1
    let w ← w.putPayload payload2
    let w ← w.mask header payloadStart (payload1.length + payload2.length) maskingKey
    return w.buffer
  else return w.buffer

/-! ### The parts of a frame -/

/-- This has been written, and there is room for so many more bytes. -/
def FrameWriter.Wrote (w : FrameWriter) (written : Bytes) (room : ℕ) : Prop :=
  w.index = written.length ∧ ∃ rest : Bytes, rest.length = room ∧ w.buffer = written ++ rest

namespace FrameWriter

variable {w : FrameWriter} {written : Bytes} {room : ℕ}

theorem alloc_wrote (memory : ℕ → UInt8) (frameLength : ℕ) :
    (alloc memory frameLength).Wrote [] frameLength :=
  ⟨rfl, _, by rw [List.length_map, List.length_range], rfl⟩

theorem Wrote.buffer_eq (h : w.Wrote written 0) : w.buffer = written := by
  obtain ⟨-, rest, hrest, hbuffer⟩ := h
  rw [hbuffer, List.length_eq_zero_iff.mp hrest, List.append_nil]

theorem Wrote.copy {src : Bytes} (h : w.Wrote written (src.length + room)) :
    ∃ rest : Bytes, rest.length = room ∧
      Cells.copy w.buffer w.index src = .ok (written ++ src ++ rest) := by
  obtain ⟨hindex, rest, hrest, hbuffer⟩ := h
  refine ⟨rest.drop src.length, by rw [List.length_drop, hrest, Nat.add_sub_cancel_left], ?_⟩
  rw [hbuffer, copy_append hindex (by omega)]

theorem Wrote.put {src : Bytes} (h : w.Wrote written (src.length + room)) :
    Ends (w.put src) (Wrote · (written ++ src) room) fun _ ↦ False := by
  obtain ⟨rest, hrest, hcopy⟩ := h.copy
  rw [FrameWriter.put, hcopy, ok_bind]
  exact ⟨by rw [List.length_append, h.1], rest, hrest, rfl⟩

/-- Nothing is copied if there is nothing to copy. -/
theorem Wrote.putPayload {payload : Bytes} (h : w.Wrote written (payload.length + room)) :
    Ends (w.putPayload payload) (Wrote · (written ++ payload) room) fun _ ↦ False := by
  rw [FrameWriter.putPayload]
  split
  · exact h.put
  · next hnil =>
    obtain rfl := List.length_eq_zero_iff.mp (Nat.eq_zero_of_not_pos hnil)
    rw [List.length_nil, Nat.zero_add] at h
    rw [List.append_nil]
    exact h

variable {header : WebSocketFrameHeader}

theorem Wrote.putLength {payloadLength : ℕ} (h : w.Wrote written (header.extension + room)) :
    Ends (w.putLength header payloadLength)
      (Wrote · (written ++ lengthBytes header payloadLength) room) fun _ ↦ False := by
  rw [FrameWriter.putLength]
  rw [← length_lengthBytes header payloadLength] at h
  rw [lengthBytes] at h ⊢
  split at h
  · next h127 =>
    rw [if_pos h127, if_pos h127]
    exact h.put
  · next h127 =>
    rw [if_neg h127, if_neg h127]
    split at h
    · next h126 =>
      rw [if_pos h126, if_pos h126]
      exact h.put
    · next h126 =>
      rw [List.length_nil, Nat.zero_add] at h
      rw [if_neg h126, if_neg h126, List.append_nil]
      exact h

theorem Wrote.putKey {maskingKey : UInt32}
    (h : w.Wrote written ((if header.MASK then 4 else 0) + room)) :
    Ends (w.putKey header maskingKey) (Wrote · (written ++ keyBytes header maskingKey) room)
      fun _ ↦ False := by
  rw [FrameWriter.putKey]
  rw [← length_keyBytes header maskingKey] at h
  rw [keyBytes] at h ⊢
  split at h
  · next hmask =>
    rw [if_pos hmask, if_pos hmask]
    exact h.put
  · next hmask =>
    rw [List.length_nil, Nat.zero_add] at h
    rw [if_neg hmask, if_neg hmask, List.append_nil]
    exact h

/-- The payload is masked where it lies. -/
theorem mask_payload {payload : Bytes} (h : w.buffer = written ++ payload) (maskingKey : UInt32) :
    Ends (w.mask header written.length payload.length maskingKey)
      (fun w' ↦ w'.buffer = written ++ payloadBytes header payload maskingKey) fun _ ↦ False := by
  rw [FrameWriter.mask, payloadBytes]
  split
  · rw [h, if_pos (by rw [List.length_append]), List.drop_left,
      List.take_of_length_le le_rfl, copy_append rfl (by rw [length_maskPayload]), ok_bind,
      length_maskPayload, List.drop_of_length_le le_rfl, List.append_nil]
    exact rfl
  · exact h

end FrameWriter

/-! ### The frames -/

theorem payloadBytes_nil (header : WebSocketFrameHeader) (maskingKey : UInt32) :
    payloadBytes header [] maskingKey = [] :=
  ite_self _

variable (memory : ℕ → UInt8) (header : WebSocketFrameHeader)

/-- What stands before the payload. -/
def frameHead (payloadLength : ℕ) (maskingKey : UInt32) : Bytes :=
  [header.byte₀, header.byte₁] ++ lengthBytes header payloadLength ++ keyBytes header maskingKey

variable {header}

/-- What both overloads do before they copy the payload. -/
theorem ends_frameHead {payloadLength : ℕ} {maskingKey : UInt32} {Q : Bytes → Prop}
    {f : FrameWriter → Except Cells.Fault Bytes}
    (hf : ∀ w : FrameWriter, w.Wrote (frameHead header payloadLength maskingKey) payloadLength →
      Ends (f w) Q fun _ ↦ False) :
    Ends ((FrameWriter.alloc memory (frameLength header payloadLength)).put
        [header.byte₀, header.byte₁] >>= fun w ↦ w.putLength header payloadLength >>= fun w ↦
          w.putKey header maskingKey >>= f) Q fun _ ↦ False := by
  have hstart : (FrameWriter.alloc memory (frameLength header payloadLength)).Wrote []
      (2 + (header.extension + ((if header.MASK then 4 else 0) + payloadLength))) := by
    rw [← Nat.add_assoc, ← Nat.add_assoc]
    exact FrameWriter.alloc_wrote memory _
  refine (@FrameWriter.Wrote.put _ _ _ [header.byte₀, header.byte₁] hstart).bind fun w₁ h₁ ↦ ?_
  rw [List.nil_append] at h₁
  exact h₁.putLength.bind fun w₂ h₂ ↦ h₂.putKey.bind hf

theorem fillFrame_eq (payload : Bytes) (maskingKey : UInt32) :
    fillFrame memory header payload maskingKey = .ok (frameBuffer header payload maskingKey) := by
  refine Ends.eq_ok (ends_frameHead memory fun w h ↦ ?_)
  split
  · obtain ⟨rest, hrest, hcopy⟩ := @FrameWriter.Wrote.copy _ _ 0 _ h
    rw [hcopy, ok_bind, h.1, List.length_eq_zero_iff.mp hrest, List.append_nil]
    exact (FrameWriter.mask_payload rfl maskingKey).bind fun w' hw' ↦ hw'
  · next hnil =>
    obtain rfl := List.length_eq_zero_iff.mp (Nat.eq_zero_of_not_pos hnil)
    rw [frameBuffer, payloadBytes_nil, List.append_nil]
    exact FrameWriter.Wrote.buffer_eq h

theorem fillFrame₂_eq (payload1 payload2 : Bytes) (maskingKey : UInt32) :
    fillFrame₂ memory header payload1 payload2 maskingKey =
      .ok (frameBuffer₂ header payload1 payload2 maskingKey) := by
  refine Ends.eq_ok (ends_frameHead memory fun w h ↦ ?_)
  split
  · refine h.putPayload.bind fun w₁ h₁ ↦ ?_
    refine (@FrameWriter.Wrote.putPayload _ _ 0 _ h₁).bind fun w₂ h₂ ↦ ?_
    -- what is masked starts where the first payload was copied to
    have hbuffer := h₂.buffer_eq
    rw [List.append_assoc] at hbuffer
    have hmask := @FrameWriter.mask_payload _ _ header _ hbuffer maskingKey
    rw [List.length_append] at hmask
    rw [h.1]
    exact hmask.bind fun w' hw' ↦ hw'
  · next hnil =>
    obtain ⟨hnil₁, hnil₂⟩ := not_or.mp hnil
    obtain rfl := List.length_eq_zero_iff.mp (Nat.eq_zero_of_not_pos hnil₁)
    obtain rfl := List.length_eq_zero_iff.mp (Nat.eq_zero_of_not_pos hnil₂)
    rw [frameBuffer₂, List.append_nil, payloadBytes_nil, List.append_nil]
    exact FrameWriter.Wrote.buffer_eq h

/-! ### The masked payload -/

/-- The bytes of the key mask in the order in which they are sent. -/
theorem maskingByte_eq (maskingKey : UInt32) (i : ℕ) :
    maskingByte maskingKey i = (littleEndian 4 maskingKey.toNat).getD (i % 4) 0 := by
  have hbytes : littleEndian 4 maskingKey.toNat =
      (List.range 4).map fun k ↦ (maskingKey.toNat >>> (8 * k)).toUInt8 := by
    rw [littleEndian, bigEndian, ← List.map_reverse, List.reverse_reverse]
  have hi : i % 4 < ((List.range 4).map fun k ↦ (maskingKey.toNat >>> (8 * k)).toUInt8).length := by
    rw [List.length_map, List.length_range]
    exact Nat.mod_lt i (by decide)
  rw [hbytes, List.getD_eq_getElem?_getD, List.getElem?_eq_getElem hi, Option.getD_some,
    List.getElem_map, List.getElem_range, maskingByte]

theorem payloadBytes_eq (payload : Bytes) (maskingKey : UInt32) :
    payloadBytes header payload maskingKey =
      payload.mapIdx fun i b ↦ b ^^^ (keyBytes header maskingKey).getD (i % 4) 0 := by
  rw [payloadBytes, keyBytes]
  split
  · simp only [maskPayload, maskingByte_eq]
  · -- without a key nothing is masked
    refine List.ext_getElem (by rw [List.length_mapIdx]) fun i _ _ ↦ ?_
    rw [List.getElem_mapIdx, List.getD_nil, UInt8.xor_zero]

variable (header)

/-- **The two overloads of `sendFrame` agree**: the one for two payloads writes what the other
writes for the payloads joined, whatever the memory held. Behind the header, the length and the key
stands the payload, and where there is a key, byte `i` of it is masked with byte `i % 4` of the key
as that is sent. -/
theorem sendFrame_overloads_agree (memory memory₂ : ℕ → UInt8) (payload1 payload2 : Bytes)
    (maskingKey : UInt32) :
    fillFrame₂ memory₂ header payload1 payload2 maskingKey =
      fillFrame memory header (payload1 ++ payload2) maskingKey ∧
    fillFrame memory header (payload1 ++ payload2) maskingKey =
      .ok (frameHead header (payload1 ++ payload2).length maskingKey ++
        (payload1 ++ payload2).mapIdx fun i b ↦
          b ^^^ (keyBytes header maskingKey).getD (i % 4) 0) ∧
    ∀ ws : WebSocket, ws.sendFrame₂ header payload1 payload2 maskingKey =
      ws.sendFrame header (payload1 ++ payload2) maskingKey := by
  refine ⟨?_, ?_, fun ws ↦ ?_⟩
  · rw [fillFrame₂_eq, fillFrame_eq, frameBuffer₂_eq]
  · rw [fillFrame_eq, ← payloadBytes_eq]
    rfl
  · rw [WebSocket.sendFrame₂, WebSocket.sendFrame, frameBuffer₂_eq]

end WebSockets
