import Mathlib.Data.BitVec
import PicoRadio.Bytes
import PicoRadio.Library.Blockwise

/-!
# The secure hash algorithm

SHA-1 as the standard has it: a message is padded to whole blocks, and each block is compressed into
the chaining value in eighty rounds, for which the schedule expands its sixteen words. A round moves
the five working words along.

Nothing here is about an implementation. `Window` is what an implementation of the schedule needs
that keeps the last sixteen words only: a sequence whose last terms are kept in place, one for each
residue.
-/

universe u

/-- The cells hold the terms of a sequence from `t` on, each at the index of its residue. -/
def Window {α : Type u} {n : ℕ} [NeZero n] (w : ℕ → α) (t : ℕ) (cells : Vector α n) : Prop :=
  ∀ i, t ≤ i → i < t + n → cells[Fin.ofNat n i] = w i

namespace Window

variable {α : Type u} {n : ℕ} [NeZero n] {w : ℕ → α} {t : ℕ} {cells : Vector α n}

/-- The next term takes the place of the first one. -/
theorem set (h : Window w t cells) :
    Window w (t + 1) (cells.set (Fin.ofNat n t) (w (t + n)) (Fin.ofNat n t).isLt) := by
  intro i hi hlt
  simp only [Fin.getElem_fin, Vector.getElem_set]
  split
  · next heq =>
    have hmod : t % n = i % n := heq
    have hi : i = t + n := by
      by_contra hne
      have hdvd : n ∣ i - t := (Nat.modEq_iff_dvd' (by omega)).mp hmod
      have hle := Nat.le_of_dvd (by omega) hdvd
      omega
    rw [hi]
  · next hne =>
    have hne : i ≠ t + n := by
      rintro rfl
      exact hne (Nat.add_mod_right t n).symm
    exact h i (by omega) (by omega)

end Window

namespace SecureHash

/-- `ROTL`, a rotation to the left. -/
def rotl (n : ℕ) (x : UInt32) : UInt32 :=
  ⟨x.toBitVec.rotateLeft n⟩

def ch (x y z : UInt32) : UInt32 :=
  (x &&& y) ^^^ (~~~x &&& z)

def parity (x y z : UInt32) : UInt32 :=
  x ^^^ y ^^^ z

def maj (x y z : UInt32) : UInt32 :=
  (x &&& y) ^^^ (x &&& z) ^^^ (y &&& z)

/-- The function of a round. -/
def roundFunction (t : ℕ) : UInt32 → UInt32 → UInt32 → UInt32 :=
  if t < 20 then ch else if t < 40 then parity else if t < 60 then maj else parity

/-- The constant of a round. -/
def roundConstant (t : ℕ) : UInt32 :=
  if t < 20 then 0x5a827999 else if t < 40 then 0x6ed9eba1
  else if t < 60 then 0x8f1bbcdc else 0xca62c1d6

/-- The message schedule: the words of the block, and what they are expanded to. -/
def schedule (block : Vector UInt32 16) (t : ℕ) : UInt32 :=
  if h : t < 16 then block[t]
  else rotl 1 (schedule block (t - 3) ^^^ schedule block (t - 8) ^^^ schedule block (t - 14) ^^^
    schedule block (t - 16))

/-- The five words before round `t`. -/
def rounds (block : Vector UInt32 16) (h : Vector UInt32 5) : ℕ → Vector UInt32 5
  | 0 => h
  | t + 1 =>
    let r := rounds block h t
    #v[rotl 5 r[0] + roundFunction t r[1] r[2] r[3] + r[4] + roundConstant t + schedule block t,
      r[0], rotl 30 r[1], r[2], r[3]]

/-- A block is compressed into the chaining value. -/
def compress (h : Vector UInt32 5) (block : Vector UInt32 16) : Vector UInt32 5 :=
  h.zipWith (· + ·) (rounds block h 80)

/-- The words of a block of 64 bytes. -/
def words (block : Bytes) : Vector UInt32 16 :=
  .ofFn fun i ↦ (ofBigEndian ((block.drop (4 * i)).take 4)).toUInt32

/-- The initial chaining value. -/
def initial : Vector UInt32 5 :=
  #v[0x67452301, 0xefcdab89, 0x98badcfe, 0x10325476, 0xc3d2e1f0]

/-- The padding: a bit, zeros up to the last eight bytes of a block, and there the number of bits of
the message. -/
def pad (message : Bytes) : Bytes :=
  message ++ 0x80 :: List.replicate ((119 - message.length % 64) % 64) 0 ++
    bigEndian 8 (8 * message.length)

/-- The hash value of a message. -/
def hashValue (message : Bytes) : Bytes :=
  (absorb 64 (fun h block ↦ compress h (words block)) initial (pad message)).1.toList.flatMap
    fun word ↦ bigEndian 4 word.toNat

theorem schedule_of_lt {block : Vector UInt32 16} {t : ℕ} (h : t < 16) :
    schedule block t = block[t] := by
  rw [schedule, dif_pos h]

theorem schedule_add (block : Vector UInt32 16) (t : ℕ) :
    schedule block (t + 16) = rotl 1 (schedule block (t + 13) ^^^ schedule block (t + 8) ^^^
      schedule block (t + 2) ^^^ schedule block t) := by
  rw [schedule, dif_neg (by omega), Nat.add_sub_cancel]
  rfl

/-- The words of the block itself fill the window. -/
theorem window_schedule (block : Vector UInt32 16) : Window (schedule block) 0 block := by
  intro i _ hi
  have hmod : i % 16 = i := Nat.mod_eq_of_lt (by omega)
  rw [schedule_of_lt (by omega)]
  simp only [Fin.getElem_fin, Fin.ofNat, hmod]

/-! ### The padding -/

theorem getElem_words_append {p : Bytes} (hp : p.length = 56) (l : Bytes) {i : ℕ} (hi : i < 14) :
    (words (p ++ l))[i] = (ofBigEndian ((p.drop (4 * i)).take 4)).toUInt32 := by
  simp only [words, Vector.getElem_ofFn]
  rw [List.drop_append_of_le_length (by omega), List.take_append_of_le_length]
  rw [List.length_drop]
  omega

theorem ofBigEndian_word (n : ℕ) : (ofBigEndian (bigEndian 4 n)).toUInt32 = n.toUInt32 := by
  rw [ofBigEndian_bigEndian, ← UInt32.toNat_inj]
  simp only [Nat.toUInt32, UInt32.toNat_ofNat']
  omega

/-- The last two words are the number of bits. -/
theorem words_append_length {p : Bytes} (hp : p.length = 56) (n : ℕ) {block : Vector UInt32 16}
    (hblock : ∀ i (h : i < 14), block[i] = (ofBigEndian ((p.drop (4 * i)).take 4)).toUInt32) :
    words (p ++ bigEndian 8 n) = (block.set 15 n.toUInt32).set 14 (n >>> 32).toUInt32 := by
  refine Vector.ext fun i hi ↦ ?_
  rw [Vector.getElem_set, Vector.getElem_set]
  rcases Nat.lt_or_ge i 14 with hlt | hge
  · rw [if_neg (by omega), if_neg (by omega), hblock i hlt, getElem_words_append hp _ hlt]
  · have hsplit : bigEndian 8 n = bigEndian 4 (n >>> 32) ++ bigEndian 4 n := bigEndian_add 4 4 n
    rcases (by omega : i = 14 ∨ i = 15) with rfl | rfl
    · rw [if_pos rfl, ← ofBigEndian_word, hsplit]
      simp only [words, Vector.getElem_ofFn]
      rw [List.drop_left' hp, List.take_left' (length_bigEndian 4 _)]
    · rw [if_neg (by omega), if_pos rfl, ← ofBigEndian_word, hsplit, ← List.append_assoc]
      simp only [words, Vector.getElem_ofFn]
      rw [List.drop_left' (by rw [List.length_append, hp, length_bigEndian]),
        List.take_of_length_le (by rw [length_bigEndian])]

/-- The state and the number of the blocks that it has taken. -/
def counted (s : Vector UInt32 5 × ℕ) (block : Bytes) : Vector UInt32 5 × ℕ :=
  (compress s.1 (words block), s.2 + 1)

theorem length_counted (message : Bytes) :
    64 * (absorb 64 counted (initial, 0) message).1.2 +
      (absorb 64 counted (initial, 0) message).2.length = message.length := by
  have h := @length_absorb _ _ 64 counted (by omega) Prod.snd (fun _ _ ↦ rfl) (initial, 0) message
  rwa [Nat.mul_zero, Nat.zero_add] at h

/-- The hash value from the blocks of a message and what they leave over. -/
theorem hashValue_eq (message : Bytes) :
    hashValue message = (absorb 64 counted (absorb 64 counted (initial, 0) message).1
      ((absorb 64 counted (initial, 0) message).2 ++
        0x80 :: List.replicate ((119 - message.length % 64) % 64) 0 ++
          bigEndian 8 (8 * message.length))).1.1.toList.flatMap
      fun word ↦ bigEndian 4 word.toNat := by
  have hmap := @absorb_map _ _ 64 counted _ Prod.fst (fun h block ↦ compress h (words block))
    (by omega) (fun _ _ _ ↦ rfl) (initial, 0) (pad message)
  rw [hashValue, hmap, pad, List.append_assoc, absorb_append (by omega), List.append_assoc]

section Tail

variable {message : Bytes} {p : Vector UInt32 5 × ℕ} {tail : Bytes}

/-- The end of a message fits into a block with the length. -/
theorem hashValue_of_short (h : absorb 64 counted (initial, 0) message = (p, tail))
    (htail : tail.length < 56) : hashValue message =
      (compress p.1 (words (tail ++ 0x80 :: List.replicate (55 - tail.length) 0 ++
        bigEndian 8 (8 * message.length)))).toList.flatMap fun word ↦ bigEndian 4 word.toNat := by
  have hlength := length_counted message
  rw [h] at hlength
  have hzeros : (119 - message.length % 64) % 64 = 55 - tail.length := by
    dsimp only at hlength
    omega
  rw [hashValue_eq, h, hzeros]
  dsimp only
  have hfull : (tail ++ 0x80 :: List.replicate (55 - tail.length) 0 ++
      bigEndian 8 (8 * message.length)).length = 64 := by
    simp only [List.length_append, List.length_cons, List.length_replicate, length_bigEndian]
    omega
  rw [← List.append_nil (tail ++ _ ++ _), absorb_block (by omega) hfull,
    absorb_of_lt (by decide : ([] : Bytes).length < 64), List.append_nil]
  rfl

/-- The length takes a block of its own. -/
theorem hashValue_of_long (h : absorb 64 counted (initial, 0) message = (p, tail))
    (htail : 56 ≤ tail.length) (hlt : tail.length < 64) : hashValue message =
      (compress (compress p.1 (words (tail ++ 0x80 :: List.replicate (63 - tail.length) 0)))
        (words (List.replicate 56 0 ++ bigEndian 8 (8 * message.length)))).toList.flatMap
          fun word ↦ bigEndian 4 word.toNat := by
  have hlength := length_counted message
  rw [h] at hlength
  have hzeros : (119 - message.length % 64) % 64 = (63 - tail.length) + 56 := by
    dsimp only at hlength
    omega
  have hsplit : tail ++ 0x80 :: List.replicate ((63 - tail.length) + 56) 0 ++
      bigEndian 8 (8 * message.length) = tail ++ 0x80 :: List.replicate (63 - tail.length) 0 ++
        (List.replicate 56 0 ++ bigEndian 8 (8 * message.length)) := by
    rw [List.replicate_add]
    simp only [List.append_assoc, List.cons_append]
  have hfirst : (tail ++ 0x80 :: List.replicate (63 - tail.length) 0).length = 64 := by
    simp only [List.length_append, List.length_cons, List.length_replicate]
    omega
  have hlast : (List.replicate 56 0 ++ bigEndian 8 (8 * message.length)).length = 64 := by
    rw [List.length_append, List.length_replicate, length_bigEndian]
  rw [hashValue_eq, h, hzeros]
  dsimp only
  rw [hsplit, absorb_block (by omega) hfirst, ← List.append_nil (List.replicate 56 0 ++ _),
    absorb_block (by omega) hlast, absorb_of_lt (by decide : ([] : Bytes).length < 64),
    List.append_nil]
  rfl

end Tail

end SecureHash
