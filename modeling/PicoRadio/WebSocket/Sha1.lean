import Mathlib.Tactic.FinCases
import PicoRadio.WebSocket.Handshake
import PicoRadio.Library.SecureHash

/-!
# The digest

`SHA1` takes strings in any number of pieces and keeps what does not make a block. `transform` is
unrolled: its calls pass the five working variables around instead of moving their values, and the
message schedule overwrites the sixteen words of the block.

`transform_eq` says that this is the compression of the standard, `run_eq` that an object gives the
hash values of the standard in any sequence of calls.

## Variables that stay in place

The standard moves five values along in each round. The source leaves them where they are and names
them anew: in round `t` the variable with role `j` is the one with the number `j - t` modulo 5. The
words of the schedule are treated in the same way, with sixteen places. `Before` states both for the
beginning of a round, and one step (`Before.next`) does for all eighty rounds.
-/

namespace WebSockets

open SecureHash

namespace SHA1

def BLOCK_INTS : ℕ := 16

def BLOCK_BYTES : ℕ := 64

/-- A rotation to the left. -/
def rol (value bits : UInt32) : UInt32 :=
  value <<< bits ||| value >>> (32 - bits)

/-- The bits `& 15` of a sum are the sum of indices. -/
def blk (block : Vector UInt32 16) (i : Fin 16) : UInt32 :=
  rol (block[i + 13] ^^^ block[i + 8] ^^^ block[i + 2] ^^^ block[i]) 1

/-! ### The rounds -/

/-- A working variable, passed by reference. -/
abbrev Var := Fin 5

namespace Var

def a : Var := 0

def b : Var := 1

def c : Var := 2

def d : Var := 3

def e : Var := 4

end Var

/-- What the rounds work on. -/
structure Working where
  var : Vector UInt32 5
  block : Vector UInt32 16
  deriving DecidableEq, Repr

/-- `block[i] = blk(block, i);` -/
def Working.expand (i : Fin 16) (s : Working) : Working :=
  { s with block := s.block.set i (blk s.block i) }

/-- `z += f(w, x, y) + block[i] + k + rol(v, 5); w = rol(w, 30);` -/
def Working.mix (f : UInt32 → UInt32 → UInt32 → UInt32) (k : UInt32) (v w x y z : Var) (i : Fin 16)
    (s : Working) : Working :=
  let sum := s.var[z] + (f s.var[w] s.var[x] s.var[y] + s.block[i] + k + rol s.var[v] 5)
  { s with var := (s.var.set z sum).set w (rol s.var[w] 30) }

/-- `R0`, for rounds 0 to 15. -/
def R0 (v w x y z : Var) (i : Fin 16) (s : Working) : Working :=
  s.mix (fun w x y ↦ (w &&& (x ^^^ y)) ^^^ y) 0x5a827999 v w x y z i

/-- `R1`, for rounds 16 to 19. -/
def R1 (v w x y z : Var) (i : Fin 16) (s : Working) : Working :=
  (s.expand i).mix (fun w x y ↦ (w &&& (x ^^^ y)) ^^^ y) 0x5a827999 v w x y z i

/-- `R2`, for rounds 20 to 39. -/
def R2 (v w x y z : Var) (i : Fin 16) (s : Working) : Working :=
  (s.expand i).mix (fun w x y ↦ w ^^^ x ^^^ y) 0x6ed9eba1 v w x y z i

/-- `R3`, for rounds 40 to 59. -/
def R3 (v w x y z : Var) (i : Fin 16) (s : Working) : Working :=
  (s.expand i).mix (fun w x y ↦ ((w ||| x) &&& y) ||| (w &&& x)) 0x8f1bbcdc v w x y z i

/-- `R4`, for rounds 60 to 79. -/
def R4 (v w x y z : Var) (i : Fin 16) (s : Working) : Working :=
  (s.expand i).mix (fun w x y ↦ w ^^^ x ^^^ y) 0xca62c1d6 v w x y z i

open Var in
/-- The calls of `transform`, one after another. -/
def calls : List (Working → Working) :=
  [R0 a b c d e 0, R0 e a b c d 1, R0 d e a b c 2, R0 c d e a b 3, R0 b c d e a 4,
    R0 a b c d e 5, R0 e a b c d 6, R0 d e a b c 7, R0 c d e a b 8, R0 b c d e a 9,
    R0 a b c d e 10, R0 e a b c d 11, R0 d e a b c 12, R0 c d e a b 13, R0 b c d e a 14,
    R0 a b c d e 15, R1 e a b c d 0, R1 d e a b c 1, R1 c d e a b 2, R1 b c d e a 3,
    R2 a b c d e 4, R2 e a b c d 5, R2 d e a b c 6, R2 c d e a b 7, R2 b c d e a 8,
    R2 a b c d e 9, R2 e a b c d 10, R2 d e a b c 11, R2 c d e a b 12, R2 b c d e a 13,
    R2 a b c d e 14, R2 e a b c d 15, R2 d e a b c 0, R2 c d e a b 1, R2 b c d e a 2,
    R2 a b c d e 3, R2 e a b c d 4, R2 d e a b c 5, R2 c d e a b 6, R2 b c d e a 7,
    R3 a b c d e 8, R3 e a b c d 9, R3 d e a b c 10, R3 c d e a b 11, R3 b c d e a 12,
    R3 a b c d e 13, R3 e a b c d 14, R3 d e a b c 15, R3 c d e a b 0, R3 b c d e a 1,
    R3 a b c d e 2, R3 e a b c d 3, R3 d e a b c 4, R3 c d e a b 5, R3 b c d e a 6,
    R3 a b c d e 7, R3 e a b c d 8, R3 d e a b c 9, R3 c d e a b 10, R3 b c d e a 11,
    R4 a b c d e 12, R4 e a b c d 13, R4 d e a b c 14, R4 c d e a b 15, R4 b c d e a 0,
    R4 a b c d e 1, R4 e a b c d 2, R4 d e a b c 3, R4 c d e a b 4, R4 b c d e a 5,
    R4 a b c d e 6, R4 e a b c d 7, R4 d e a b c 8, R4 c d e a b 9, R4 b c d e a 10,
    R4 a b c d e 11, R4 e a b c d 12, R4 d e a b c 13, R4 c d e a b 14, R4 b c d e a 15]

/-- Hash a single 512-bit block. The block is overwritten. -/
def transform (digest : Vector UInt32 5) (block : Vector UInt32 16) :
    Vector UInt32 5 × Vector UInt32 16 :=
  let s := calls.foldl (fun s call ↦ call s) { var := digest, block }
  (digest.zipWith (· + ·) s.var, s.block)

/-- Convert the byte buffer to words. -/
def buffer_to_block (buffer : Str) : Vector UInt32 16 :=
  .ofFn fun i ↦
    (buffer.getD (4 * i + 3) 0).toUInt32 ||| (buffer.getD (4 * i + 2) 0).toUInt32 <<< 8 |||
      (buffer.getD (4 * i + 1) 0).toUInt32 <<< 16 ||| (buffer.getD (4 * i) 0).toUInt32 <<< 24

end SHA1

/-! ### The object -/

/-- The initialization constants. -/
def SHA1.constants : Array UInt32 :=
  #[0x67452301, 0xefcdab89, 0x98badcfe, 0x10325476, 0xc3d2e1f0]

/-- An object that takes strings. Between two calls its buffer is not full. -/
structure SHA1 where
  digest : Vector UInt32 5 := ⟨SHA1.constants, rfl⟩
  buffer : Str := []
  transforms : UInt64 := 0
  notFull : buffer.length < SHA1.BLOCK_BYTES := by decide

namespace SHA1

/-- What is copied into the buffer fits. -/
theorem length_copied_le (sha : SHA1) (s : Str) :
    (sha.buffer ++ s.take (BLOCK_BYTES - sha.buffer.length)).length ≤ BLOCK_BYTES := by
  have hfull := sha.notFull
  rw [List.length_append, List.length_take]
  omega

/-- Something is copied before the buffer is full. -/
theorem length_copied_pos (sha : SHA1) (s : Str)
    (h : ¬(sha.buffer ++ s.take (BLOCK_BYTES - sha.buffer.length)).length ≠ BLOCK_BYTES) :
    0 < (s.take (BLOCK_BYTES - sha.buffer.length)).length := by
  have hfull := sha.notFull
  rw [Decidable.not_not, List.length_append] at h
  omega

/-- `update`, from `pos` on. -/
def updateFrom (s : Str) (pos : ℕ) (sha : SHA1) : SHA1 :=
  let len := BLOCK_BYTES - sha.buffer.length
  let copied := (s.drop pos).take len
  let buffer := sha.buffer ++ copied
  if h : buffer.length ≠ BLOCK_BYTES then
    { sha with buffer, notFull := lt_of_le_of_ne (sha.length_copied_le _) h }
  else
    updateFrom s (pos + copied.length)
      { digest := (transform sha.digest (buffer_to_block buffer)).1
        transforms := sha.transforms + 1 }
termination_by s.length - pos
decreasing_by
  have hpos := sha.length_copied_pos _ h
  rw [List.length_take, List.length_drop] at hpos ⊢
  omega

def update (s : Str) (sha : SHA1) : SHA1 :=
  sha.updateFrom s 0

/-- `htonl` on a machine that stores the low byte first. -/
def htonl (word : UInt32) : UInt32 :=
  (ofBigEndian (littleEndian 4 word.toNat)).toUInt32

/-- The bytes of the words as they lie in memory. -/
def memory (digest : Vector UInt32 5) : Bytes :=
  digest.toList.flatMap fun word ↦ littleEndian 4 word.toNat

/-- Add padding and return the message digest, in base64. The object is reset. -/
def final (sha : SHA1) : Str × SHA1 :=
  let total_bits := (sha.transforms * 64 + sha.buffer.length.toUInt64) * 8
  let buffer := sha.buffer ++ [0x80]
  let orig_size := buffer.length
  let block := buffer_to_block (buffer ++ List.replicate (BLOCK_BYTES - buffer.length) 0)
  let r :=
    if orig_size > BLOCK_BYTES - 8 then
      let t := transform sha.digest block
      (t.1, .ofFn fun i : Fin 16 ↦ if i.val < BLOCK_INTS - 2 then 0 else t.2[i])
    else (sha.digest, block)
  let block := (r.2.set (BLOCK_INTS - 1) total_bits.toUInt32 (by decide)).set (BLOCK_INTS - 2)
    (total_bits >>> 32).toUInt32 (by decide)
  let digest := (transform r.1 block).1
  (base64_encode (memory (digest.map htonl)), {})

/-! ### The compression -/

/-- Round `t`: the roles move along the variables, the words along the block. -/
def roundAt (t : ℕ) : Working → Working :=
  let p : Var := Fin.ofNat 5 t
  let r := if t < 16 then R0 else if t < 20 then R1 else if t < 40 then R2
    else if t < 60 then R3 else R4
  r (0 - p) (1 - p) (2 - p) (3 - p) (4 - p) (Fin.ofNat 16 t)

/-- `mix` with the roles, the function and the constant of round `t`. -/
def Working.mixAt (t : ℕ) (s : Working) : Working :=
  s.mix (roundFunction t) (roundConstant t) (0 - Fin.ofNat 5 t) (1 - Fin.ofNat 5 t)
    (2 - Fin.ofNat 5 t) (3 - Fin.ofNat 5 t) (4 - Fin.ofNat 5 t) (Fin.ofNat 16 t)

/-- The unrolled rounds. -/
theorem calls_eq : calls = (List.range 80).map roundAt := rfl

/-- The rotation of the schedule. -/
theorem rol_one (x : UInt32) : rol x 1 = rotl 1 x := rfl

/-- The choice with one operation less. -/
theorem choose_eq : (fun w x y ↦ (w &&& (x ^^^ y)) ^^^ y) = ch := by
  funext x y z
  rw [ch, ← UInt32.toBitVec_inj]
  simp only [UInt32.toBitVec_xor, UInt32.toBitVec_and, UInt32.toBitVec_not]
  ext i hi
  simp only [BitVec.getElem_xor, BitVec.getElem_and, BitVec.getElem_not]
  cases x.toBitVec[i] <;> simp

/-- The majority with other operations. -/
theorem majority_eq : (fun w x y ↦ ((w ||| x) &&& y) ||| (w &&& x)) = maj := by
  funext x y z
  rw [maj, ← UInt32.toBitVec_inj]
  simp only [UInt32.toBitVec_xor, UInt32.toBitVec_and, UInt32.toBitVec_or]
  ext i hi
  simp only [BitVec.getElem_xor, BitVec.getElem_and, BitVec.getElem_or]
  cases x.toBitVec[i] <;> cases y.toBitVec[i] <;> simp

/-- The variable that is set, and the others. -/
theorem get_set {α : Type} {n : ℕ} (v : Vector α n) (i j : Fin n) (x : α) :
    (v.set i x)[j] = if i = j then x else v[j] := by
  simp only [Fin.getElem_fin, Vector.getElem_set, Fin.ext_iff]

/-- Vectors with the same entries. -/
theorem eq_of_get {α : Type} {n : ℕ} {u v : Vector α n} (h : ∀ j : Fin n, u[j] = v[j]) : u = v :=
  Vector.ext fun i hi ↦ h ⟨i, hi⟩

/-- One round with the roles at `p`. -/
theorem mix_var {f : UInt32 → UInt32 → UInt32 → UInt32} {k w : UInt32} {p q : Var} {i : Fin 16}
    {s : Working} {r : Vector UInt32 5} (hvar : ∀ j : Var, s.var[j - p] = r[j])
    (hblock : s.block[i] = w) (hq : q = p + 1) (j : Var) :
    (s.mix f k (0 - p) (1 - p) (2 - p) (3 - p) (4 - p) i).var[j - q] =
      #v[rotl 5 r[(0 : Var)] + f r[(1 : Var)] r[(2 : Var)] r[(3 : Var)] + r[(4 : Var)] + k + w,
        r[(0 : Var)], rotl 30 r[(1 : Var)], r[(2 : Var)], r[(3 : Var)]][j] := by
  subst hq
  -- the source adds the summands in another order
  have hsum : s.var[4 - p] + (f s.var[1 - p] s.var[2 - p] s.var[3 - p] + s.block[i] + k +
      rol s.var[0 - p] 5) = rotl 5 r[0] + f r[1] r[2] r[3] + r[4] + k + w := by
    rw [hvar 0, hvar 1, hvar 2, hvar 3, hvar 4, hblock]
    calc r[4] + (f r[1] r[2] r[3] + w + k + rotl 5 r[0])
        = r[4] + (rotl 5 r[0] + (f r[1] r[2] r[3] + (k + w))) := by
          rw [UInt32.add_comm _ (rotl 5 r[0]), UInt32.add_assoc _ w k, UInt32.add_comm w k]
      _ = rotl 5 r[0] + f r[1] r[2] r[3] + (k + w) + r[4] := by
          rw [UInt32.add_comm r[4], ← UInt32.add_assoc (rotl 5 r[0])]
      _ = rotl 5 r[0] + f r[1] r[2] r[3] + r[4] + (k + w) := by
          rw [UInt32.add_assoc _ (k + w), UInt32.add_comm (k + w), UInt32.add_assoc _ r[4]]
      _ = rotl 5 r[0] + f r[1] r[2] r[3] + r[4] + k + w := (UInt32.add_assoc _ k w).symm
  -- the roles move by one: two variables change, and the others change their roles only
  have hfirst : ∀ p j : Var, (4 - p = j - (p + 1)) = (j = 0) := by decide
  have hthird : ∀ p j : Var, (1 - p = j - (p + 1)) = (j = 2) := by decide
  have hothers : ∀ p j : Var, j - (p + 1) = j - 1 - p := by decide
  rw [Working.mix]
  dsimp only
  rw [hsum, hvar 1, get_set, get_set]
  simp only [hfirst, hthird]
  rw [hothers, hvar]
  fin_cases j <;> rfl

/-- The state before round `t`. -/
structure Before (digest : Vector UInt32 5) (block : Vector UInt32 16) (t : ℕ) (s : Working) :
    Prop where
  var : ∀ j : Var, s.var[j - Fin.ofNat 5 t] = (rounds block digest t)[j]
  block : Window (schedule block) (t - 16) s.block

variable {digest : Vector UInt32 5} {block : Vector UInt32 16} {t : ℕ} {s : Working}

/-- The next place, around the end. -/
theorem ofNat_succ (n t : ℕ) [NeZero n] : Fin.ofNat n (t + 1) = Fin.ofNat n t + 1 := by
  ext
  simp [Fin.val_add]

/-- A round, once the word is in its place. -/
theorem before_mix (hvar : ∀ j : Var, s.var[j - Fin.ofNat 5 t] = (rounds block digest t)[j])
    (hw : s.block[Fin.ofNat 16 t] = schedule block t)
    (hblock : Window (schedule block) (t + 1 - 16) s.block) :
    Before digest block (t + 1) (s.mixAt t) where
  var := mix_var hvar hw (ofNat_succ 5 t)
  block := hblock

/-- The next word of the schedule takes the place of the one that is not needed any more. -/
theorem Before.expand (h : Before digest block t s) (ht : 16 ≤ t) :
    Window (schedule block) (t + 1 - 16) (s.expand (Fin.ofNat 16 t)).block := by
  obtain ⟨u, rfl⟩ := Nat.exists_eq_add_of_le' ht
  have hwindow := h.block
  rw [Nat.add_sub_cancel] at hwindow
  have hindex : Fin.ofNat 16 (u + 16) = Fin.ofNat 16 u := Fin.ext (Nat.add_mod_right u 16)
  have hadd : ∀ j : ℕ, Fin.ofNat 16 u + Fin.ofNat 16 j = Fin.ofNat 16 (u + j) := fun j ↦
    Fin.ext (Nat.add_mod u j 16).symm
  -- the four words that the next one is made of are still in the window
  have hblk : blk s.block (Fin.ofNat 16 u) = schedule block (u + 16) := by
    rw [schedule_add, ← hwindow (u + 13) (by omega) (by omega),
      ← hwindow (u + 8) (by omega) (by omega), ← hwindow (u + 2) (by omega) (by omega),
      ← hwindow u (by omega) (by omega), ← rol_one, blk]
    simp only [← hadd]
    rfl
  rw [Working.expand, hindex, hblk, Nat.add_right_comm, Nat.add_sub_cancel]
  exact hwindow.set

/-- A round with a word of the block. -/
theorem roundAt_of_lt (ht : t < 16) (s : Working) : roundAt t s = s.mixAt t := by
  rw [roundAt, if_pos ht, Working.mixAt, roundFunction, roundConstant, if_pos (by omega),
    if_pos (by omega), ← choose_eq]
  rfl

/-- A round with a word that is made first. -/
theorem roundAt_of_le (ht : 16 ≤ t) (s : Working) :
    roundAt t s = (s.expand (Fin.ofNat 16 t)).mixAt t := by
  rw [roundAt, if_neg (by omega), Working.mixAt, roundFunction, roundConstant, ← choose_eq,
    ← majority_eq]
  split
  · rfl
  · split
    · rfl
    · split
      · rfl
      · rfl

/-- Each round is one of the standard. -/
theorem Before.next (h : Before digest block t s) : Before digest block (t + 1) (roundAt t s) := by
  -- the first sixteen words are those of the block, the others are expanded on the way
  rcases Nat.lt_or_ge t 16 with hlt | hge
  · have hwindow := h.block
    rw [Nat.sub_eq_zero_of_le hlt.le] at hwindow
    have hzero : t + 1 - 16 = 0 := Nat.sub_eq_zero_of_le hlt
    rw [roundAt_of_lt hlt]
    exact before_mix h.var (hwindow t (Nat.zero_le t) (by omega)) (by rwa [hzero])
  · have hwindow := h.expand hge
    rw [roundAt_of_le hge]
    exact before_mix h.var (hwindow t (by omega) (by omega)) hwindow

/-- The state that the rounds start from. -/
theorem before_zero (digest : Vector UInt32 5) (block : Vector UInt32 16) :
    Before digest block 0 { var := digest, block } where
  var j := by
    have hj : ∀ j : Var, j - Fin.ofNat 5 0 = j := by decide
    simp only [hj]
    rfl
  block := window_schedule block

/-- After so many rounds. -/
theorem before_foldl (digest : Vector UInt32 5) (block : Vector UInt32 16) (t : ℕ) :
    Before digest block t
      (((List.range t).map roundAt).foldl (fun s call ↦ call s) { var := digest, block }) := by
  -- on the number of rounds that are done
  induction t with
  | zero => exact before_zero digest block
  | succ t ih =>
    rw [List.range_succ, List.map_append, List.foldl_append]
    exact ih.next

/-- `transform` compresses the block as the standard does. -/
theorem transform_eq (digest : Vector UInt32 5) (block : Vector UInt32 16) :
    (transform digest block).1 = compress digest block := by
  have hvar := (before_foldl digest block 80).var
  have hj : ∀ j : Var, j - Fin.ofNat 5 80 = j := by decide
  rw [← calls_eq] at hvar
  simp only [hj] at hvar
  rw [transform, compress, ← eq_of_get hvar]

/-! ### The bytes -/

/-- Bits that a shift has made room for. -/
theorem or_shiftLeft {m i : ℕ} (n : ℕ) (h : m < 2 ^ i) : m ||| n <<< i = n * 2 ^ i + m := by
  rw [Nat.or_comm, ← Nat.shiftLeft_add_eq_or_of_lt h, Nat.shiftLeft_eq]

/-- A byte that is shifted stays within the word. -/
theorem toNat_shiftLeft_byte (b : UInt8) {i : ℕ} (hi : i ≤ 24) :
    b.toNat <<< i % 2 ^ 32 = b.toNat <<< i := by
  have hpow := Nat.pow_le_pow_right (by omega : 0 < 2) hi
  refine Nat.mod_eq_of_lt ?_
  rw [Nat.shiftLeft_eq]
  exact Nat.lt_of_lt_of_le (Nat.mul_lt_mul_of_lt_of_le b.toNat_lt hpow (by omega)) (by omega)

/-- Four bytes of a buffer are a word, the first one high. -/
theorem or_bytes (a b c d : UInt8) :
    d.toUInt32 ||| c.toUInt32 <<< 8 ||| b.toUInt32 <<< 16 ||| a.toUInt32 <<< 24 =
      (ofBigEndian [a, b, c, d]).toUInt32 := by
  have ha := a.toNat_lt
  have hb := b.toNat_lt
  have hc := c.toNat_lt
  have hd := d.toNat_lt
  rw [← UInt32.toNat_inj]
  simp only [UInt32.toNat_or, UInt32.toNat_shiftLeft, UInt8.toNat_toUInt32]
  show d.toNat ||| c.toNat <<< 8 % 2 ^ 32 ||| b.toNat <<< 16 % 2 ^ 32 |||
    a.toNat <<< 24 % 2 ^ 32 = _
  rw [toNat_shiftLeft_byte c (by omega), toNat_shiftLeft_byte b (by omega),
    toNat_shiftLeft_byte a (by omega), or_shiftLeft _ hd,
    or_shiftLeft (i := 16) _ (by omega), or_shiftLeft (i := 24) _ (by omega), ofBigEndian,
    Nat.toUInt32, UInt32.toNat_ofNat']
  simp only [List.foldl_cons, List.foldl_nil]
  omega

/-- The words of a full buffer. -/
theorem buffer_to_block_eq {buffer : Str} (h : buffer.length = BLOCK_BYTES) :
    buffer_to_block buffer = words buffer := by
  rw [BLOCK_BYTES] at h
  refine Vector.ext fun i hi ↦ ?_
  have htake : (buffer.drop (4 * i)).take 4 =
      [buffer[4 * i], buffer[4 * i + 1], buffer[4 * i + 2], buffer[4 * i + 3]] := by
    rw [List.drop_eq_getElem_cons (by omega), List.drop_eq_getElem_cons (by omega),
      List.drop_eq_getElem_cons (by omega), List.drop_eq_getElem_cons (by omega)]
    rfl
  simp only [buffer_to_block, words, Vector.getElem_ofFn]
  rw [htake, ← or_bytes]
  simp only [List.getD_eq_getElem?_getD]
  rw [List.getElem?_eq_getElem (by omega), List.getElem?_eq_getElem (by omega),
    List.getElem?_eq_getElem (by omega), List.getElem?_eq_getElem (by omega)]
  rfl

/-- In memory the word lies with its high byte first. -/
theorem htonl_memory (w : UInt32) : littleEndian 4 (htonl w).toNat = bigEndian 4 w.toNat := by
  have hlt : ofBigEndian (littleEndian 4 w.toNat) < 2 ^ 32 := by
    have h := ofBigEndian_lt (littleEndian 4 w.toNat)
    rw [length_littleEndian] at h
    omega
  rw [htonl, Nat.toUInt32, UInt32.toNat_ofNat', Nat.mod_eq_of_lt hlt, littleEndian]
  have hbytes := bigEndian_ofBigEndian (littleEndian 4 w.toNat)
  rw [length_littleEndian] at hbytes
  rw [hbytes, littleEndian, List.reverse_reverse]

/-! ### The object and the hash values -/

/-- The object after this message, however it was divided. -/
structure Took (message : Str) (sha : SHA1) : Prop where
  digest : sha.digest = (absorb BLOCK_BYTES counted (initial, 0) message).1.1
  transforms : sha.transforms = (absorb BLOCK_BYTES counted (initial, 0) message).1.2.toUInt64
  buffer : sha.buffer = (absorb BLOCK_BYTES counted (initial, 0) message).2

/-- A block is taken as `transform` and the counter take it. -/
def taken (s : Vector UInt32 5 × UInt64) (block : Str) : Vector UInt32 5 × UInt64 :=
  ((transform s.1 (buffer_to_block block)).1, s.2 + 1)

/-- The loop of `update`. -/
theorem updateFrom_eq (s : Str) (pos : ℕ) (sha : SHA1) :
    (((sha.updateFrom s pos).digest, (sha.updateFrom s pos).transforms),
      (sha.updateFrom s pos).buffer) =
      absorb BLOCK_BYTES taken (sha.digest, sha.transforms) (sha.buffer ++ s.drop pos) := by
  induction pos, sha using updateFrom.induct s with
  | case1 pos sha len copied buffer h =>
    have hroom := lt_of_le_of_ne (sha.length_copied_le (s.drop pos)) h
    have hshort : (s.drop pos).take (BLOCK_BYTES - sha.buffer.length) = s.drop pos := by
      refine List.take_of_length_le ?_
      rw [List.length_append, List.length_take] at hroom
      omega
    have hlt : (sha.buffer ++ s.drop pos).length < BLOCK_BYTES := by rwa [hshort] at hroom
    rw [absorb_of_lt hlt, updateFrom, dif_pos h]
    exact congrArg _ (congrArg _ hshort)
  | case2 pos sha len copied buffer h ih =>
    have hlength : copied.length = len := by
      have hpos := sha.notFull
      have hfull : buffer.length = BLOCK_BYTES := Decidable.not_not.mp h
      rw [List.length_append] at hfull
      omega
    have hdrop : buffer ++ s.drop (pos + copied.length) = sha.buffer ++ s.drop pos := by
      rw [hlength, ← List.drop_drop, List.append_assoc, List.take_append_drop]
    rw [← hdrop, absorb_block (by decide) (Decidable.not_not.mp h), updateFrom,
      dif_neg h]
    exact ih

/-- A new object has taken nothing. -/
theorem took_nil : Took [] {} where
  digest := by
    rw [absorb_of_lt (by decide)]
    rfl
  transforms := by
    rw [absorb_of_lt (by decide)]
    rfl
  buffer := by rw [absorb_of_lt (by decide)]

variable {message : Str} {sha : SHA1}

/-- It makes no difference how a message is divided. -/
theorem Took.update (h : Took message sha) (s : Str) : Took (message ++ s) (sha.update s) := by
  have hmap := @absorb_map _ _ BLOCK_BYTES counted _ (Prod.map id Nat.toUInt64) taken (by decide)
    (fun p b hb ↦ by
      rw [taken, counted, transform_eq, buffer_to_block_eq hb]
      exact congrArg _ (UInt64.ofNat_add _ 1).symm)
  have hupdate := updateFrom_eq s 0 sha
  rw [List.drop_zero, h.digest, h.transforms, h.buffer] at hupdate
  have htook := hupdate.trans (hmap _ _)
  rw [← absorb_append (by decide)] at htook
  exact ⟨congrArg (·.1.1) htook, congrArg (·.1.2) htook, congrArg Prod.snd htook⟩

/-- The bits are counted modulo the range of the counter. -/
theorem Took.total_bits (h : Took message sha) :
    (sha.transforms * 64 + sha.buffer.length.toUInt64) * 8 = (8 * message.length).toUInt64 := by
  have hlength := length_counted message
  rw [h.transforms, h.buffer, BLOCK_BYTES, ← hlength]
  simp only [Nat.toUInt64]
  rw [UInt64.ofNat_mul, UInt64.ofNat_add, UInt64.ofNat_mul, UInt64.mul_comm (UInt64.ofNat 8),
    UInt64.mul_comm (UInt64.ofNat 64)]
  rfl

/-- The bytes of the digest come out with the high byte of each word first. -/
theorem memory_htonl (digest : Vector UInt32 5) :
    memory (digest.map htonl) = digest.toList.flatMap fun word ↦ bigEndian 4 word.toNat := by
  rw [memory, Vector.toList_map, List.flatMap_map]
  simp only [htonl_memory]

/-- The low word of the counter. -/
theorem toUInt32_toUInt64 (n : ℕ) : n.toUInt64.toUInt32 = n.toUInt32 := by
  rw [← UInt32.toNat_inj, UInt64.toNat_toUInt32]
  simp only [Nat.toUInt64, Nat.toUInt32, UInt64.toNat_ofNat', UInt32.toNat_ofNat']
  omega

/-- The high word of the counter. -/
theorem toUInt32_shiftRight (n : ℕ) : (n.toUInt64 >>> 32).toUInt32 = (n >>> 32).toUInt32 := by
  have hshift : (n.toUInt64 >>> 32).toNat = (n % 2 ^ 64) >>> 32 := by
    simp only [Nat.toUInt64, UInt64.toNat_shiftRight, UInt64.toNat_ofNat']
    rfl
  rw [← UInt32.toNat_inj, UInt64.toNat_toUInt32, hshift]
  simp only [Nat.toUInt32, UInt32.toNat_ofNat', Nat.shiftRight_eq_div_pow]
  omega

/-- `final` pads as the standard does. -/
theorem Took.final (h : Took message sha) :
    sha.final = (base64_encode (hashValue message), {}) := by
  have hfull := sha.notFull
  rw [BLOCK_BYTES] at hfull
  have habsorb : absorb 64 counted (initial, 0) message =
      ((sha.digest, (absorb 64 counted (initial, 0) message).1.2), sha.buffer) := by
    rw [h.digest, h.buffer]
    rfl
  have hbuffer : sha.buffer ++ [0x80] ++
      List.replicate (BLOCK_BYTES - (sha.buffer ++ [0x80]).length) 0 =
        sha.buffer ++ 0x80 :: List.replicate (63 - sha.buffer.length) 0 := by
    have hzeros : 64 - (sha.buffer.length + 1) = 63 - sha.buffer.length := by omega
    rw [List.append_assoc, List.length_append, BLOCK_BYTES, List.length_singleton, hzeros]
    rfl
  have hfill : (sha.buffer ++ 0x80 :: List.replicate (63 - sha.buffer.length) 0).length =
      BLOCK_BYTES := by
    simp only [BLOCK_BYTES, List.length_append, List.length_replicate, List.length_cons]
    omega
  rw [SHA1.final, h.total_bits, toUInt32_toUInt64, toUInt32_shiftRight]
  dsimp only [BLOCK_INTS]
  rw [memory_htonl, transform_eq, hbuffer, buffer_to_block_eq hfill, List.length_append,
    List.length_singleton]
  rcases Nat.lt_or_ge sha.buffer.length 56 with hlt | hge
  · have hp : (sha.buffer ++ 0x80 :: List.replicate (55 - sha.buffer.length) 0).length = 56 := by
      rw [List.length_append, List.length_cons, List.length_replicate]
      omega
    have hsplit : sha.buffer ++ 0x80 :: List.replicate (63 - sha.buffer.length) 0 =
        sha.buffer ++ 0x80 :: List.replicate (55 - sha.buffer.length) 0 ++ List.replicate 8 0 := by
      have hzeros : 63 - sha.buffer.length = 55 - sha.buffer.length + 8 := by omega
      rw [hzeros, List.replicate_add, List.append_assoc, List.cons_append]
    have hroom : ¬sha.buffer.length + 1 > BLOCK_BYTES - 8 := by
      rw [BLOCK_BYTES]
      omega
    rw [hashValue_of_short habsorb hlt, if_neg hroom, words_append_length hp]
    intro i hi
    rw [hsplit, getElem_words_append hp _ hi]
  · have hroom : sha.buffer.length + 1 > BLOCK_BYTES - 8 := by
      rw [BLOCK_BYTES]
      omega
    rw [hashValue_of_long habsorb hge hfull, if_pos hroom, transform_eq,
      words_append_length List.length_replicate]
    intro i hi
    have hzero : ((List.replicate 56 (0 : UInt8)).drop (4 * i)).take 4 = List.replicate 4 0 := by
      rw [List.drop_replicate, List.take_replicate, Nat.min_eq_left (by omega)]
    rw [Vector.getElem_ofFn, hzero]
    exact (if_pos hi).trans rfl

/-- A call of a method. -/
inductive Call
  | update (s : Str)
  | final

/-- What the calls of `final` give back. -/
def run : SHA1 → List Call → List Str
  | _, [] => []
  | sha, .update s :: calls => run (sha.update s) calls
  | sha, .final :: calls => sha.final.1 :: run sha.final.2 calls

/-- What they should give back, after this message. -/
def hashes : Str → List Call → List Str
  | _, [] => []
  | message, .update s :: calls => hashes (message ++ s) calls
  | message, .final :: calls => base64_encode (hashValue message) :: hashes [] calls

/-- Any sequence of calls gives the hash values. -/
theorem Took.run (h : Took message sha) (calls : List Call) :
    run sha calls = hashes message calls := by
  induction calls generalizing message sha with
  | nil => rfl
  | cons call calls ih =>
    cases call with
    | update s =>
      rw [SHA1.run, hashes]
      exact ih (h.update s)
    | final =>
      rw [SHA1.run, hashes, h.final]
      exact congrArg _ (ih took_nil)

/-- In any sequence of calls `final` gives the hash value of the strings since the last `final`,
which is that of the standard for their concatenation. -/
theorem run_eq (calls : List Call) : run {} calls = hashes [] calls :=
  took_nil.run calls

/-- The handshake hashes a string at once. -/
theorem sha1_eq (text : Str) : sha1 hashValue text = ((({} : SHA1).update text).final).1 := by
  rw [(took_nil.update text).final, List.nil_append, sha1]

example : (((({} : SHA1).update (ascii "a")).update (ascii "bc")).final).1 =
    ascii "qZk+NkcGgWq6PiVxeFDCbJzQ2J0=" := by
  decide +kernel

end SHA1

end WebSockets
