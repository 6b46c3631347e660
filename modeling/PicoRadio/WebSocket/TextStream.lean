import PicoRadio.Library.Lines
import PicoRadio.WebSocket.Socket
import PicoRadio.WebSocket.TcpClient

/-!
# Reading lines

`TextStream` reads a TCP connection line by line through a buffer of its own. Between two calls of
`readLine` the bytes from `end_` to `rend` are read but not yet handed out, and `rpos` is the place
where new data goes.

Where the unread bytes end within a line, `rpos` stays behind the last line that was handed out:
the next data is written over the unread bytes, and the line that is returned starts at the
beginning of the buffer.

## Where the next data goes

`Holds` describes the buffer: what was handed out, then the unread bytes. Between two calls the next
data goes to the end of what was handed out (`Loaded`). That does no harm if no bytes are unread, or
if there is a line break in them, for then the next call hands out a line without reading. In the
remaining case the unread bytes are overwritten.
-/

namespace WebSockets

open Lines Network

/-- `'\r'` -/
def CR : UInt8 := 13

/-- `'\n'` -/
def LF : UInt8 := 10

theorem isBreak_CR : isBreak CR LF CR = true := rfl

theorem isBreak_LF : isBreak CR LF LF = true := rfl

/-- Provides a way to use `std::string` with `TcpClient`. The cursors are never negative. -/
structure TextStream where
  source : TcpClient := {}
  /-- What `source` has not read yet. -/
  net : Network
  bufferSize : ℕ
  buffer : Bytes
  rpos : ℕ := 0
  rend : ℕ := 0
  rstart : ℕ := 0
  end_ : ℕ := 0
  deriving DecidableEq, Repr

/-- Shifts the data in a buffer by a signed offset. -/
def shift_buffer (buf : Bytes) (len : ℕ) (shift : ℤ) : Bytes :=
  let move (buf : Bytes) (i : ℕ) : Bytes :=
    if i + shift < len ∧ i + shift ≥ 0 then buf.set (i + shift).toNat (buf.getD i 0) else buf
  if shift < 0 then (List.range len).foldl move buf else (List.range len).reverse.foldl move buf

theorem length_shift_buffer (buf : Bytes) (len : ℕ) (shift : ℤ) :
    (shift_buffer buf len shift).length = buf.length := by
  have hmoves (is : List ℕ) : (is.foldl (fun (buf : Bytes) (i : ℕ) ↦
      if i + shift < len ∧ i + shift ≥ 0 then buf.set (i + shift).toNat (buf.getD i 0)
      else buf) buf).length = buf.length := by
    induction is generalizing buf with
    | nil => rfl
    | cons i is ih =>
      rw [List.foldl_cons, ih]
      split
      · rw [List.length_set]
      · rfl
  rw [shift_buffer]
  split
  · exact hmoves _
  · exact hmoves _

namespace TextStream

/-- A stream with the block that was allocated for its buffer. -/
def new (buffer : Bytes) (net : Network) : TextStream where
  net := net
  bufferSize := buffer.length
  buffer := buffer

/-- The bytes that are read and not handed out. -/
def unread (s : TextStream) : Bytes :=
  (s.buffer.take s.rend).drop s.end_

/-- `end` goes to the next line break, or to `rend`. -/
def scan (s : TextStream) : TextStream :=
  { s with end_ := s.end_ + (s.unread.takeWhile (!isBreak CR LF ·)).length }

/-- The line up to `end`, which stands at a line break. CR LF is one break, if both are there. -/
def takeLine (s : TextStream) : Str × TextStream :=
  let crlf := s.buffer.getD s.end_ 0 = CR ∧ s.end_ + 1 < s.rend ∧ s.buffer.getD (s.end_ + 1) 0 = LF
  let end_ := if crlf then s.end_ + 1 + 1 else s.end_ + 1
  ((s.buffer.take s.end_).drop s.rstart, { s with rpos := end_, rstart := end_, end_ })

/-- From the label `check_line` on: the next line, or what is done without one. -/
def checkLine (next : TextStream → Str × TextStream) (s : TextStream) : Str × TextStream :=
  if s.scan.end_ < s.rend then s.scan.takeLine else next s.scan

/-- `source->readBytes` has written `mem` to `buffer + rpos`. -/
def load (mem : Bytes) (net : Network) (s : TextStream) : TextStream :=
  { s with
    net
    buffer := s.buffer.take s.rpos ++ mem ++ s.buffer.drop (s.rpos + mem.length)
    rstart := 0
    rend := s.rpos + mem.length
    end_ := s.rpos }

/-- What a turn of the reading loop makes of the result of `readBytes`. -/
def afterRead (next : TextStream → Str × TextStream) (s : TextStream) :
    ReadResult × Network → Str × TextStream
  | (.bytes mem, net) => (s.load mem net).checkLine next
  | (.closed, net) => ([], { s with source := { connected := false }, net })
  | (_, net) => ([], { s with net })

/-- The reading loop for so many turns. -/
def readLoop : ℕ → TextStream → Str × TextStream
  | 0, s => ([], s)
  | n + 1, s =>
    if s.source.connected then
      s.afterRead (readLoop n) (s.net.readBytes (s.bufferSize - s.rpos))
    else ([], s)

/-- The reading loop. Every turn but the last has read something. -/
def readMore (s : TextStream) : Str × TextStream :=
  readLoop (s.net.left + 1) s

/-- Unread data is shifted to the start. -/
def rewind (s : TextStream) : TextStream :=
  { s with
    rpos := s.end_ - s.rstart
    buffer := shift_buffer s.buffer s.bufferSize (-s.rstart) }

/-- Reads a line from the `TcpClient`. -/
def readLine (s : TextStream) : Str × TextStream :=
  if s.end_ < s.rend then s.checkLine readMore else s.rewind.readMore

/-- What the call of `readLine` after so many others returns. -/
def lineAt : ℕ → TextStream → Str
  | 0, s => s.readLine.1
  | n + 1, s => lineAt n s.readLine.2

/-! ### The reading loop, turn by turn -/

theorem readLoop_of_not_connected {s : TextStream} (h : s.source.connected = false) (n : ℕ) :
    readLoop n s = ([], s) := by
  cases n with
  | zero => rfl
  | succ n => rw [readLoop, h, if_neg Bool.false_ne_true]

/-- A turn only depends on what the loop does with less to read. -/
theorem afterRead_congr {next next' : TextStream → Str × TextStream} {s : TextStream} {len : ℕ}
    (h : ∀ s' : TextStream, s'.net.left < s.net.left → next s' = next' s') :
    s.afterRead next (s.net.readBytes len) = s.afterRead next' (s.net.readBytes len) := by
  rcases Nat.eq_zero_or_pos len with rfl | hlen
  · rfl
  · rcases s.net.readBytes_spec hlen with ⟨mem, rest, hbs, hmem, hr⟩ | ⟨net', hr⟩ | ⟨_, -, hr⟩
    · have hless : (Network.mk rest s.net.arrivals.tail).left < s.net.left := by
        have hlen := congrArg List.length hbs
        have hpos := List.length_pos_iff.mpr hmem
        rw [List.length_append] at hlen
        rw [Network.left, Network.left, List.length_tail]
        dsimp only
        omega
      rw [hr, afterRead, afterRead, checkLine, checkLine, h _ hless]
    · rw [hr]
      rfl
    · rw [hr]
      rfl

/-- More turns than there is to read change nothing. -/
theorem readLoop_eq {n m : ℕ} {s : TextStream} (hn : s.net.left < n) (hm : s.net.left < m) :
    readLoop n s = readLoop m s := by
  induction n generalizing m s with
  | zero => exact absurd hn (Nat.not_lt_zero _)
  | succ n ih =>
    obtain ⟨m, rfl⟩ := Nat.exists_eq_add_one_of_ne_zero (Nat.ne_zero_of_lt hm)
    rw [readLoop, readLoop]
    congr 1
    exact afterRead_congr fun s' hless ↦ ih (by omega) (by omega)

theorem readMore_of_not_connected {s : TextStream} (h : s.source.connected = false) :
    s.readMore = ([], s) :=
  readLoop_of_not_connected h _

/-- After a turn the loop goes on as it would start there. -/
theorem readMore_turn {s : TextStream} (h : s.source.connected = true) :
    s.readMore = s.afterRead readMore (s.net.readBytes (s.bufferSize - s.rpos)) := by
  rw [readMore, readLoop, if_pos h]
  exact afterRead_congr fun s' hless ↦ readLoop_eq hless (Nat.lt_succ_self _)

/-! ### The unread bytes -/

/-- The buffer up to `rend`: what was handed out or is no longer used, and the unread bytes. -/
structure Holds (s : TextStream) (before unread : Bytes) : Prop where
  buffer : ∃ free, s.buffer = before ++ (unread ++ free)
  end_ : s.end_ = before.length
  rend : s.rend = before.length + unread.length

namespace Holds

variable {s : TextStream} {before unread : Bytes}

theorem unread_eq (h : s.Holds before unread) : s.unread = unread := by
  obtain ⟨free, hbuffer⟩ := h.buffer
  rw [TextStream.unread, hbuffer, h.end_, h.rend, ← List.append_assoc, ← List.length_append,
    List.take_left, List.drop_left]

theorem end_lt_iff (h : s.Holds before unread) : s.end_ < s.rend ↔ unread ≠ [] := by
  rw [h.end_, h.rend, ← List.length_pos_iff]
  omega

/-- Without a line break `end` goes to `rend`. -/
theorem checkLine_of_noBreak (h : s.Holds before unread) (hu : NoBreak CR LF unread)
    (next : TextStream → Str × TextStream) :
    s.checkLine next = next { s with end_ := s.rend } := by
  have htake : unread.takeWhile (!isBreak CR LF ·) = unread := by
    rw [List.takeWhile_eq_self_iff]
    intro b hb
    rw [hu b hb]
    rfl
  have hscan : s.scan = { s with end_ := s.rend } := by
    rw [scan, h.unread_eq, htake, h.end_, h.rend]
  rw [checkLine, hscan, if_neg (lt_irrefl _)]

/-- At a line break the line is handed out, and `end` goes behind the break. -/
theorem checkLine_of_nextLine (h : s.Holds before unread) {l rest : Bytes}
    (hl : nextLine CR LF unread = some (l, rest)) (next : TextStream → Str × TextStream) :
    ∃ broken, broken ++ rest = unread ∧ ¬NoBreak CR LF broken ∧
      s.checkLine next = (((before ++ l).drop s.rstart), { s with
        rpos := (before ++ broken).length
        rstart := (before ++ broken).length
        end_ := (before ++ broken).length }) := by
  obtain ⟨b, tail, rfl, hnb, hb, rfl⟩ := nextLine_eq_some.mp hl
  obtain ⟨free, hbuffer⟩ := h.buffer
  have hscan : s.scan = { s with end_ := (before ++ l).length } := by
    rw [scan, h.unread_eq, takeWhile_of_break hnb hb, h.end_, List.length_append]
  have hrend : s.rend = (before ++ l).length + (tail.length + 1) := by
    rw [h.rend]
    simp only [List.length_append, List.length_cons]
    omega
  have hpast : s.buffer = (before ++ l) ++ (b :: tail ++ free) := by
    rw [hbuffer]
    simp only [List.append_assoc]
  have hat (i : ℕ) : s.buffer.getD ((before ++ l).length + i) 0 = (b :: tail ++ free).getD i 0 := by
    rw [hpast, List.getD_eq_getElem?_getD, List.getElem?_append_right (Nat.le_add_right _ _),
      Nat.add_sub_cancel_left, List.getD_eq_getElem?_getD]
  -- the break in the buffer is the one at the end of the line
  have hcrlf : (s.buffer.getD (before ++ l).length 0 = CR ∧ (before ++ l).length + 1 < s.rend ∧
      s.buffer.getD ((before ++ l).length + 1) 0 = LF) ↔ b = CR ∧ tail.head? = some LF := by
    have hat₀ := hat 0
    rw [Nat.add_zero] at hat₀
    rw [hat₀, hat 1, hrend]
    cases tail with
    | nil => simp
    | cons a tail => simp
  rw [checkLine, hscan, if_pos (by dsimp only; omega), takeLine]
  dsimp only
  rw [hpast, List.take_left, ← hpast]
  by_cases hbr : b = CR ∧ tail.head? = some LF
  · obtain ⟨a, tail, rfl⟩ := List.exists_cons_of_ne_nil (l := tail) fun h ↦ by simp [h] at hbr
    rw [if_pos (hcrlf.mpr hbr), behind, if_pos hbr]
    refine ⟨l ++ [b, a], by simp, fun hn ↦ ?_, by simp [Nat.add_assoc]⟩
    exact absurd (hn b (by simp)) (by simp [hb])
  · rw [if_neg (hcrlf.not.mpr hbr), behind, if_neg hbr]
    refine ⟨l ++ [b], by simp, fun hn ↦ ?_, by simp [Nat.add_assoc]⟩
    exact absurd (hn b (by simp)) (by simp [hb])

end Holds

/-- What `readBytes` has written is unread. -/
theorem load_holds {s : TextStream} {mem : Bytes} (hpos : s.rpos ≤ s.buffer.length)
    (net : Network) : (s.load mem net).Holds (s.buffer.take s.rpos) mem where
  buffer := ⟨s.buffer.drop (s.rpos + mem.length), List.append_assoc _ _ _⟩
  end_ := by rw [load, List.length_take, min_eq_left hpos]
  rend := by rw [load, List.length_take, min_eq_left hpos]

/-! ### Reading the pieces of a stream -/

section Pieces

variable {s : TextStream} {stream : Bytes} {sizes : List ℕ}

/-- The connection is gone, and so is all that was read. -/
structure Drained (s : TextStream) : Prop where
  connected : s.source.connected = false
  rend_le : s.rend ≤ s.end_

theorem Drained.readLine (h : s.Drained) : ∃ s', s.readLine = ([], s') ∧ s'.Drained := by
  rw [TextStream.readLine, if_neg (not_lt.mpr h.rend_le), readMore_of_not_connected]
  · exact ⟨_, rfl, h.connected, h.rend_le⟩
  · exact h.connected

/-- The loop has room to read and nothing unread. -/
structure Room (s : TextStream) : Prop where
  size : s.buffer.length = s.bufferSize
  rpos_lt : s.rpos < s.bufferSize
  rend_le : s.rend ≤ s.end_
  connected : s.source.connected = true

namespace Room

/-- At the end of the stream the connection is lost. -/
theorem readMore_nil (h : s.Room) (hnet : s.net = pieces [] sizes) :
    ∃ s', s.readMore = ([], s') ∧ s'.Drained := by
  obtain ⟨net, hread⟩ := readBytes_end (Nat.sub_pos_of_lt h.rpos_lt) sizes
  rw [readMore_turn h.connected, hnet, hread]
  exact ⟨_, rfl, rfl, h.rend_le⟩

/-- Otherwise the next piece is read, behind what the buffer keeps. -/
theorem readMore_piece (h : s.Room) (hnet : s.net = pieces stream sizes) (hstream : stream ≠ [])
    {k : ℕ} (hk : k = pieceSize (s.bufferSize - s.rpos) sizes) :
    s.readMore =
      (s.load (stream.take k) (pieces (stream.drop k) sizes.tail)).checkLine readMore := by
  rw [readMore_turn h.connected, hnet, readBytes_piece (Nat.sub_pos_of_lt h.rpos_lt) hstream, ← hk]
  rfl

theorem load_holds (h : s.Room) (mem : Bytes) (net : Network) :
    (s.load mem net).Holds (s.buffer.take s.rpos) mem :=
  TextStream.load_holds (h.size ▸ h.rpos_lt.le) net

theorem length_buffer_load (h : s.Room) {mem : Bytes}
    (hmem : mem.length ≤ s.bufferSize - s.rpos) (net : Network) :
    (s.load mem net).buffer.length = s.bufferSize := by
  have := h.rpos_lt
  simp only [load, List.length_append, List.length_take, List.length_drop, h.size]
  omega

/-- A piece without a line break leaves the loop where it was. -/
theorem skip (h : s.Room) {mem : Bytes} (hmem : mem.length ≤ s.bufferSize - s.rpos)
    (net : Network) : Room { s.load mem net with end_ := (s.load mem net).rend } :=
  ⟨h.length_buffer_load hmem net, h.rpos_lt, le_rfl, h.connected⟩

/-- What the buffer keeps is not written over. -/
theorem take_buffer_load (h : s.Room) (mem : Bytes) (net : Network) :
    (s.load mem net).buffer.take s.rpos = s.buffer.take s.rpos := by
  rw [load, List.append_assoc]
  exact List.take_left' (by rw [List.length_take, min_eq_left (h.size ▸ h.rpos_lt.le)])

/-- A stream without a line break is read to its end. -/
theorem readMore_of_noBreak (h : s.Room) (hnet : s.net = pieces stream sizes)
    (hnb : NoBreak CR LF stream) : ∃ s', s.readMore = ([], s') ∧ s'.Drained := by
  induction hn : stream.length using Nat.strong_induction_on generalizing s stream sizes with
  | _ n ih =>
    by_cases hstream : stream = []
    · subst hstream
      exact h.readMore_nil hnet
    · obtain ⟨k, hk⟩ : ∃ k, k = pieceSize (s.bufferSize - s.rpos) sizes := ⟨_, rfl⟩
      have hparts := noBreak_append.mp ((List.take_append_drop k stream).symm ▸ hnb)
      have hmem := length_take_piece_le hk stream
      have hless := length_drop_piece_lt (Nat.sub_pos_of_lt h.rpos_lt) hk hstream
      rw [h.readMore_piece hnet hstream hk, (h.load_holds _ _).checkLine_of_noBreak hparts.1]
      exact ih _ (hn ▸ hless) (h.skip hmem _) rfl hparts.2 rfl

/-- The line that is returned ends as the first line of the stream does, behind what the buffer
keeps. -/
theorem readMore_of_nextLine (h : s.Room) (hnet : s.net = pieces stream sizes) {l rest : Bytes}
    (hl : nextLine CR LF stream = some (l, rest)) :
    ∃ x, x <:+ l ∧ s.readMore.1 = s.buffer.take s.rpos ++ x := by
  induction hn : stream.length using Nat.strong_induction_on generalizing s stream sizes l rest with
  | _ n ih =>
    have hstream : stream ≠ [] := by
      rintro rfl
      rw [nextLine_of_noBreak noBreak_nil] at hl
      cases hl
    obtain ⟨k, hk⟩ : ∃ k, k = pieceSize (s.bufferSize - s.rpos) sizes := ⟨_, rfl⟩
    have hmem := length_take_piece_le hk stream
    have hless := length_drop_piece_lt (Nat.sub_pos_of_lt h.rpos_lt) hk hstream
    have hholds := h.load_holds (stream.take k) (pieces (stream.drop k) sizes.tail)
    rw [h.readMore_piece hnet hstream hk]
    rw [← List.take_append_drop k stream] at hl
    by_cases hnb : NoBreak CR LF (stream.take k)
    · -- the line goes on in the next piece, which is written over this one
      rw [nextLine_append_of_noBreak hnb] at hl
      obtain ⟨⟨l', rest'⟩, hl', hline⟩ := Option.map_eq_some_iff.mp hl
      have hskip := h.skip hmem (pieces (stream.drop k) sizes.tail)
      obtain ⟨x, hx, hmore⟩ := ih _ (hn ▸ hless) hskip rfl hl' rfl
      cases hline
      refine ⟨x, hx.trans (List.suffix_append _ _), ?_⟩
      rw [hholds.checkLine_of_noBreak hnb]
      rw [← h.take_buffer_load (stream.take k) (pieces (stream.drop k) sizes.tail)]
      exact hmore
    · obtain ⟨l', b, tail, htake, hnb', hb⟩ := (noBreak_or_break (stream.take k)).resolve_left hnb
      have hline : l' = l := by
        rw [htake, List.append_assoc, List.cons_append, nextLine_of_break hnb' hb] at hl
        exact congrArg Prod.fst (Option.some.inj hl)
      subst hline
      obtain ⟨broken, -, -, hcheck⟩ := hholds.checkLine_of_nextLine
        (htake ▸ nextLine_of_break hnb' hb tail) readMore
      refine ⟨l', List.suffix_rfl, ?_⟩
      rw [hcheck]
      rfl

end Room

/-! ### Between two calls -/

/-- Between two calls the unread bytes stand behind what was handed out. That is nothing, or it
has a line break in it. -/
structure Loaded (s : TextStream) (unread : Bytes) : Prop where
  size : s.buffer.length = s.bufferSize
  size_pos : 0 < s.bufferSize
  connected : s.source.connected = true
  holds : ∃ before, s.Holds before unread ∧ s.rstart = before.length ∧
    (unread ≠ [] → s.rpos = before.length) ∧ (before = [] ∨ ¬NoBreak CR LF before)

theorem new_loaded {buffer : Bytes} (h : buffer ≠ []) (net : Network) :
    (new buffer net).Loaded [] where
  size := rfl
  size_pos := List.length_pos_iff.mpr h
  connected := rfl
  holds := ⟨[], ⟨⟨buffer, rfl⟩, rfl, rfl⟩, rfl, fun _ ↦ rfl, .inl rfl⟩

namespace Loaded

variable {unread : Bytes}

/-- A whole line that is unread is handed out. -/
theorem readLine_of_nextLine (h : s.Loaded unread) {l rest : Bytes}
    (hl : nextLine CR LF unread = some (l, rest)) :
    ∃ s', s.readLine = (l, s') ∧ s'.Loaded rest ∧ s'.net = s.net ∧
      s'.bufferSize = s.bufferSize := by
  obtain ⟨before, hholds, hrstart, hrpos, hbefore⟩ := h.holds
  have hne : unread ≠ [] := by
    rintro rfl
    rw [nextLine_of_noBreak noBreak_nil] at hl
    cases hl
  obtain ⟨broken, rfl, hbroken, hcheck⟩ := hholds.checkLine_of_nextLine hl readMore
  obtain ⟨free, hbuffer⟩ := hholds.buffer
  rw [readLine, if_pos (hholds.end_lt_iff.mpr hne), hcheck, hrstart, List.drop_left]
  refine ⟨_, rfl, ⟨h.size, h.size_pos, h.connected, before ++ broken, ⟨⟨free, ?_⟩, rfl, ?_⟩, rfl,
    fun _ ↦ rfl, .inr fun hnb ↦ hbroken (noBreak_append.mp hnb).2⟩, rfl, rfl⟩
  · rw [hbuffer]
    simp only [List.append_assoc]
  · rw [hholds.rend]
    simp only [List.length_append]
    omega

/-- With nothing unread, the first thing a call does is to read. -/
theorem room (h : s.Loaded []) : s.rewind.Room ∧ s.rewind.rpos = 0 := by
  obtain ⟨before, hholds, hrstart, -, -⟩ := h.holds
  have hend := hholds.end_
  have hrend := hholds.rend
  have hrpos : s.rewind.rpos = 0 := by
    rw [rewind, hend, hrstart, Nat.sub_self]
  rw [List.length_nil] at hrend
  refine ⟨⟨(length_shift_buffer _ _ _).trans h.size, ?_, ?_, h.connected⟩, hrpos⟩
  · rw [hrpos]
    exact h.size_pos
  · show s.rend ≤ s.end_
    omega

theorem readLine_nil (h : s.Loaded []) : s.readLine = s.rewind.readMore := by
  obtain ⟨before, hholds, -, -, -⟩ := h.holds
  rw [readLine, if_neg (hholds.end_lt_iff.not.mpr (not_not_intro rfl))]

/-- It is as if the piece that it reads had been there before. -/
theorem readLine_piece (h : s.Loaded []) (hnet : s.net = pieces stream sizes)
    (hstream : stream ≠ []) {k : ℕ} (hk : k = pieceSize s.bufferSize sizes) :
    ∃ s' : TextStream, s.readLine = s'.readLine ∧ s'.Loaded (stream.take k) ∧
      s'.net = pieces (stream.drop k) sizes.tail ∧ s'.bufferSize = s.bufferSize := by
  obtain ⟨hroom, hrpos⟩ := h.room
  have hk' : k = pieceSize (s.rewind.bufferSize - s.rewind.rpos) sizes := by
    rw [hrpos]
    exact hk
  have hmem := length_take_piece_le hk' stream
  have hholds := hroom.load_holds (stream.take k) (pieces (stream.drop k) sizes.tail)
  rw [hrpos, List.take_zero] at hholds
  have hne : stream.take k ≠ [] := by
    have := pieceSize_pos h.size_pos sizes
    rw [Ne, List.take_eq_nil_iff, not_or]
    exact ⟨by omega, hstream⟩
  refine ⟨_, ?_, ⟨hroom.length_buffer_load hmem (pieces (stream.drop k) sizes.tail), h.size_pos,
    h.connected, [], hholds, rfl, fun _ ↦ hrpos, .inl rfl⟩, rfl, rfl⟩
  rw [h.readLine_nil, hroom.readMore_piece hnet hstream hk', readLine,
    if_pos (hholds.end_lt_iff.mpr hne)]

/-- Without a line break in the unread bytes a call goes on to read, behind what was handed out. -/
theorem readLine_eq_readMore (h : s.Loaded unread) (hunread : NoBreak CR LF unread) :
    ∃ r : TextStream, s.readLine = r.readMore ∧ r.Room ∧ r.net = s.net ∧
      (r.buffer.take r.rpos = [] ∨ ¬NoBreak CR LF (r.buffer.take r.rpos)) := by
  by_cases hne : unread = []
  · subst hne
    obtain ⟨hroom, hrpos⟩ := h.room
    exact ⟨s.rewind, h.readLine_nil, hroom, rfl, .inl (by rw [hrpos, List.take_zero])⟩
  · obtain ⟨before, hholds, hrstart, hrpos, hbefore⟩ := h.holds
    obtain ⟨free, hbuffer⟩ := hholds.buffer
    have hrpos := hrpos hne
    refine ⟨{ s with end_ := s.rend }, ?_, ⟨h.size, ?_, le_rfl, h.connected⟩, rfl, ?_⟩
    · rw [readLine, if_pos (hholds.end_lt_iff.mpr hne), hholds.checkLine_of_noBreak hunread]
    · have hlen := congrArg List.length hbuffer
      have hpos := List.length_pos_iff.mpr hne
      simp only [List.length_append, h.size] at hlen
      dsimp only
      omega
    · dsimp only
      rw [hbuffer, hrpos, List.take_left]
      exact hbefore

/-- Without a line break to come there are no more lines. -/
theorem readLine_of_noBreak (h : s.Loaded unread) (hnet : s.net = pieces stream sizes)
    (hunread : NoBreak CR LF unread) (hstream : NoBreak CR LF stream) :
    ∃ s', s.readLine = ([], s') ∧ s'.Drained := by
  obtain ⟨r, hread, hroom, hrnet, -⟩ := h.readLine_eq_readMore hunread
  rw [hread]
  exact hroom.readMore_of_noBreak (hrnet.trans hnet) hstream

/-- Part of a line that is unread is lost when the line goes on. -/
theorem readLine_cut (h : s.Loaded unread) (hnet : s.net = pieces stream sizes)
    (hne : unread ≠ []) (hunread : NoBreak CR LF unread) {l rest : Bytes}
    (hl : nextLine CR LF stream = some (l, rest)) : s.readLine.1 ≠ unread ++ l := by
  obtain ⟨r, hread, hroom, hrnet, hkept⟩ := h.readLine_eq_readMore hunread
  obtain ⟨x, hx, hmore⟩ := hroom.readMore_of_nextLine (hrnet.trans hnet) hl
  obtain ⟨b, tail, -, hnb, -, -⟩ := nextLine_eq_some.mp hl
  rw [hread, hmore]
  rintro heq
  rcases hkept with hnil | hbreak
  · -- the line comes without its beginning
    have hlen := congrArg List.length heq
    have hle := hx.length_le
    have hpos := List.length_pos_iff.mpr hne
    rw [hnil, List.nil_append, List.length_append] at hlen
    omega
  · -- or with earlier lines in front
    have hnone := noBreak_append.mpr ⟨hunread, hnb⟩
    rw [← heq] at hnone
    exact hbreak (noBreak_append.mp hnone).1

end Loaded

end Pieces

end TextStream

end WebSockets
