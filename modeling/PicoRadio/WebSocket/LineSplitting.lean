import PicoRadio.WebSocket.TextStream

/-!
# Which pieces are split into the right lines

A stream that arrives in pieces is read line by line. The lines are those of the stream only if no
read begins within a line: when one does, the line comes out without its beginning, with the lines
before it in front (`Loaded.readLine_cut`). A read that begins between CR and LF takes the LF for a
line of its own, which goes unnoticed only if there are nothing but empty lines behind it.

## Reads and lines

A read happens only when no line is left in the buffer. So a read begins within a line just if the
piece before it has ended there, and then the part of the line that was read is lost or put in the
wrong place. `Reading` follows the calls through these situations, with one step for each.
-/

namespace WebSockets

open Lines Network

/-- A line of a stream. Behind the last one all are empty, as `readLine` returns them. -/
def lineOf (stream : Bytes) (n : ℕ) : Str :=
  (linesOf CR LF stream).getD n []

/-- The next reads, into a buffer of this size, begin where a line does, or there is no line to
come. -/
inductive CutAtLineEnds (bufferSize : ℕ) : Bytes → List ℕ → Prop
  /-- No line ends behind the piece. -/
  | last {stream sizes} (k : ℕ) : k = pieceSize bufferSize sizes →
      NoBreak CR LF (stream.drop k) → CutAtLineEnds bufferSize stream sizes
  /-- The piece ends with a line break. -/
  | line {stream sizes} (k : ℕ) : k = pieceSize bufferSize sizes → EndsLine CR LF (stream.take k) →
      ¬Split CR LF (stream.take k) (stream.drop k) →
      CutAtLineEnds bufferSize (stream.drop k) sizes.tail → CutAtLineEnds bufferSize stream sizes
  /-- The cut is between CR and LF, and all lines behind it are empty. -/
  | split {stream sizes} (k : ℕ) (rest : Bytes) : k = pieceSize bufferSize sizes →
      (stream.take k).getLast? = some CR → stream.drop k = LF :: rest →
      (∀ n, lineOf rest n = []) → CutAtLineEnds bufferSize stream sizes

/-! ### Lines of a stream -/

/-- A stream without a line break has no lines. -/
theorem lineOf_of_noBreak {stream : Bytes} (h : NoBreak CR LF stream) (n : ℕ) :
    lineOf stream n = [] := by
  rw [lineOf, linesOf_of_noBreak h]
  rfl

/-- The first line. -/
theorem lineOf_zero {stream l rest : Bytes} (h : nextLine CR LF stream = some (l, rest)) :
    lineOf stream 0 = l := by
  rw [lineOf, linesOf_of_nextLine h]
  rfl

/-- The lines behind the first one. -/
theorem lineOf_succ {stream l rest : Bytes} (h : nextLine CR LF stream = some (l, rest)) (n : ℕ) :
    lineOf stream (n + 1) = lineOf rest n := by
  rw [lineOf, linesOf_of_nextLine h]
  rfl

/-- An LF at the beginning ends an empty line. -/
theorem nextLine_LF (rest : Bytes) : nextLine CR LF (LF :: rest) = some ([], rest) := by
  have h := nextLine_of_break (@noBreak_nil _ _ CR LF) isBreak_LF rest
  rwa [behind, if_neg fun h ↦ absurd h.1 (by decide)] at h

/-- What a line leaves behind ends as the text does, or nothing is left. -/
theorem endsLine_of_nextLine {u l rest : Bytes} (h : nextLine CR LF u = some (l, rest)) :
    rest = [] ∧ EndsLine CR LF u ∨ rest ≠ [] ∧ rest.getLast? = u.getLast? := by
  obtain ⟨b, tail, rfl, -, hb, rfl⟩ := nextLine_eq_some.mp h
  have hlast : (l ++ b :: tail).getLast? = (b :: tail).getLast? := by
    rw [List.getLast?_append, List.getLast?_cons, Option.some_or]
  rw [EndsLine, hlast]
  rcases tail with _ | ⟨a, tail⟩
  · exact .inl ⟨if_neg (by simp), b, rfl, hb⟩
  · rw [List.getLast?_cons_cons, behind]
    split
    · next hbr =>
      obtain rfl : a = LF := Option.some.inj hbr.2
      rcases tail with _ | ⟨c, tail⟩
      · exact .inl ⟨rfl, LF, rfl, isBreak_LF⟩
      · exact .inr ⟨List.cons_ne_nil _ _, List.getLast?_cons_cons.symm⟩
    · exact .inr ⟨List.cons_ne_nil _ _, rfl⟩

/-- The other lines are those behind it. -/
theorem lineOf_LF (rest : Bytes) :
    lineOf (LF :: rest) 0 = [] ∧ ∀ n, lineOf (LF :: rest) (n + 1) = lineOf rest n :=
  ⟨lineOf_zero (nextLine_LF rest), lineOf_succ (nextLine_LF rest)⟩

/-- The first line of two parts, if it ends in the first. Unless the cut divides its break, the
others are those of what the line leaves. -/
theorem lineOf_append {u l rest : Bytes} (h : nextLine CR LF u = some (l, rest)) (stream : Bytes) :
    lineOf (u ++ stream) 0 = l ∧
      ((rest = [] → ¬Split CR LF u stream) ∧
          (∀ n, lineOf (u ++ stream) (n + 1) = lineOf (rest ++ stream) n) ∨
        ∃ r, rest = [] ∧ u.getLast? = some CR ∧ stream = LF :: r ∧
          ∀ n, lineOf (u ++ stream) (n + 1) = lineOf r n) := by
  by_cases hsplit : rest = [] ∧ Split CR LF u stream
  · obtain ⟨rfl, hu, hstream⟩ := hsplit
    obtain ⟨r, rfl⟩ := List.head?_eq_some_iff.mp hstream
    have hline := nextLine_append_split (by decide) h hu r
    exact ⟨lineOf_zero hline, .inr ⟨r, rfl, hu, rfl, lineOf_succ hline⟩⟩
  · have hsplit := not_and.mp hsplit
    have hline := nextLine_append h hsplit
    exact ⟨lineOf_zero hline, .inl ⟨hsplit, lineOf_succ hline⟩⟩

/-! ### The results of `readLine` -/

namespace TextStream

/-- The situations of the successive calls: nothing ends a line any more, a line goes on of which a
part is unread, the next piece is read, or a line is handed out. -/
inductive Reading : TextStream → Bytes → Bytes → List ℕ → Prop
  | noBreak {s unread stream sizes} : Loaded s unread → s.net = pieces stream sizes →
      NoBreak CR LF unread → NoBreak CR LF stream → Reading s unread stream sizes
  | cut {s unread stream sizes l rest} : Loaded s unread → s.net = pieces stream sizes →
      unread ≠ [] → NoBreak CR LF unread → nextLine CR LF stream = some (l, rest) →
      Reading s unread stream sizes
  | piece {s s' stream sizes} (k : ℕ) : stream ≠ [] → k = pieceSize s.bufferSize sizes →
      s.readLine = s'.readLine → s'.bufferSize = s.bufferSize →
      Reading s' (stream.take k) (stream.drop k) sizes.tail → Reading s [] stream sizes
  | line {s s' unread stream sizes l rest} : nextLine CR LF unread = some (l, rest) →
      s.readLine = (l, s') → s'.bufferSize = s.bufferSize → Reading s' rest stream sizes →
      Reading s unread stream sizes

variable {s s' : TextStream} {unread stream : Bytes} {sizes : List ℕ}

/-- The first call. -/
theorem lineAt_zero {l : Str} (h : s.readLine = (l, s')) : s.lineAt 0 = l :=
  congrArg Prod.fst h

/-- The calls behind the first one. -/
theorem lineAt_succ {l : Str} (h : s.readLine = (l, s')) (n : ℕ) :
    s.lineAt (n + 1) = s'.lineAt n :=
  congrArg (fun r : Str × TextStream ↦ r.2.lineAt n) h

/-- Streams whose first call agrees agree from then on. -/
theorem lineAt_congr (h : s.readLine = s'.readLine) (n : ℕ) : s.lineAt n = s'.lineAt n := by
  cases n with
  | zero => exact congrArg Prod.fst h
  | succ n => exact congrArg (fun r : Str × TextStream ↦ r.2.lineAt n) h

/-- Where nothing comes any more, every call returns an empty line. -/
theorem Drained.lineAt (h : s.Drained) (n : ℕ) : s.lineAt n = [] := by
  induction n generalizing s with
  | zero =>
    obtain ⟨s', hread, -⟩ := h.readLine
    exact lineAt_zero hread
  | succ n ih =>
    obtain ⟨s', hread, hs'⟩ := h.readLine
    rw [lineAt_succ hread, ih hs']

/-- So it does where no line break comes. -/
theorem Loaded.lineAt_of_noBreak (h : s.Loaded unread) (hnet : s.net = pieces stream sizes)
    (hunread : NoBreak CR LF unread) (hstream : NoBreak CR LF stream) (n : ℕ) :
    s.lineAt n = [] := by
  obtain ⟨s', hread, hs'⟩ := h.readLine_of_noBreak hnet hunread hstream
  cases n with
  | zero => exact lineAt_zero hread
  | succ n => rw [lineAt_succ hread, hs'.lineAt]

/-- Every stream between two calls is in one of the situations. -/
theorem Loaded.reading (h : s.Loaded unread) (hnet : s.net = pieces stream sizes) :
    Reading s unread stream sizes := by
  -- a byte counts twice until it is read
  induction hn : 2 * stream.length + unread.length using Nat.strong_induction_on
    generalizing s unread stream sizes with
  | _ n ih =>
    cases hline : nextLine CR LF unread with
    | some p =>
      obtain ⟨s', hread, hs', hnet', hsize⟩ := h.readLine_of_nextLine (l := p.1) hline
      have hless := length_of_nextLine (l := p.1) hline
      exact .line hline hread hsize (ih _ (by omega) hs' (hnet'.trans hnet) rfl)
    | none =>
      have hunread := nextLine_eq_none.mp hline
      cases hstream : nextLine CR LF stream with
      | none => exact .noBreak h hnet hunread (nextLine_eq_none.mp hstream)
      | some p =>
        by_cases hnil : unread = []
        · subst hnil
          have hne : stream ≠ [] := by
            rintro rfl
            cases hstream
          obtain ⟨s', hread, hs', hnet', hsize⟩ := h.readLine_piece hnet hne rfl
          have hless := @length_drop_piece_lt _ _ h.size_pos sizes rfl _ hne
          refine .piece _ hne rfl hread hsize (ih _ ?_ hs' hnet' rfl)
          rw [List.length_drop] at hless
          simp only [List.length_nil, List.length_drop, List.length_take] at hn ⊢
          omega
        · exact .cut (l := p.1) h hnet hnil hunread hstream

/-- A line of which a part is unread is not empty. -/
theorem lineOf_cut {l rest : Bytes} (hunread : NoBreak CR LF unread)
    (hl : nextLine CR LF stream = some (l, rest)) : lineOf (unread ++ stream) 0 = unread ++ l := by
  have hline : nextLine CR LF (unread ++ stream) = some (unread ++ l, rest) := by
    rw [nextLine_append_of_noBreak hunread, hl]
    rfl
  exact lineOf_zero hline

/-- Where all lines are empty, so are all results. -/
theorem Reading.lineAt_of_empty (h : Reading s unread stream sizes)
    (hlines : ∀ n, lineOf (unread ++ stream) n = []) (n : ℕ) : s.lineAt n = [] := by
  induction h generalizing n with
  | noBreak h hnet hunread hstream => exact h.lineAt_of_noBreak hnet hunread hstream n
  | cut h hnet hne hunread hl =>
    have hnil := hlines 0
    rw [lineOf_cut hunread hl] at hnil
    exact absurd (List.append_eq_nil_iff.mp hnil).1 hne
  | piece k hne hk hread _ _ ih =>
    rw [lineAt_congr hread]
    rw [List.nil_append] at hlines
    exact ih (by rwa [List.take_append_drop]) n
  | @line s s' unread stream sizes l rest hl hread _ _ ih =>
    obtain ⟨hzero, hsucc⟩ := lineOf_append hl stream
    have hrest (n : ℕ) : lineOf (rest ++ stream) n = [] := by
      rcases hsucc with ⟨-, hsucc⟩ | ⟨r, rfl, -, rfl, hsucc⟩
      · rw [← hsucc, hlines]
      · rw [List.nil_append]
        cases n with
        | zero => exact (lineOf_LF r).1
        | succ n => rw [(lineOf_LF r).2, ← hsucc, hlines]
    cases n with
    | zero => rw [lineAt_zero hread, ← hzero, hlines]
    | succ n => rw [lineAt_succ hread, ih hrest]

/-- Results that are ahead of the lines by some empty lines are those lines only if all lines are
empty. -/
theorem Reading.empty_of_ahead (h : Reading s unread stream sizes) {d : ℕ} (hd : 0 < d)
    (hempty : ∀ n < d, lineOf (unread ++ stream) n = [])
    (hahead : ∀ n, s.lineAt n = lineOf (unread ++ stream) (n + d)) (n : ℕ) :
    lineOf (unread ++ stream) n = [] := by
  induction h generalizing d n with
  | noBreak h hnet hunread hstream =>
    exact lineOf_of_noBreak (noBreak_append.mpr ⟨hunread, hstream⟩) n
  | cut h hnet hne hunread hl =>
    have hnil := hempty 0 hd
    rw [lineOf_cut hunread hl] at hnil
    exact absurd (List.append_eq_nil_iff.mp hnil).1 hne
  | piece k hne hk hread _ _ ih =>
    simp only [List.nil_append, List.take_append_drop] at hempty hahead ih ⊢
    exact ih hd hempty (fun n ↦ (lineAt_congr hread n).symm.trans (hahead n)) n
  | @line s s' unread stream sizes l rest hl hread _ _ ih =>
    obtain ⟨hzero, hsucc⟩ := lineOf_append hl stream
    have hl₀ : l = [] := hzero.symm.trans (hempty 0 hd)
    -- the call returns an empty line, so one more line is known to be empty
    have hempty' (n : ℕ) (hn : n < d) : lineOf (unread ++ stream) (n + 1) = [] := by
      rcases Nat.lt_or_eq_of_le (Nat.succ_le_of_lt hn) with hlt | heq
      · exact hempty _ hlt
      · have hresult := hahead 0
        rw [lineAt_zero hread, hl₀, Nat.zero_add, ← heq] at hresult
        exact hresult.symm
    have hahead' (n : ℕ) : s'.lineAt n = lineOf (unread ++ stream) (n + d + 1) := by
      rw [← lineAt_succ hread, hahead, Nat.add_right_comm]
    have hall (n : ℕ) : lineOf (unread ++ stream) (n + 1) = [] := by
      rcases hsucc with ⟨-, hsucc⟩ | ⟨r, rfl, -, rfl, hsucc⟩
      · rw [hsucc]
        refine ih hd (fun n hn ↦ ?_) (fun n ↦ ?_) n
        · rw [← hsucc, hempty' n hn]
        · rw [← hsucc, hahead']
      · have hLF := ih (Nat.succ_pos d) (fun n hn ↦ ?_) (fun n ↦ ?_) (n + 1)
        · rw [hsucc, ← (lineOf_LF r).2]
          exact hLF
        · cases n with
          | zero => exact (lineOf_LF r).1
          | succ n =>
            rw [List.nil_append, (lineOf_LF r).2, ← hsucc, hempty' n (Nat.lt_of_succ_lt_succ hn)]
        · rw [hahead', hsucc, List.nil_append]
          exact ((lineOf_LF r).2 _).symm
    cases n with
    | zero => exact hempty 0 hd
    | succ n => exact hall n

/-! ### The condition -/

/-- `CutAtLineEnds` when some bytes have been read. -/
def GoesOnAtLine (bufferSize : ℕ) (unread stream : Bytes) (sizes : List ℕ) : Prop :=
  NoBreak CR LF stream ∨
    (¬Split CR LF unread stream ∧ (unread = [] ∨ EndsLine CR LF unread) ∧
      CutAtLineEnds bufferSize stream sizes) ∨
    ∃ r, unread.getLast? = some CR ∧ stream = LF :: r ∧ ∀ n, lineOf r n = []

/-- The condition, as the next read sees it. -/
theorem cutAtLineEnds_iff {bufferSize k : ℕ} (hsize : 0 < bufferSize) (hstream : stream ≠ [])
    (hk : k = pieceSize bufferSize sizes) :
    CutAtLineEnds bufferSize stream sizes ↔
      GoesOnAtLine bufferSize (stream.take k) (stream.drop k) sizes.tail := by
  constructor
  · intro h
    cases h with
    | last k' hk' hnb =>
      obtain rfl := hk.trans hk'.symm
      exact .inl hnb
    | line k' hk' hends hsplit hcut =>
      obtain rfl := hk.trans hk'.symm
      exact .inr (.inl ⟨hsplit, .inr hends, hcut⟩)
    | split k' rest hk' hCR hLF hempty =>
      obtain rfl := hk.trans hk'.symm
      exact .inr (.inr ⟨rest, hCR, hLF, hempty⟩)
  · rintro (hnb | ⟨hsplit, hnil | hends, hcut⟩ | ⟨rest, hCR, hLF, hempty⟩)
    · exact .last k hk hnb
    · have := pieceSize_pos hsize sizes
      rw [List.take_eq_nil_iff] at hnil
      exact absurd hnil (not_or.mpr ⟨by omega, hstream⟩)
    · exact .line k hk hends hsplit hcut
    · exact .split k rest hk hCR hLF hempty

/-- With nothing unread it is the condition itself. -/
theorem goesOnAtLine_nil {bufferSize : ℕ} :
    GoesOnAtLine bufferSize [] stream sizes ↔ CutAtLineEnds bufferSize stream sizes := by
  constructor
  · rintro (hnb | ⟨-, -, hcut⟩ | ⟨r, hCR, -⟩)
    · exact .last _ rfl fun b hb ↦ hnb b (List.mem_of_mem_drop hb)
    · exact hcut
    · cases hCR
  · intro hcut
    exact .inr (.inl ⟨fun h ↦ Option.some_ne_none _ h.1.symm, .inl rfl, hcut⟩)

/-- A line that is handed out does not change it, unless the cut divides its break. -/
theorem goesOnAtLine_of_nextLine {bufferSize : ℕ} {l rest : Bytes}
    (hl : nextLine CR LF unread = some (l, rest))
    (hsplit : rest = [] → ¬Split CR LF unread stream) :
    GoesOnAtLine bufferSize unread stream sizes ↔ GoesOnAtLine bufferSize rest stream sizes := by
  rcases endsLine_of_nextLine hl with ⟨rfl, hends⟩ | ⟨hrest, hlast⟩
  · have hsplit := hsplit rfl
    rw [goesOnAtLine_nil]
    constructor
    · rintro (hnb | ⟨-, -, hcut⟩ | ⟨r, hCR, rfl, -⟩)
      · exact goesOnAtLine_nil.mp (.inl hnb)
      · exact hcut
      · exact absurd ⟨hCR, rfl⟩ hsplit
    · intro hcut
      exact .inr (.inl ⟨hsplit, .inr hends, hcut⟩)
  · have hunread : unread ≠ [] := by
      rintro rfl
      cases hl
    simp only [GoesOnAtLine, Split, EndsLine, hlast, hrest, hunread, false_or]

/-- By induction on the situations: the lines are right just if the reads begin where they may. -/
theorem Reading.lineAt_iff (h : Reading s unread stream sizes) (hsize : 0 < s.bufferSize) :
    (∀ n, s.lineAt n = lineOf (unread ++ stream) n) ↔
      GoesOnAtLine s.bufferSize unread stream sizes := by
  induction h with
  | noBreak h hnet hunread hstream =>
    refine iff_of_true (fun n ↦ ?_) (.inl hstream)
    rw [h.lineAt_of_noBreak hnet hunread hstream,
      lineOf_of_noBreak (noBreak_append.mpr ⟨hunread, hstream⟩)]
  | @cut s unread stream sizes l rest h hnet hne hunread hl =>
    refine iff_of_false (fun hlines ↦ ?_) ?_
    · exact h.readLine_cut hnet hne hunread hl ((hlines 0).trans (lineOf_cut hunread hl))
    · rintro (hnb | ⟨-, hnil | hends, -⟩ | ⟨r, hCR, -⟩)
      · rw [nextLine_of_noBreak hnb] at hl
        cases hl
      · exact hne hnil
      · exact hends.not_noBreak hunread
      · exact EndsLine.not_noBreak ⟨CR, hCR, isBreak_CR⟩ hunread
  | @piece s s' stream sizes k hne hk hread hbuf _ ih =>
    have hcongr : (∀ n, s.lineAt n = lineOf ([] ++ stream) n) ↔
        ∀ n, s'.lineAt n = lineOf (stream.take k ++ stream.drop k) n := by
      simp only [lineAt_congr hread, List.nil_append, List.take_append_drop]
    rw [hcongr, ih (hbuf ▸ hsize), hbuf, goesOnAtLine_nil, cutAtLineEnds_iff hsize hne hk]
  | @line s s' unread stream sizes l rest hl hread hbuf hs' ih =>
    obtain ⟨hzero, hsucc⟩ := lineOf_append hl stream
    have hlines : (∀ n, s.lineAt n = lineOf (unread ++ stream) n) ↔
        ∀ n, s'.lineAt n = lineOf (unread ++ stream) (n + 1) := by
      refine ⟨fun h n ↦ (lineAt_succ hread n).symm.trans (h (n + 1)), fun h n ↦ ?_⟩
      cases n with
      | zero => exact (lineAt_zero hread).trans hzero.symm
      | succ n => exact (lineAt_succ hread n).trans (h n)
    rw [hlines]
    rcases hsucc with ⟨hsplit, hsucc⟩ | ⟨r, rfl, hCR, rfl, hsucc⟩
    · simp only [hsucc]
      rw [ih (hbuf ▸ hsize), hbuf, goesOnAtLine_of_nextLine hl hsplit]
    · -- the LF counts as a line, so the results are ahead by one
      simp only [hsucc]
      obtain ⟨hLF, hr⟩ := lineOf_LF r
      constructor
      · intro hahead
        refine .inr (.inr ⟨r, hCR, rfl, fun n ↦ ?_⟩)
        rw [← hr]
        refine hs'.empty_of_ahead Nat.one_pos (fun n hn ↦ ?_) (fun n ↦ ?_) (n + 1)
        · obtain rfl := Nat.lt_one_iff.mp hn
          exact hLF
        · exact (hahead n).trans (hr n).symm
      · rintro (hnb | ⟨hsplit, -, -⟩ | ⟨r', -, heq, hempty⟩) n
        · exact absurd (hnb LF List.mem_cons_self) (by decide)
        · exact absurd ⟨hCR, rfl⟩ hsplit
        · obtain rfl := (List.cons.inj heq).2
          rw [hempty]
          refine hs'.lineAt_of_empty (fun n ↦ ?_) n
          cases n with
          | zero => exact hLF
          | succ n => exact (hr n).trans (hempty n)

/-- The lines of a stream that arrives in these pieces are read exactly if the reads begin at
lines. -/
theorem readLine_lines_iff {buffer : Bytes} (hbuffer : buffer ≠ []) (stream : Bytes)
    (sizes : List ℕ) :
    (∀ n, (new buffer (pieces stream sizes)).lineAt n = lineOf stream n) ↔
      CutAtLineEnds buffer.length stream sizes := by
  have h := (new_loaded hbuffer (pieces stream sizes)).reading rfl
  exact (h.lineAt_iff (List.length_pos_iff.mpr hbuffer)).trans goesOnAtLine_nil

/-- Two lines, each in a piece of its own. -/
theorem readLine_lines_sample :
    (∀ n, (new (.replicate 8 0) (pieces (ascii "ab\r\nc\n") [4, 2])).lineAt n =
        lineOf (ascii "ab\r\nc\n") n) ↔
      CutAtLineEnds (List.replicate 8 (0 : UInt8)).length (ascii "ab\r\nc\n") [4, 2] :=
  readLine_lines_iff (List.cons_ne_nil _ _) _ _

/-- The line `ab` arrives in two pieces. -/
theorem line_cut_lost :
    ¬∀ (buffer stream : Bytes) (sizes : List ℕ),
      (∀ l ∈ linesOf CR LF stream, l.length + 2 < buffer.length) →
      ∀ n, (new buffer (pieces stream sizes)).lineAt n = lineOf stream n := by
  intro h
  have hlines : ∀ l ∈ linesOf CR LF (ascii "ab\r\n"), l.length + 2 < 8 := by decide
  have hresult := h (.replicate 8 0) (ascii "ab\r\n") [1] hlines 0
  revert hresult
  decide

end TextStream

end WebSockets
