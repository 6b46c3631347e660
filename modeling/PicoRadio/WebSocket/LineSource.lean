import PicoRadio.WebSocket.TextStream

/-!
# Sources of lines

Both sides of the handshake read lines until an empty one. `LineSource` is what they read from: a
state, `readLine`, and a measure of what is left, so that only so many lines can be read before an
empty one. `TextStream` is such a source, and so is a list of lines, for lines that are read whole.
-/

namespace WebSockets

open Lines

/-- Something that is read line by line. -/
structure LineSource (σ : Type) where
  readLine : σ → Str × σ
  /-- How much there is to read. -/
  left : σ → ℕ
  left_lt : ∀ s, (readLine s).1 ≠ [] → left (readLine s).2 < left s

namespace LineSource

variable {σ : Type} (src : LineSource σ)

/-- These are the next lines, and what is read after them. -/
def Feeds : σ → List Str → σ → Prop
  | s, [], s' => s = s'
  | s, l :: lines, s' => ∃ t, src.readLine s = (l, t) ∧ Feeds t lines s'

variable {src}

theorem Feeds.append {s t s' : σ} {lines lines' : List Str} (h : src.Feeds s lines t)
    (h' : src.Feeds t lines' s') : src.Feeds s (lines ++ lines') s' := by
  induction lines generalizing s with
  | nil =>
    obtain rfl : s = t := h
    exact h'
  | cons l lines ih =>
    obtain ⟨u, hread, hu⟩ := h
    exact ⟨u, hread, ih hu⟩

/-- Lines that are read whole. Behind the last one all are empty. -/
def whole : LineSource (List Str) where
  readLine lines := (lines.headD [], lines.tail)
  left := List.length
  left_lt lines h := by
    cases lines with
    | nil => exact absurd rfl h
    | cons l lines => exact Nat.lt_succ_self _

theorem whole_feeds (lines rest : List Str) : whole.Feeds (lines ++ rest) lines rest := by
  induction lines with
  | nil => rfl
  | cons l lines ih => exact ⟨_, rfl, ih⟩

end LineSource

namespace TextStream

variable {s : TextStream}

/-- What is left to read counts twice until it is in the buffer. -/
def left (s : TextStream) : ℕ :=
  2 * s.net.left + (s.rend - s.end_)

theorem takeLine_left (h : s.scan.end_ < s.rend) : s.scan.takeLine.2.left < s.left := by
  have hscan : s.end_ ≤ s.scan.end_ := Nat.le_add_right _ _
  have htake : s.scan.end_ < s.scan.takeLine.2.end_ := by
    simp only [takeLine]
    split <;> omega
  show 2 * s.net.left + (s.rend - s.scan.takeLine.2.end_) < s.left
  rw [left]
  omega

/-- A line that the loop returns was read by it. -/
theorem readMore_left (h : s.readMore.1 ≠ []) : s.readMore.2.left < 2 * s.net.left := by
  induction hn : s.net.left using Nat.strong_induction_on generalizing s with
  | _ n ih =>
    subst hn
    cases hconn : s.source.connected with
    | false =>
      rw [readMore_of_not_connected hconn] at h
      exact absurd rfl h
    | true =>
      rw [readMore_turn hconn] at h ⊢
      rcases Nat.eq_zero_or_pos (s.bufferSize - s.rpos) with hlen | hlen
      · rw [hlen] at h
        exact absurd rfl h
      rcases s.net.readBytes_spec hlen with ⟨mem, rest, hbs, hmem, hr⟩ | ⟨net', hr⟩ | ⟨_, -, hr⟩
      · have hless : (Network.mk rest s.net.arrivals.tail).left + mem.length ≤ s.net.left := by
          have hlen := congrArg List.length hbs
          rw [List.length_append] at hlen
          rw [Network.left, Network.left, List.length_tail]
          dsimp only
          omega
        have hpos := List.length_pos_iff.mpr hmem
        rw [hr, afterRead, checkLine] at h ⊢
        split at h
        · next hline =>
          rw [if_pos hline]
          have hload := takeLine_left hline
          have hunread : (s.load mem ⟨rest, s.net.arrivals.tail⟩).left =
              2 * (Network.mk rest s.net.arrivals.tail).left + mem.length := by
            rw [left, load, Nat.add_sub_cancel_left]
          omega
        · next hline =>
          rw [if_neg hline]
          have hmore := ih (Network.mk rest s.net.arrivals.tail).left (by omega) h rfl
          omega
      · rw [hr] at h
        exact absurd rfl h
      · rw [hr] at h
        exact absurd rfl h

theorem readLine_left (h : s.readLine.1 ≠ []) : s.readLine.2.left < s.left := by
  rw [readLine] at h ⊢
  split at h
  · next hunread =>
    rw [if_pos hunread]
    rw [checkLine] at h ⊢
    split at h
    · next hline =>
      rw [if_pos hline]
      exact takeLine_left hline
    · next hline =>
      rw [if_neg hline]
      exact (readMore_left h).trans_le (Nat.le_add_right _ _)
  · next hunread =>
    rw [if_neg hunread]
    exact (readMore_left h).trans_le (Nat.le_add_right _ _)

/-- A text stream is read line by line. -/
def lines : LineSource TextStream where
  readLine := readLine
  left := left
  left_lt _ := readLine_left

end TextStream

end WebSockets
