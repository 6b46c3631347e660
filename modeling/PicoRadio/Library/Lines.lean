import Mathlib.Data.List.Basic
import Mathlib.Data.List.TakeWhile

/-!
# The lines of a text

A text is split at two symbols, `cr` and `lf`, and `cr` followed by `lf` is one line break. Only
lines that are ended by a break count. `nextLine` takes the first line off, `linesOf` repeats it.

Where a text is the concatenation of two parts, its first line is that of the first part, or runs
on into the second. The exception is a break that the cut divides: then the second part begins with
the `lf` that belongs to the `cr` before it.
-/

namespace Lines

variable {α : Type*} [DecidableEq α] (cr lf : α)

/-- Either symbol ends a line. -/
def isBreak (b : α) : Bool :=
  b = cr ∨ b = lf

/-- No line ends in this text. -/
def NoBreak (s : List α) : Prop :=
  ∀ b ∈ s, isBreak cr lf b = false

instance (s : List α) : Decidable (NoBreak cr lf s) :=
  inferInstanceAs (Decidable (∀ b ∈ s, _))

/-- What follows the break that `b` begins. -/
def behind (b : α) (rest : List α) : List α :=
  if b = cr ∧ rest.head? = some lf then rest.tail else rest

/-- The first line and what follows its break. -/
def nextLine (s : List α) : Option (List α × List α) :=
  match s.dropWhile (!isBreak cr lf ·) with
  | [] => none
  | b :: rest => some (s.takeWhile (!isBreak cr lf ·), behind cr lf b rest)

/-- A cut between these two parts divides a break. -/
def Split (u r : List α) : Prop :=
  u.getLast? = some cr ∧ r.head? = some lf

/-- The last symbol ends a line. -/
def EndsLine (u : List α) : Prop :=
  ∃ b ∈ u.getLast?, isBreak cr lf b = true

variable {cr lf}

/-! ### The first line -/

theorem noBreak_nil : NoBreak cr lf [] :=
  List.forall_mem_nil _

/-- Both parts are without a break. -/
theorem noBreak_append {u r : List α} :
    NoBreak cr lf (u ++ r) ↔ NoBreak cr lf u ∧ NoBreak cr lf r :=
  List.forall_mem_append

theorem EndsLine.not_noBreak {u : List α} (h : EndsLine cr lf u) : ¬NoBreak cr lf u := by
  obtain ⟨b, hb, hbreak⟩ := h
  intro hnb
  rw [hnb b (List.mem_of_getLast? hb)] at hbreak
  cases hbreak

/-- A text without a break, or its first break and what stands around it. -/
theorem noBreak_or_break (s : List α) :
    NoBreak cr lf s ∨
      ∃ l b rest, s = l ++ b :: rest ∧ NoBreak cr lf l ∧ isBreak cr lf b = true := by
  induction s with
  | nil => exact .inl noBreak_nil
  | cons a s ih =>
    cases ha : isBreak cr lf a with
    | true => exact .inr ⟨[], a, s, rfl, noBreak_nil, ha⟩
    | false =>
      rcases ih with h | ⟨l, b, rest, rfl, hl, hb⟩
      · exact .inl (List.forall_mem_cons.mpr ⟨ha, h⟩)
      · exact .inr ⟨a :: l, b, rest, rfl, List.forall_mem_cons.mpr ⟨ha, hl⟩, hb⟩

/-- Without a break there is no line yet. -/
theorem nextLine_of_noBreak {s : List α} (h : NoBreak cr lf s) : nextLine cr lf s = none := by
  have hdrop : s.dropWhile (!isBreak cr lf ·) = [] := by
    rw [List.dropWhile_eq_nil_iff]
    intro b hb
    rw [h b hb]
    rfl
  rw [nextLine, hdrop]

theorem takeWhile_of_break {l : List α} {b : α} (hl : NoBreak cr lf l)
    (hb : isBreak cr lf b = true) (rest : List α) :
    (l ++ b :: rest).takeWhile (!isBreak cr lf ·) = l := by
  rw [List.takeWhile_append_of_pos fun a ha ↦ by rw [hl a ha]; rfl,
    List.takeWhile_cons_of_neg (by rw [hb]; decide), List.append_nil]

/-- The first break ends the first line. -/
theorem nextLine_of_break {l : List α} {b : α} (hl : NoBreak cr lf l)
    (hb : isBreak cr lf b = true) (rest : List α) :
    nextLine cr lf (l ++ b :: rest) = some (l, behind cr lf b rest) := by
  have hdrop : (l ++ b :: rest).dropWhile (!isBreak cr lf ·) = b :: rest := by
    rw [List.dropWhile_append_of_pos fun a ha ↦ by rw [hl a ha]; rfl,
      List.dropWhile_cons_of_neg (by rw [hb]; decide)]
  rw [nextLine, hdrop, takeWhile_of_break hl hb]

/-- There is a line if there is a break. -/
theorem nextLine_eq_none {s : List α} : nextLine cr lf s = none ↔ NoBreak cr lf s := by
  refine ⟨fun h ↦ ?_, nextLine_of_noBreak⟩
  rcases noBreak_or_break s with hs | ⟨l, b, rest, rfl, hl, hb⟩
  · exact hs
  · rw [nextLine_of_break hl hb] at h
    cases h

theorem length_behind_le (b : α) (rest : List α) :
    (behind cr lf b rest).length ≤ rest.length := by
  rw [behind]
  split
  · rw [List.length_tail]
    omega
  · exact le_rfl

/-- What the line is, and what is left behind the break. -/
theorem nextLine_eq_some {s l s' : List α} :
    nextLine cr lf s = some (l, s') ↔
      ∃ b rest, s = l ++ b :: rest ∧ NoBreak cr lf l ∧ isBreak cr lf b = true ∧
        s' = behind cr lf b rest := by
  constructor
  · intro h
    rcases noBreak_or_break s with hs | ⟨k, b, rest, rfl, hk, hb⟩
    · rw [nextLine_of_noBreak hs] at h
      cases h
    · rw [nextLine_of_break hk hb] at h
      cases h
      exact ⟨b, rest, rfl, hk, hb, rfl⟩
  · rintro ⟨b, rest, rfl, hl, hb, rfl⟩
    exact nextLine_of_break hl hb rest

/-- Every line takes something off. -/
theorem length_of_nextLine {s l s' : List α} (h : nextLine cr lf s = some (l, s')) :
    s'.length < s.length := by
  obtain ⟨b, rest, rfl, -, -, rfl⟩ := nextLine_eq_some.mp h
  have := @length_behind_le _ _ cr lf b rest
  rw [List.length_append, List.length_cons]
  omega

/-! ### The first line of two parts -/

/-- A line that goes on in the second part. -/
theorem nextLine_append_of_noBreak {u : List α} (h : NoBreak cr lf u) (r : List α) :
    nextLine cr lf (u ++ r) = (nextLine cr lf r).map fun p ↦ (u ++ p.1, p.2) := by
  rcases noBreak_or_break r with hr | ⟨l, b, rest, rfl, hl, hb⟩
  · rw [nextLine_of_noBreak (noBreak_append.mpr ⟨h, hr⟩), nextLine_of_noBreak hr]
    rfl
  · rw [← List.append_assoc, nextLine_of_break (noBreak_append.mpr ⟨h, hl⟩) hb,
      nextLine_of_break hl hb]
    rfl

/-- A break that is not the last of the first part does not depend on the second. -/
theorem nextLine_append {u l u' : List α} (h : nextLine cr lf u = some (l, u')) {r : List α}
    (hsplit : u' = [] → ¬Split cr lf u r) : nextLine cr lf (u ++ r) = some (l, u' ++ r) := by
  obtain ⟨b, rest, rfl, hl, hb, rfl⟩ := nextLine_eq_some.mp h
  rw [List.append_assoc, List.cons_append, nextLine_of_break hl hb]
  congr 2
  cases rest with
  | nil =>
    have hdivided : ¬(b = cr ∧ r.head? = some lf) := by
      rintro ⟨rfl, hr⟩
      exact hsplit (by simp [behind]) ⟨List.getLast?_concat, hr⟩
    rw [List.nil_append, behind, if_neg hdivided, behind, if_neg (by simp), List.nil_append]
  | cons a rest =>
    have hhead : (a :: rest ++ r).head? = (a :: rest).head? := rfl
    have htail : (a :: rest ++ r).tail = (a :: rest).tail ++ r := rfl
    rw [behind, behind, hhead, htail]
    split <;> rfl

/-- Where the cut divides the break, the `lf` behind it belongs to the line before. -/
theorem nextLine_append_split (hne : cr ≠ lf) {u l : List α}
    (h : nextLine cr lf u = some (l, [])) (hu : u.getLast? = some cr) (r : List α) :
    nextLine cr lf (u ++ lf :: r) = some (l, r) := by
  obtain ⟨b, rest, rfl, hl, hb, hrest⟩ := nextLine_eq_some.mp h
  have hnil : rest = [] := by
    by_contra hcons
    rw [behind] at hrest
    split at hrest
    · next hbr =>
      -- the break is whole, so its `lf` is the last symbol
      obtain ⟨a, rfl⟩ := List.length_eq_one_iff.mp (show rest.length = 1 by
        have := congrArg List.length hrest
        have := List.length_pos_iff.mpr hcons
        simp only [List.length_nil, List.length_tail] at *
        omega)
      rw [List.getLast?_append, List.getLast?_cons_cons, List.getLast?_singleton] at hu
      exact hne ((Option.some.inj hu).symm.trans (Option.some.inj hbr.2))
    · exact hcons hrest.symm
  subst hnil
  have hcr : b = cr := by
    rw [List.getLast?_append, List.getLast?_singleton] at hu
    exact Option.some.inj hu
  rw [List.append_assoc, List.cons_append, List.nil_append, nextLine_of_break hl hb, behind,
    if_pos ⟨hcr, rfl⟩, List.tail_cons]

/-! ### All lines -/

/-- The lines of a text that has at most so many. -/
def linesUpTo (cr lf : α) : ℕ → List α → List (List α)
  | 0, _ => []
  | n + 1, s =>
    match nextLine cr lf s with
    | none => []
    | some line => line.1 :: linesUpTo cr lf n line.2

/-- The lines of a text, without their breaks. -/
def linesOf (cr lf : α) (s : List α) : List (List α) :=
  linesUpTo cr lf s.length s

theorem linesUpTo_of_noBreak {s : List α} (h : NoBreak cr lf s) (n : ℕ) :
    linesUpTo cr lf n s = [] := by
  cases n with
  | zero => rfl
  | succ n => rw [linesUpTo, nextLine_of_noBreak h]

/-- There are not more lines than symbols. -/
theorem linesUpTo_eq {n m : ℕ} {s : List α} (hn : s.length ≤ n) (hm : s.length ≤ m) :
    linesUpTo cr lf n s = linesUpTo cr lf m s := by
  induction n generalizing m s with
  | zero =>
    obtain rfl := List.length_eq_zero_iff.mp (Nat.le_zero.mp hn)
    rw [linesUpTo_of_noBreak noBreak_nil, linesUpTo_of_noBreak noBreak_nil]
  | succ n ih =>
    cases hs : nextLine cr lf s with
    | none =>
      rw [linesUpTo_of_noBreak (nextLine_eq_none.mp hs),
        linesUpTo_of_noBreak (nextLine_eq_none.mp hs)]
    | some line =>
      have hless := @length_of_nextLine _ _ _ _ _ line.1 line.2 hs
      obtain ⟨m, rfl⟩ := Nat.exists_eq_add_one_of_ne_zero (show m ≠ 0 by omega)
      rw [linesUpTo, linesUpTo, hs]
      dsimp only
      rw [ih (m := m) (by omega) (by omega)]

theorem linesOf_of_noBreak {s : List α} (h : NoBreak cr lf s) : linesOf cr lf s = [] :=
  linesUpTo_of_noBreak h _

/-- The first line, and those of the rest. -/
theorem linesOf_of_nextLine {s l s' : List α} (h : nextLine cr lf s = some (l, s')) :
    linesOf cr lf s = l :: linesOf cr lf s' := by
  have hless := length_of_nextLine h
  obtain ⟨n, hn⟩ := Nat.exists_eq_add_one_of_ne_zero (show s.length ≠ 0 by omega)
  rw [linesOf, hn, linesUpTo, h]
  dsimp only
  rw [linesOf, linesUpTo_eq (by omega) le_rfl]

/-- A line that is ended by both symbols. -/
theorem linesOf_crlf {l : List α} (hl : NoBreak cr lf l) (rest : List α) :
    linesOf cr lf (l ++ cr :: lf :: rest) = l :: linesOf cr lf rest := by
  have hline := nextLine_of_break hl (decide_eq_true (Or.inl rfl) : isBreak cr lf cr = true)
    (lf :: rest)
  rw [behind, if_pos ⟨rfl, rfl⟩] at hline
  exact linesOf_of_nextLine hline

/-- Lines with the break that has both symbols behind each. -/
def unlines (cr lf : α) (lines : List (List α)) : List α :=
  lines.flatMap (· ++ [cr, lf])

omit [DecidableEq α] in
theorem unlines_cons (l : List α) (lines : List (List α)) (rest : List α) :
    unlines cr lf (l :: lines) ++ rest = l ++ cr :: lf :: (unlines cr lf lines ++ rest) := by
  simp [unlines]

omit [DecidableEq α] in
theorem unlines_eq_nil {lines : List (List α)} : unlines cr lf lines = [] ↔ lines = [] := by
  cases lines with
  | nil => simp [unlines]
  | cons l lines => simp [unlines]

/-- Lines that were put together come apart again. -/
theorem linesOf_unlines {lines : List (List α)} (hlines : ∀ l ∈ lines, NoBreak cr lf l)
    (rest : List α) :
    linesOf cr lf (unlines cr lf lines ++ rest) = lines ++ linesOf cr lf rest := by
  induction lines with
  | nil => rfl
  | cons l lines ih =>
    obtain ⟨hl, hlines⟩ := List.forall_mem_cons.mp hlines
    rw [unlines_cons, linesOf_crlf hl, ih hlines, List.cons_append]

/-- A cut behind a whole break is a cut between two lines. -/
theorem unlines_eq_append {lines : List (List α)} (hlines : ∀ l ∈ lines, NoBreak cr lf l)
    {a b : List α} (h : unlines cr lf lines = a ++ b) (ha : EndsLine cr lf a)
    (hsplit : ¬Split cr lf a b) :
    ∃ lines₁ lines₂, lines = lines₁ ++ lines₂ ∧ a = unlines cr lf lines₁ ∧
      b = unlines cr lf lines₂ := by
  induction lines generalizing a with
  | nil =>
    obtain ⟨rfl, rfl⟩ := List.append_eq_nil_iff.mp h.symm
    exact ⟨[], [], rfl, rfl, rfl⟩
  | cons l lines ih =>
    obtain ⟨hl, hlines⟩ := List.forall_mem_cons.mp hlines
    have hcons : l ++ (cr :: lf :: unlines cr lf lines) = a ++ b := by
      rw [← h, ← List.append_nil (unlines cr lf (l :: lines)), unlines_cons, List.append_nil]
    rcases List.append_eq_append_iff.mp hcons with ⟨c, rfl, hc⟩ | ⟨c, rfl, -⟩
    · -- the cut is behind the line: in front of its break, within it or behind it
      rcases c with _ | ⟨x, _ | ⟨y, c⟩⟩
      · rw [List.append_nil] at ha
        exact absurd hl ha.not_noBreak
      · obtain ⟨rfl, rfl⟩ := List.cons.inj hc
        exact absurd ⟨List.getLast?_concat, rfl⟩ hsplit
      · obtain ⟨rfl, hbehind⟩ := List.cons.inj hc
        obtain ⟨rfl, hrest⟩ := List.cons.inj hbehind
        by_cases hnil : c = []
        · subst hnil
          exact ⟨[l], lines, rfl, by simp [unlines], hrest.symm⟩
        · have hlast : (l ++ cr :: lf :: c).getLast? = c.getLast? := by
            obtain ⟨z, c, rfl⟩ := List.exists_cons_of_ne_nil hnil
            rw [List.getLast?_append, List.getLast?_cons_cons, List.getLast?_cons_cons,
              List.getLast?_cons, Option.some_or]
          rw [EndsLine, hlast] at ha
          rw [Split, hlast] at hsplit
          obtain ⟨lines₁, lines₂, rfl, rfl, rfl⟩ := ih hlines hrest ha hsplit
          exact ⟨l :: lines₁, lines₂, rfl, by simp [unlines], rfl⟩
    · exact absurd (noBreak_append.mp hl).1 ha.not_noBreak

/-- No line has a break in it. -/
theorem noBreak_of_mem_linesOf {s l : List α} (h : l ∈ linesOf cr lf s) : NoBreak cr lf l := by
  rw [linesOf] at h
  generalize s.length = n at h
  induction n generalizing s with
  | zero => cases h
  | succ n ih =>
    rw [linesUpTo] at h
    cases hline : nextLine cr lf s with
    | none =>
      rw [hline] at h
      cases h
    | some line =>
      rw [hline] at h
      rcases List.mem_cons.mp h with rfl | h
      · obtain ⟨b, rest, -, hnb, -⟩ :=
          nextLine_eq_some.mp (show _ = some (line.1, line.2) from hline)
        exact hnb
      · exact ih h

end Lines
