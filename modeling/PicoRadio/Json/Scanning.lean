import PicoRadio.Json.Unpacker

/-!
# The unpacker on a text

Where a text is the spelling of a list of tokens, what a function of the unpacker does depends on
the tokens only: `At ts` is an unpacker that stands before these tokens, and each function leads
from one such list to another. The tokens it passes over must not contain the byte it searches for;
strings are the only ones in which this is not plain to see.
-/

namespace Json

/-- What `peek_type` makes of a token; the separators are passed over. -/
def Token.type : Token → Option DataType
  | beginArray => some .array
  | endArray => some .arrayEnd
  | beginObject => some .object
  | endObject => some .objectEnd
  | comma | colon => none
  | null => some .null
  | bool true => some .true
  | bool false => some .false
  | number _ => some .int
  | string _ => some .str

/-- Only the separators have no type. -/
theorem Token.separator_of_type {t : Token} (h : t.type = none) : t = .comma ∨ t = .colon := by
  cases t with
  | comma => exact .inl rfl
  | colon => exact .inr rfl
  | bool b => cases b <;> exact nomatch h
  | _ => exact nomatch h

/-- A number is written so that it can be told from other tokens. -/
def Token.IsPlain (t : Token) : Prop :=
  ∀ text, t = .number text → IsNumber text

/-- A number is found at its first digit. -/
theorem IsDigit.mem_numberStart {c : UInt8} (h : IsDigit c) : c ∈ Unpacker.numberStart := by
  have hall : ∀ n < 256, IsDigit (UInt8.ofNat n) → UInt8.ofNat n ∈ Unpacker.numberStart := by
    decide +kernel
  have := hall c.toNat c.toNat_lt
  rw [UInt8.ofNat_toNat] at this
  exact this h

/-- The characters of a number. -/
theorem IsNumber.mem {text : Str} (h : IsNumber text) {c : UInt8} (hc : c ∈ text) :
    c ∈ ascii "0123456789-.+eE" := by
  have hdigits : ∀ {ds : Str}, IsDigits ds → c ∈ ds → c ∈ ascii "0123456789-.+eE" :=
    fun hds hc ↦ List.mem_append_left (ascii "+eE") (hds.2 c hc).mem_numberStart
  have hsub : ∀ s ∈ [ascii "-", ascii ".", ascii "+", ascii "e", ascii "E", []],
      s ⊆ ascii "0123456789-.+eE" := by decide
  obtain ⟨hsign, hwhole, -, hfraction, hexponent⟩ := h
  simp only [List.mem_append] at hc
  rcases hc with hc | hc | hc | hc
  · rcases hsign with rfl | rfl
    · exact absurd hc List.not_mem_nil
    · exact hsub _ (by decide) hc
  · exact hdigits hwhole hc
  · rcases hfraction with rfl | ⟨ds, hds, rfl⟩
    · exact absurd hc List.not_mem_nil
    · exact (List.mem_append.mp hc).elim (hsub _ (by decide) ·) (hdigits hds)
  · rcases hexponent with rfl | ⟨e, he, s, hs, ds, hds, rfl⟩
    · exact absurd hc List.not_mem_nil
    · simp only [List.mem_append] at hc
      rcases hc with (hc | hc) | hc
      · exact hsub e (by clear hc; revert e; decide) hc
      · exact hsub s (by clear hc; revert s; decide) hc
      · exact hdigits hds hc

/-- The character a number begins with is one that `unpack_int` searches for. -/
theorem IsNumber.exists_cons {text : Str} (h : IsNumber text) :
    ∃ c rest, text = c :: rest ∧ c ∈ Unpacker.numberStart := by
  obtain ⟨hsign, ⟨hne, hwhole⟩, -, -, -⟩ := h
  obtain ⟨c, whole, rfl⟩ := List.exists_cons_of_ne_nil hne
  rcases hsign with rfl | rfl
  · exact ⟨c, _, rfl, (hwhole c List.mem_cons_self).mem_numberStart⟩
  · exact ⟨0x2d, _, rfl, by decide⟩

/-- Only strings contain quotation marks. -/
theorem Token.IsPlain.quote_not_mem {t : Token} (h : t.IsPlain) (hstring : ∀ s, t ≠ .string s) :
    0x22 ∉ t.text := by
  cases t with
  | number text =>
    intro hquote
    exact absurd ((h text rfl).mem hquote) (by decide)
  | string text => exact absurd rfl (hstring text)
  | bool b => cases b <;> decide
  | beginArray | endArray | beginObject | endObject | comma | colon | null => decide

/-! ### Splitting a text at a token -/

/-- The text up to a token consists of white space and of the tokens before. -/
theorem Spells.split {l ts : List Token} {t : Token} {text : Bytes}
    (h : Spells (l ++ t :: ts) text) :
    ∃ before rest, text = before ++ (t.text ++ rest) ∧ Spells ts rest ∧
      ∀ c ∈ before, IsSpace c ∨ ∃ s ∈ l, c ∈ s.text := by
  induction l generalizing text with
  | nil =>
    obtain - | ⟨hspace, hts⟩ := h
    exact ⟨_, _, rfl, hts, fun c hc ↦ .inl (hspace c hc)⟩
  | cons s l ih =>
    obtain - | @⟨space, text, _, _, hspace, hts⟩ := h
    obtain ⟨before, rest, rfl, hrest, hbefore⟩ := ih hts
    refine ⟨space ++ (s.text ++ before), rest, by simp, hrest, fun c hc ↦ ?_⟩
    rcases List.mem_append.mp hc with hc | hc
    · exact .inl (hspace c hc)
    · rcases List.mem_append.mp hc with hc | hc
      · exact .inr ⟨s, List.mem_cons_self, hc⟩
      · exact (hbefore c hc).imp_right fun ⟨s', hs', hc⟩ ↦ ⟨s', List.mem_cons_of_mem _ hs', hc⟩

/-- A text consists of white space and of the tokens. -/
theorem Spells.mem {ts : List Token} {text : Bytes} (h : Spells ts text) {c : UInt8}
    (hc : c ∈ text) : IsSpace c ∨ ∃ t ∈ ts, c ∈ t.text := by
  induction h with
  | nil hspace => exact .inl (hspace c hc)
  | @cons space text t ts hspace hts ih =>
    rw [List.mem_append, List.mem_append] at hc
    rcases hc with hc | hc | hc
    · exact .inl (hspace c hc)
    · exact .inr ⟨t, List.mem_cons_self, hc⟩
    · exact (ih hc).imp_right fun ⟨s, hs, hc⟩ ↦ ⟨s, List.mem_cons_of_mem _ hs, hc⟩

/-- What is searched for is found where it first occurs. -/
theorem dropWhile_before {p : UInt8 → Bool} {before rest : Bytes} {c : UInt8}
    (hbefore : ∀ b ∈ before, p b = true) (hc : p c = false) :
    (before ++ c :: rest).dropWhile p = c :: rest := by
  rw [List.dropWhile_append_of_pos hbefore, List.dropWhile_cons_of_neg (by simp [hc])]

namespace Unpacker

/-- No error, and the tokens are what is left of the text. -/
def At (ts : List Token) (u : Unpacker) : Prop :=
  ∃ text, Spells ts text ∧ (∀ t ∈ ts, t.IsPlain) ∧ u = { rest := some text }

/-- The characters of tokens that are passed over, with white space, are none of those. -/
def Passes (chars : List UInt8) (l : List Token) : Prop :=
  ∀ t ∈ l, ∀ c ∈ t.text, c ∉ chars

/-- Nothing is passed over. -/
theorem Passes.nil (chars : List UInt8) : Passes chars [] :=
  List.forall_mem_nil _

/-- It can be computed whether tokens are passed over. -/
theorem passes_of_all {chars : List UInt8} {l : List Token}
    (h : (l.all fun t ↦ t.text.all fun c ↦ !chars.contains c) = true) : Passes chars l := by
  intro t ht c hc hchars
  have hnot := List.all_eq_true.mp (List.all_eq_true.mp h t ht) c hc
  rw [List.contains_iff_mem.mpr hchars] at hnot
  exact Bool.noConfusion hnot

variable {l ts : List Token} {t : Token}

/-! ### Brackets -/

/-- The search stops behind the token it is for. -/
theorem leads_findAfter {ch : UInt8} (hch : ¬IsSpace ch) (ht : t.text = [ch])
    (hskip : Passes [ch] l) :
    Leads (At (l ++ t :: ts)) (safeFindAfter ch) () (At ts) := by
  rintro u ⟨text, htext, hplain, rfl⟩
  obtain ⟨before, rest, rfl, hrest, hbefore⟩ := htext.split
  refine ⟨_, ?_, rest, hrest, fun s hs ↦ hplain s (by simp [hs]), rfl⟩
  have hfind : (before ++ (t.text ++ rest)).dropWhile (· ≠ ch) = ch :: rest := by
    rw [ht]
    refine dropWhile_before (fun b hb ↦ ?_) (by simp)
    rw [decide_eq_true_eq]
    rintro rfl
    rcases hbefore b hb with h | ⟨s, hs, h⟩
    · exact hch h
    · exact hskip s hs b h List.mem_cons_self
  show safeFindAfter ch _ = _
  simp only [safeFindAfter, Bool.false_eq_true, if_false, hfind]

/-- One beyond the end of the data. -/
def AtEnd (u : Unpacker) : Prop :=
  u = { rest := none, outOfRange := true }

/-- A search that finds nothing goes beyond the end. -/
theorem leads_findAfter_atEnd {ch : UInt8} (hch : ¬IsSpace ch) (h : Passes [ch] ts) :
    Leads (At ts) (safeFindAfter ch) () AtEnd := by
  rintro u ⟨text, htext, -, rfl⟩
  refine ⟨_, ?_, rfl⟩
  have hfind : text.dropWhile (· ≠ ch) = [] := by
    rw [List.dropWhile_eq_nil_iff]
    intro c hc
    rw [decide_eq_true_eq]
    rintro rfl
    rcases htext.mem hc with hspace | ⟨t, ht, hct⟩
    · exact hch hspace
    · exact h t ht c hct List.mem_cons_self
  show safeFindAfter ch _ = _
  simp only [safeFindAfter, Bool.false_eq_true, if_false, hfind]

/-- At the end there is nothing to find. -/
theorem AtEnd.findAfter (ch : UInt8) : Leads AtEnd (safeFindAfter ch) () AtEnd := by
  rintro u rfl
  exact ⟨_, rfl, rfl⟩

/-- Nor a key. -/
theorem AtEnd.unpackKey : Leads AtEnd unpackKey [] AtEnd := by
  rintro u rfl
  exact ⟨_, rfl, rfl⟩

/-! ### The next token -/

/-- A word begins with its first letter. -/
theorem not_atWord {c : UInt8} {word : Str} (rest : Bytes) (hne : word ≠ [])
    (h : word.head? ≠ some c) : ¬AtWord word (c :: rest) := by
  cases word with
  | nil => exact absurd rfl hne
  | cons w word => exact fun hp ↦ h (congrArg some (List.cons_prefix_cons.mp hp).1)

/-- White space and the two separators. -/
def gaps : List UInt8 :=
  [0x20, 0x09, 0x0a, 0x0d, 0x2c, 0x3a]

/-- White space and separators are passed over. -/
theorem mem_gaps {c : UInt8} (hc : IsSpace c ∨ c = 0x2c ∨ c = 0x3a) : c ∈ gaps := by
  rcases hc with (rfl | rfl | rfl | rfl) | rfl | rfl <;> decide

/-- White space and separators are passed over. -/
theorem findType_cons {c : UInt8} (hc : IsSpace c ∨ c = 0x2c ∨ c = 0x3a) (rest : Bytes) :
    findType (c :: rest) = findType rest := by
  have hne : ∀ k ∈ gaps, k ≠ 0x5b ∧ k ≠ 0x5d ∧
      k ≠ 0x7b ∧ k ≠ 0x7d ∧ k ≠ 0x22 ∧ k ∉ numberStart ∧ (ascii "true").head? ≠ some k ∧
      (ascii "false").head? ≠ some k ∧ (ascii "null").head? ≠ some k := by
    decide +kernel
  obtain ⟨h1, h2, h3, h4, h5, h6, h7, h8, h9⟩ := hne c (mem_gaps hc)
  rw [findType, if_neg h1, if_neg h2, if_neg h3, if_neg h4, if_neg h5, if_neg h6,
    if_neg (not_atWord rest (by decide) h7), if_neg (not_atWord rest (by decide) h8),
    if_neg (not_atWord rest (by decide) h9)]

/-- The text of a token that is not passed over begins with what `peek_type` searches for. -/
theorem findType_token (hplain : t.IsPlain) {type : DataType} (ht : t.type = some type)
    (rest : Bytes) : findType (t.text ++ rest) = some type := by
  cases t with
  | beginArray | endArray | beginObject | endObject | null | string => exact ht ▸ rfl
  | comma | colon => exact nomatch ht
  | bool b => cases b <;> exact ht ▸ rfl
  | number text =>
    obtain ⟨c, text, rfl, hc⟩ := (hplain _ rfl).exists_cons
    have hne : ∀ k ∈ numberStart, k ≠ 0x5b ∧ k ≠ 0x5d ∧ k ≠ 0x7b ∧ k ≠ 0x7d ∧ k ≠ 0x22 := by
      decide +kernel
    obtain ⟨h1, h2, h3, h4, h5⟩ := hne c hc
    show findType (c :: (text ++ rest)) = _
    rw [findType, if_neg h1, if_neg h2, if_neg h3, if_neg h4, if_neg h5, if_pos hc]
    exact ht

/-- Only separators. -/
def Separators (l : List Token) : Prop :=
  ∀ s ∈ l, s = .comma ∨ s = .colon

/-- What is passed over with separators. -/
theorem Separators.isSpace (hskip : Separators l) {before : Bytes}
    (hbefore : ∀ c ∈ before, IsSpace c ∨ ∃ s ∈ l, c ∈ s.text) :
    ∀ c ∈ before, IsSpace c ∨ c = 0x2c ∨ c = 0x3a := by
  intro c hc
  refine (hbefore c hc).imp_right fun ⟨s, hs, hcs⟩ ↦ ?_
  rcases hskip s hs with rfl | rfl
  · exact .inl (List.eq_of_mem_singleton hcs)
  · exact .inr (List.eq_of_mem_singleton hcs)

/-- `peek_type` sees the first token that is no separator. -/
theorem At.peekType {u : Unpacker} (h : u.At ts) {d : DataType}
    (ht : ts.findSome? Token.type = some d) : u.peekType = some d := by
  obtain ⟨text, htext, hplain, rfl⟩ := h
  obtain ⟨l, t, ts, rfl, ht, hskip⟩ := List.findSome?_eq_some_iff.mp ht
  have hsep : Separators l := fun s hs ↦ Token.separator_of_type (hskip s hs)
  obtain ⟨before, rest, rfl, -, hbefore⟩ := htext.split
  have hgaps := hsep.isSpace hbefore
  have htoken := findType_token (hplain t (by simp)) ht rest
  show findType (before ++ (t.text ++ rest)) = _
  clear hbefore htext
  induction before with
  | nil => exact htoken
  | cons c before ih =>
    rw [List.cons_append, findType_cons (hgaps c List.mem_cons_self)]
    exact ih fun c hc ↦ hgaps c (List.mem_cons_of_mem _ hc)

/-- The next token with a type is seen, and the pointer stays. -/
theorem leads_peek {type : DataType} (ht : ts.findSome? Token.type = some type) :
    Leads (At ts) peek type (At ts) := by
  intro u hu
  refine ⟨u, ?_, hu⟩
  show (u.peekType.getD .null, u) = _
  rw [hu.peekType ht, Option.getD_some]

/-! ### Strings -/

/-- A string without a quotation mark in it is read as it is written. -/
theorem leads_unpackKey {text : Str} (htext : 0x22 ∉ text) (hskip : ∀ s, .string s ∉ l) :
    Leads (At (l ++ .string text :: ts)) unpackKey text (At ts) := by
  rintro u ⟨data, hdata, hplain, rfl⟩
  obtain ⟨before, rest, rfl, hrest, hbefore⟩ := hdata.split
  refine ⟨_, ?_, rest, hrest, fun s hs ↦ hplain s (by simp [hs]), rfl⟩
  have hquote (s : Token) (hs : s ∈ l) : 0x22 ∉ s.text :=
    (hplain s (by simp [hs])).quote_not_mem fun text heq ↦ hskip text (heq ▸ hs)
  have hopen : (before ++ ((Token.string text).text ++ rest)).dropWhile (· ≠ 0x22) =
      0x22 :: (text ++ 0x22 :: rest) := by
    have hshape : (Token.string text).text ++ rest = 0x22 :: (text ++ 0x22 :: rest) := by
      show (0x22 :: text ++ [0x22]) ++ rest = _
      simp
    rw [hshape]
    refine dropWhile_before (fun b hb ↦ ?_) (by simp)
    rw [decide_eq_true_eq]
    rintro rfl
    rcases hbefore _ hb with h | ⟨s, hs, h⟩
    · exact absurd h (by decide)
    · exact hquote s hs h
  have hclose : (text ++ 0x22 :: rest).dropWhile (· ≠ 0x22) = 0x22 :: rest := by
    refine dropWhile_before (fun b hb ↦ ?_) (by simp)
    rw [decide_eq_true_eq]
    rintro rfl
    exact htext hb
  -- after the opening mark, after the closing mark is found, and beyond it
  refine Yields.bind (a := ()) (t := { rest := some (text ++ 0x22 :: rest) }) ?_ ?_
  · show safeFindAfter _ _ = _
    simp only [safeFindAfter, Bool.false_eq_true, if_false, hopen]
  refine .bind rfl <| .if_neg Bool.false_ne_true <| .bind rfl <|
    Yields.bind (a := ()) (t := { rest := some (0x22 :: rest) }) ?_ <|
    .bind rfl <| .if_neg Bool.false_ne_true ?_
  · show safeFind _ _ = _
    simp only [safeFind, Bool.false_eq_true, if_false, hclose]
  refine Yields.bind (a := text) (t := { rest := some (0x22 :: rest) }) ?_ <| .bind rfl <| .pure _ _
  show viewFrom (some (text ++ 0x22 :: rest)) _ = _
  have hlen : (text ++ 0x22 :: rest).length - (0x22 :: rest).length = text.length := by
    rw [List.length_append, Nat.add_sub_cancel]
  simp only [viewFrom, hlen, List.take_left]

/-! ### Words and numbers -/

/-- The search for a literal passes over white space and separators. -/
theorem findBool_cons {c : UInt8} (hc : IsSpace c ∨ c = 0x2c ∨ c = 0x3a) (rest : Bytes) :
    findBool (c :: rest) = findBool rest := by
  have hne : ∀ k ∈ gaps, (ascii "true").head? ≠ some k ∧ (ascii "false").head? ≠ some k := by
    decide +kernel
  obtain ⟨h1, h2⟩ := hne c (mem_gaps hc)
  rw [findBool, if_neg (not_atWord rest (by decide) h1), if_neg (not_atWord rest (by decide) h2)]

/-- It stops at the literal. -/
theorem findBool_word (b : Bool) (rest : Bytes) :
    findBool ((Token.bool b).text ++ rest) = some (b, rest) := by
  cases b <;> rfl

/-- A literal is read to its end. -/
theorem leads_unpackBool {b : Bool} (hskip : Separators l) :
    Leads (At (l ++ .bool b :: ts)) unpackBool b (At ts) := by
  rintro u ⟨text, htext, hplain, rfl⟩
  obtain ⟨before, rest, rfl, hrest, hbefore⟩ := htext.split
  refine ⟨_, ?_, rest, hrest, fun s hs ↦ hplain s (by simp [hs]), rfl⟩
  have hfind : findBool (before ++ ((Token.bool b).text ++ rest)) = some (b, rest) := by
    have hsep := hskip.isSpace hbefore
    clear hbefore htext
    induction before with
    | nil => exact findBool_word b rest
    | cons c before ih =>
      rw [List.cons_append, findBool_cons (hsep c List.mem_cons_self)]
      exact ih fun c hc ↦ hsep c (List.mem_cons_of_mem _ hc)
  show unpackBool _ = _
  simp only [unpackBool, hfind]

/-- `from_chars` reads a written integer and ignores what follows it. -/
theorem fromChars_decimalInt (i : Int32) {rest : Bytes} (hrest : ∀ c ∈ rest, ¬IsDigit c) :
    fromChars (decimalInt i.toInt ++ rest) = .value i := by
  have hdigits (n : ℕ) : (decimal n ++ rest).takeWhile (fun c ↦ IsDigit c) = decimal n := by
    rw [List.takeWhile_append_of_pos fun c hc ↦ decide_eq_true ((isDigits_decimal n).2 c hc)]
    cases rest with
    | nil => exact List.append_nil _
    | cons c rest =>
      rw [List.takeWhile_cons_of_neg (by simpa using hrest c List.mem_cons_self), List.append_nil]
  have hminus : ¬IsDigit 0x2d := by decide
  have hlow := i.le_toInt
  have hhigh := i.toInt_lt
  generalize hi : i.toInt = z at hlow hhigh
  cases z with
  | ofNat n =>
    have hhead : (decimal n ++ rest).head? ≠ some 0x2d := by
      obtain ⟨c, s, hs⟩ := List.exists_cons_of_ne_nil (isDigits_decimal n).1
      rw [hs]
      rintro heq
      exact hminus (Option.some.inj heq ▸ (isDigits_decimal n).2 c (hs ▸ List.mem_cons_self))
    simp only [decimalInt, fromChars, hhead, decide_false, Bool.false_eq_true, if_false, hdigits,
      digitsValue_decimal, (isDigits_decimal n).1]
    rw [if_pos ⟨hlow, hhigh⟩]
    exact congrArg _ (by rw [← Int32.ofInt_toInt i, hi]; rfl)
  | negSucc n =>
    have hshape : decimalInt (.negSucc n) ++ rest = 0x2d :: (decimal (n + 1) ++ rest) := rfl
    rw [hshape]
    simp only [fromChars, List.head?_cons, decide_true, if_true, List.tail_cons, hdigits,
      digitsValue_decimal, (isDigits_decimal (n + 1)).1, if_false]
    rw [if_pos ⟨hlow, hhigh⟩]
    exact congrArg _ (by rw [← Int32.ofInt_toInt i, hi]; rfl)

/-- An integer with a comma or a brace after it. -/
theorem leads_unpackInt {g i : Int32} (hskip : Separators l)
    (ht : t = .comma ∨ t = .endObject) :
    Leads (At (l ++ .number (decimalInt i.toInt) :: t :: ts)) (unpackInt g) i
      (At (t :: ts)) := by
  rintro u ⟨text, htext, hplain, rfl⟩
  obtain ⟨before, rest, rfl, hrest, hbefore⟩ := htext.split
  obtain ⟨space, rest, rfl, hrest, hspace⟩ := Spells.split (l := []) hrest
  have hnumber := isNumber_decimalInt i.toInt
  obtain ⟨c, tail, htail, hc⟩ := hnumber.exists_cons
  obtain ⟨k, hk, htext⟩ : ∃ k ∈ [(0x2c : UInt8), 0x7d], t.text = [k] := by
    rcases ht with rfl | rfl
    · exact ⟨_, List.mem_cons_self, rfl⟩
    · exact ⟨_, List.mem_cons_of_mem _ List.mem_cons_self, rfl⟩
  refine ⟨{ rest := some (t.text ++ rest) }, ?_, _, hrest.token,
    fun s hs ↦ hplain s (List.mem_append_right _ (List.mem_cons_of_mem _ hs)), rfl⟩
  have hspace (c : UInt8) (hc : c ∈ space) : IsSpace c :=
    (hspace c hc).elim id fun ⟨_, hs, _⟩ ↦ absurd hs List.not_mem_nil
  have hstart : (before ++ (decimalInt i.toInt ++ (space ++ (t.text ++ rest)))).dropWhile
      (· ∉ numberStart) = decimalInt i.toInt ++ (space ++ (t.text ++ rest)) := by
    rw [htail]
    refine dropWhile_before (fun b hb ↦ ?_) (by simpa using hc)
    have hgaps : ∀ k ∈ gaps, k ∉ numberStart := by decide +kernel
    exact decide_eq_true (hgaps b (mem_gaps (hskip.isSpace hbefore b hb)))
  have hend : (decimalInt i.toInt ++ (space ++ (t.text ++ rest))).dropWhile
      (· ∉ [(0x2c : UInt8), 0x7d]) = t.text ++ rest := by
    have hdigits : ∀ k ∈ ascii "0123456789-.+eE", k ∉ [(0x2c : UInt8), 0x7d] := by
      decide +kernel
    rw [← List.append_assoc, htext]
    refine dropWhile_before (fun b hb ↦ decide_eq_true ?_) (decide_eq_false (not_not.mpr hk))
    rcases List.mem_append.mp hb with hb | hb
    · exact hdigits b (hnumber.mem hb)
    · rcases hspace b hb with rfl | rfl | rfl | rfl <;> decide
  have hempty : ∀ {l : Bytes} {c l'}, l = c :: l' → l.isEmpty = false := fun h ↦ h ▸ rfl
  -- the number with the white space behind it
  refine Yields.bind (a := ())
    (t := { rest := some (decimalInt i.toInt ++ (space ++ (t.text ++ rest))) }) ?_ <|
    .bind rfl <| .if_neg Bool.false_ne_true <| .bind rfl <|
    Yields.bind (a := ()) (t := { rest := some (t.text ++ rest) }) ?_ <|
    .bind rfl <| .if_neg Bool.false_ne_true <| Yields.bind (a := decimalInt i.toInt ++ space)
      (t := { rest := some (t.text ++ rest) }) ?_ ?_
  · show safeFindAny _ { rest := some (before ++ (decimalInt i.toInt ++ _)) } = _
    simp only [safeFindAny, hstart]
    rw [hempty (by rw [htail]; rfl)]
  · show safeFindAny _ _ = _
    simp only [safeFindAny, hend]
    rw [hempty (by rw [htext]; rfl)]
  · show viewFrom (some _) _ = _
    have hlen : (decimalInt i.toInt ++ (space ++ (t.text ++ rest))).length -
        (t.text ++ rest).length = (decimalInt i.toInt ++ space).length := by
      simp only [List.length_append]
      omega
    simp only [viewFrom, hlen]
    rw [← List.append_assoc, List.take_left]
  · have hchars : fromChars (decimalInt i.toInt ++ space) = .value i := by
      refine fromChars_decimalInt i fun c hc hdigit ↦ ?_
      rcases hspace c hc with rfl | rfl | rfl | rfl <;> exact absurd hdigit (by decide)
    simp only [hchars]
    rfl

end Unpacker

end Json
