import PicoRadio.Bytes

/-!
# JSON texts

The texts of a JSON value: its tokens in order, with any white space between them. A number and a
string are kept as they are written, so that a value is read off a text without loss; `Encodes` says
which string a written one stands for. Strings are sequences of bytes: what is not ASCII stands for
itself.

`escape` is the encoding that escapes no more than it must.

## Texts and values

A text is related to its tokens (`Spells`) and the tokens are computed from the value
(`Value.tokens`), so a property of all texts of a value is proved by induction on the value once and
on the white space once. Nothing here parses: a reader of texts is compared with this relation, and
may accept more than it.
-/

namespace Json

/-! ### Values and their tokens -/

/-- A JSON value, with numbers and strings as they are written. -/
inductive Value
  | null
  | bool (b : Bool)
  | number (text : Str)
  | string (text : Str)
  | array (elements : List Value)
  | object (members : List (Str × Value))

/-- A token, with numbers and strings as they are written. -/
inductive Token
  | beginArray
  | endArray
  | beginObject
  | endObject
  | comma
  | colon
  | null
  | bool (b : Bool)
  | number (text : Str)
  | string (text : Str)
  deriving DecidableEq

/-- How a token is written. -/
def Token.text : Token → Str
  | beginArray => ascii "["
  | endArray => ascii "]"
  | beginObject => ascii "\x7b"
  | endObject => ascii "\x7d"
  | comma => ascii ","
  | colon => ascii ":"
  | null => ascii "null"
  | bool true => ascii "true"
  | bool false => ascii "false"
  | number text => text
  | string text => ascii "\"" ++ text ++ ascii "\""

mutual

/-- The tokens of a value, in order. -/
def Value.tokens : Value → List Token
  | .null => [.null]
  | .bool b => [.bool b]
  | .number text => [.number text]
  | .string text => [.string text]
  | .array elements => .beginArray :: ((elementTokens elements).tail ++ [.endArray])
  | .object members => .beginObject :: ((memberTokens members).tail ++ [.endObject])

/-- The tokens of the elements, with a comma before each. -/
def elementTokens : List Value → List Token
  | [] => []
  | v :: elements => .comma :: (v.tokens ++ elementTokens elements)

/-- The tokens of the members, with a comma before each. -/
def memberTokens : List (Str × Value) → List Token
  | [] => []
  | (name, v) :: members =>
    .comma :: .string name :: .colon :: (v.tokens ++ memberTokens members)

end

/-- Between the elements of an array stand commas. -/
theorem mem_elementTokens {t : Token} {vs : List Value} (h : t ∈ elementTokens vs) :
    t = .comma ∨ ∃ v ∈ vs, t ∈ v.tokens := by
  induction vs with
  | nil => exact nomatch h
  | cons v vs ih =>
    rw [elementTokens, List.mem_cons, List.mem_append] at h
    rcases h with h | h | h
    · exact .inl h
    · exact .inr ⟨v, List.mem_cons_self, h⟩
    · exact (ih h).imp_right fun ⟨w, hw, h⟩ ↦ ⟨w, List.mem_cons_of_mem _ hw, h⟩

/-- Between the members of an object stand commas, and behind each name a colon. -/
theorem mem_memberTokens {t : Token} {ms : List (Str × Value)} (h : t ∈ memberTokens ms) :
    t = .comma ∨ t = .colon ∨ ∃ m ∈ ms, t = .string m.1 ∨ t ∈ m.2.tokens := by
  induction ms with
  | nil => exact nomatch h
  | cons m ms ih =>
    obtain ⟨name, v⟩ := m
    rw [memberTokens, List.mem_cons, List.mem_cons, List.mem_cons, List.mem_append] at h
    rcases h with h | h | h | h | h
    · exact .inl h
    · exact .inr (.inr ⟨_, List.mem_cons_self, .inl h⟩)
    · exact .inr (.inl h)
    · exact .inr (.inr ⟨_, List.mem_cons_self, .inr h⟩)
    · exact (ih h).imp_right fun h ↦ h.imp_right fun ⟨m, hm, h⟩ ↦
        ⟨m, List.mem_cons_of_mem _ hm, h⟩

/-- What holds of every token of the elements, and of brackets and commas, holds of every token of
the array. -/
theorem forall_array {P : Token → Prop} {vs : List Value} (hbegin : P .beginArray)
    (hend : P .endArray) (hcomma : P .comma) (hvs : ∀ v ∈ vs, ∀ t ∈ v.tokens, P t) :
    ∀ t ∈ (Value.array vs).tokens, P t := by
  intro t ht
  rw [Value.tokens, List.mem_cons, List.mem_append] at ht
  rcases ht with rfl | ht | ht
  · exact hbegin
  · rcases mem_elementTokens (List.mem_of_mem_tail ht) with rfl | ⟨v, hv, ht⟩
    · exact hcomma
    · exact hvs v hv t ht
  · exact List.eq_of_mem_singleton ht ▸ hend

/-- What holds of every token of the members holds of every token of the object. -/
theorem forall_object {P : Token → Prop} {ms : List (Str × Value)} (hbegin : P .beginObject)
    (hend : P .endObject) (hcomma : P .comma) (hcolon : P .colon)
    (hms : ∀ m ∈ ms, P (.string m.1) ∧ ∀ t ∈ m.2.tokens, P t) :
    ∀ t ∈ (Value.object ms).tokens, P t := by
  intro t ht
  rw [Value.tokens, List.mem_cons, List.mem_append] at ht
  rcases ht with rfl | ht | ht
  · exact hbegin
  · rcases mem_memberTokens (List.mem_of_mem_tail ht) with rfl | rfl | ⟨m, hm, rfl | ht⟩
    · exact hcomma
    · exact hcolon
    · exact (hms m hm).1
    · exact (hms m hm).2 t ht
  · exact List.eq_of_mem_singleton ht ▸ hend

/-! ### White space -/

/-- Space, tab, line feed and carriage return. -/
def IsSpace (c : UInt8) : Prop :=
  c = 0x20 ∨ c = 0x09 ∨ c = 0x0a ∨ c = 0x0d

instance : DecidablePred IsSpace :=
  fun c ↦ inferInstanceAs (Decidable (c = 0x20 ∨ c = 0x09 ∨ c = 0x0a ∨ c = 0x0d))

/-- The text is the tokens in order, with white space around them. -/
inductive Spells : List Token → Bytes → Prop
  | nil {space : Bytes} (hspace : ∀ c ∈ space, IsSpace c) : Spells [] space
  | cons {space text : Bytes} {t : Token} {ts : List Token} (hspace : ∀ c ∈ space, IsSpace c)
      (hts : Spells ts text) : Spells (t :: ts) (space ++ (t.text ++ text))

/-- One more token in front. -/
theorem Spells.token {t : Token} {ts : List Token} {text : Bytes} (hts : Spells ts text) :
    Spells (t :: ts) (t.text ++ text) :=
  @Spells.cons [] _ _ _ nofun hts

/-- White space in front. -/
theorem Spells.space {ts : List Token} {space text : Bytes} (hspace : ∀ c ∈ space, IsSpace c)
    (h : Spells ts text) : Spells ts (space ++ text) := by
  cases h with
  | nil h => exact .nil fun c hc ↦ (List.mem_append.mp hc).elim (hspace c) (h c)
  | cons h hts =>
    rw [← List.append_assoc]
    exact .cons (fun c hc ↦ (List.mem_append.mp hc).elim (hspace c) (h c)) hts

/-- Tokens written without white space. -/
theorem spells_flatMap (ts : List Token) : Spells ts (ts.flatMap Token.text) := by
  induction ts with
  | nil => exact .nil nofun
  | cons t ts ih => exact ih.token

/-- A value without white space. -/
def Value.compact (v : Value) : Str :=
  v.tokens.flatMap Token.text

/-- Members without white space, with a comma before each. -/
def compactMembers (ms : List (Str × Value)) : Str :=
  (memberTokens ms).flatMap Token.text

@[simp]
theorem compactMembers_nil : compactMembers [] = [] :=
  rfl

@[simp]
theorem compactMembers_cons (name : Str) (v : Value) (ms : List (Str × Value)) :
    compactMembers ((name, v) :: ms) = ascii "," ++ (ascii "\"" ++ (name ++ (ascii "\":" ++
      (v.compact ++ compactMembers ms)))) := by
  rw [compactMembers, memberTokens, List.flatMap_cons, List.flatMap_cons, List.flatMap_cons,
    List.flatMap_append]
  simp only [Token.text, List.append_assoc]
  rfl

@[simp]
theorem Value.compact_string (s : Str) : (Value.string s).compact =
    ascii "\"" ++ (s ++ ascii "\"") := by
  rw [compact, tokens, List.flatMap_singleton, Token.text, List.append_assoc]

@[simp]
theorem Value.compact_number (text : Str) : (Value.number text).compact = text := by
  rw [compact, tokens, List.flatMap_singleton, Token.text]

@[simp]
theorem Value.compact_object (name : Str) (v : Value) (ms : List (Str × Value)) :
    (Value.object ((name, v) :: ms)).compact = ascii "\x7b" ++ (ascii "\"" ++ (name ++
      (ascii "\":" ++ (v.compact ++ (compactMembers ms ++ ascii "\x7d"))))) := by
  rw [compact, tokens, memberTokens, List.tail_cons, List.flatMap_cons, List.flatMap_append,
    List.flatMap_cons, List.flatMap_cons, List.flatMap_append]
  simp only [Token.text, List.append_assoc, List.flatMap_singleton]
  rfl

/-! ### Numbers -/

/-- A decimal digit. -/
def IsDigit (c : UInt8) : Prop :=
  0x30 ≤ c ∧ c ≤ 0x39

instance : DecidablePred IsDigit :=
  fun c ↦ inferInstanceAs (Decidable (0x30 ≤ c ∧ c ≤ 0x39))

/-- One digit or more. -/
def IsDigits (s : Str) : Prop :=
  s ≠ [] ∧ ∀ c ∈ s, IsDigit c

/-- The grammar of numbers: sign, integer part without a superfluous zero, fraction, exponent. -/
inductive IsNumber : Str → Prop
  | mk {sign whole fraction exponent : Str} (hsign : sign = [] ∨ sign = ascii "-")
      (hwhole : IsDigits whole) (hzero : whole.head? = some 0x30 → whole = [0x30])
      (hfraction : fraction = [] ∨ ∃ ds, IsDigits ds ∧ fraction = ascii "." ++ ds)
      (hexponent : exponent = [] ∨ ∃ e ∈ [ascii "e", ascii "E"], ∃ s ∈ [[], ascii "+", ascii "-"],
        ∃ ds, IsDigits ds ∧ exponent = e ++ s ++ ds) :
      IsNumber (sign ++ (whole ++ (fraction ++ exponent)))

/-- The number that digits stand for. -/
def digitsValue (s : Str) : ℕ :=
  s.foldl (fun n c ↦ 10 * n + (c.toNat - 0x30)) 0

/-- The last digit comes last. -/
theorem decimal_eq (n : ℕ) :
    decimal n =
      if n < 10 then [(0x30 + n).toUInt8] else decimal (n / 10) ++ [(0x30 + n % 10).toUInt8] := by
  have hdigit : ∀ d < 10, (Nat.digitChar d).toNat.toUInt8 = (0x30 + d).toUInt8 := by decide
  rw [decimal, Nat.toDigits_eq_if (by decide)]
  split
  · rw [List.map_singleton, hdigit n ‹_›]
  · rw [List.map_append, List.map_singleton, hdigit _ (Nat.mod_lt n (by decide)), decimal]

/-- Below ten there is a digit for it. -/
theorem isDigit_of_lt {d : ℕ} (hd : d < 10) : IsDigit (0x30 + d).toUInt8 := by
  have : ∀ d < 10, IsDigit (0x30 + d).toUInt8 := by decide
  exact this d hd

/-- A number is written in digits. -/
theorem isDigits_decimal (n : ℕ) : IsDigits (decimal n) := by
  induction n using Nat.strongRecOn with
  | ind n ih =>
    rw [decimal_eq]
    split
    · exact ⟨List.cons_ne_nil _ _, fun c hc ↦ List.eq_of_mem_singleton hc ▸ isDigit_of_lt ‹_›⟩
    · obtain ⟨-, hdigits⟩ := ih (n / 10) (by omega)
      refine ⟨by simp, fun c hc ↦ ?_⟩
      rcases List.mem_append.mp hc with hc | hc
      · exact hdigits c hc
      · exact List.eq_of_mem_singleton hc ▸ isDigit_of_lt (Nat.mod_lt n (by decide))

/-- The number of a digit. -/
theorem toNat_digit {d : ℕ} (hd : d < 10) : (0x30 + d).toUInt8.toNat - 0x30 = d := by
  have : ∀ d < 10, (0x30 + d).toUInt8.toNat - 0x30 = d := by decide
  exact this d hd

/-- What is written is the number. -/
@[simp]
theorem digitsValue_decimal (n : ℕ) : digitsValue (decimal n) = n := by
  induction n using Nat.strongRecOn with
  | ind n ih =>
    rw [decimal_eq]
    split
    · show 10 * 0 + _ = n
      rw [toNat_digit ‹_›]
      omega
    · have hrest := ih (n / 10) (by omega)
      rw [digitsValue] at hrest ⊢
      rw [List.foldl_append, hrest, List.foldl_cons, List.foldl_nil,
        toNat_digit (Nat.mod_lt n (by decide))]
      omega

/-- Only zero is written with a zero in front. -/
theorem eq_zero_of_head?_decimal {n : ℕ} (h : (decimal n).head? = some 0x30) : n = 0 := by
  induction n using Nat.strongRecOn with
  | ind n ih =>
    rw [decimal_eq] at h
    split at h
    · have hzero := toNat_digit (d := n) ‹_›
      rw [Option.some.inj h] at hzero
      exact hzero.symm
    · rw [List.head?_append_of_ne_nil _ (isDigits_decimal _).1] at h
      have := ih (n / 10) (by omega) h
      omega

/-- A number and its sign are a number of the grammar. -/
theorem isNumber_decimal {sign : Str} (hsign : sign = [] ∨ sign = ascii "-") (n : ℕ) :
    IsNumber (sign ++ decimal n) := by
  have := IsNumber.mk hsign (isDigits_decimal n) (fun h ↦ eq_zero_of_head?_decimal h ▸ rfl)
    (.inl rfl) (.inl rfl)
  rwa [List.append_nil, List.append_nil] at this

/-- Every integer is. -/
theorem isNumber_decimalInt (i : ℤ) : IsNumber (decimalInt i) := by
  cases i with
  | ofNat n => exact isNumber_decimal (.inl rfl) n
  | negSucc n => exact isNumber_decimal (.inr rfl) (n + 1)

/-! ### Strings -/

/-- The value of hexadecimal digits, either case. -/
def hexValue (s : Str) : Option ℕ :=
  s.foldlM (fun n c ↦
    if 0x30 ≤ c ∧ c ≤ 0x39 then some (16 * n + (c.toNat - 0x30))
    else if 0x41 ≤ c ∧ c ≤ 0x46 then some (16 * n + (c.toNat - 0x37))
    else if 0x61 ≤ c ∧ c ≤ 0x66 then some (16 * n + (c.toNat - 0x57))
    else none) 0

/-- The byte that a backslash and the character after it stand for. -/
def shortEscape : UInt8 → Option UInt8
  | 0x22 => some 0x22
  | 0x5c => some 0x5c
  | 0x2f => some 0x2f
  | 0x62 => some 0x08
  | 0x66 => some 0x0c
  | 0x6e => some 0x0a
  | 0x72 => some 0x0d
  | 0x74 => some 0x09
  | _ => none

/-- A byte that may not stand in a string as it is: the quotation mark, the backslash and the
control characters. -/
def MustEscape (c : UInt8) : Prop :=
  c = 0x22 ∨ c = 0x5c ∨ c < 0x20

instance : DecidablePred MustEscape :=
  fun c ↦ inferInstanceAs (Decidable (c = 0x22 ∨ c = 0x5c ∨ c < 0x20))

/-- What stands between the quotation marks, and the string it stands for. -/
inductive Encodes : Str → Str → Prop
  | nil : Encodes [] []
  | plain {c : UInt8} {text s : Str} (hc : ¬MustEscape c) (h : Encodes text s) :
      Encodes (c :: text) (c :: s)
  | short {e c : UInt8} {text s : Str} (hc : shortEscape e = some c) (h : Encodes text s) :
      Encodes (0x5c :: e :: text) (c :: s)
  | unicode {hex text s : Str} {c : Char} (hlen : hex.length = 4)
      (hhex : hexValue hex = some c.toNat) (h : Encodes text s) :
      Encodes (0x5c :: 0x75 :: (hex ++ text)) (String.utf8EncodeChar c ++ s)
  /-- A character beyond the first plane, as two surrogates. -/
  | surrogates {high low text s : Str} {m n : ℕ} {c : Char} (hlen : high.length = 4)
      (hhigh : hexValue high = some m) (hm : 0xd800 ≤ m ∧ m < 0xdc00) (hlen' : low.length = 4)
      (hlow : hexValue low = some n) (hn : 0xdc00 ≤ n ∧ n < 0xe000)
      (hc : c.toNat = 0x10000 + (m - 0xd800) * 0x400 + (n - 0xdc00)) (h : Encodes text s) :
      Encodes (0x5c :: 0x75 :: (high ++ 0x5c :: 0x75 :: (low ++ text)))
        (String.utf8EncodeChar c ++ s)

/-- A hexadecimal digit. -/
def hexDigit (n : ℕ) : UInt8 :=
  (if n < 10 then 0x30 + n else 0x57 + n).toUInt8

/-- The shortest way to write a byte in a string. -/
def escapeByte (c : UInt8) : Str :=
  if c = 0x22 then [0x5c, 0x22]
  else if c = 0x5c then [0x5c, 0x5c]
  else if c = 0x08 then [0x5c, 0x62]
  else if c = 0x0c then [0x5c, 0x66]
  else if c = 0x0a then [0x5c, 0x6e]
  else if c = 0x0d then [0x5c, 0x72]
  else if c = 0x09 then [0x5c, 0x74]
  else if c < 0x20 then [0x5c, 0x75, 0x30, 0x30, hexDigit (c.toNat / 16), hexDigit (c.toNat % 16)]
  else [c]

/-- A string in the encoding that escapes no more than it must. -/
def escape (s : Str) : Str :=
  s.flatMap escapeByte

/-- What need not be escaped stands for itself. -/
theorem escapeByte_of_not {c : UInt8} (hc : ¬MustEscape c) : escapeByte c = [c] := by
  have hne (k : UInt8) (hk : MustEscape k) : c ≠ k := fun h ↦ hc (h ▸ hk)
  have hle : ¬c < 0x20 := fun h ↦ hc (.inr (.inr h))
  rw [escapeByte, if_neg (hne _ (by decide)), if_neg (hne _ (by decide)),
    if_neg (hne _ (by decide)), if_neg (hne _ (by decide)), if_neg (hne _ (by decide)),
    if_neg (hne _ (by decide)), if_neg (hne _ (by decide)), if_neg hle]

/-- What must be escaped takes more than a byte. -/
theorem two_le_length_escapeByte {c : UInt8} (hc : MustEscape c) :
    2 ≤ (escapeByte c).length := by
  unfold escapeByte
  split_ifs with h1 h2 h3 h4 h5 h6 h7 h8
  case neg => exact absurd hc fun h ↦ h.elim h1 fun h ↦ h.elim h2 h8
  all_goals simp

/-- No byte is lost. -/
theorem one_le_length_escapeByte (c : UInt8) : 1 ≤ (escapeByte c).length := by
  by_cases hc : MustEscape c
  · exact Nat.le_of_succ_le (two_le_length_escapeByte hc)
  · rw [escapeByte_of_not hc]
    exact le_rfl

/-- A string in which nothing must be escaped is written as it is. -/
theorem escape_of_plain {s : Str} (h : ∀ c ∈ s, ¬MustEscape c) : escape s = s := by
  induction s with
  | nil => rfl
  | cons c s ih =>
    rw [escape, List.flatMap_cons, escapeByte_of_not (h c List.mem_cons_self)]
    exact congrArg (c :: ·) (ih fun c hc ↦ h c (List.mem_cons_of_mem _ hc))

/-- Escaping makes no string shorter. -/
theorem length_le_length_escape (s : Str) : s.length ≤ (escape s).length := by
  induction s with
  | nil => exact le_rfl
  | cons c s ih =>
    rw [escape, List.flatMap_cons, List.length_append, List.length_cons, Nat.add_comm]
    exact Nat.add_le_add (one_le_length_escapeByte c) ih

/-- A string is its own encoding just if nothing in it must be escaped. -/
theorem escape_eq_self_iff {s : Str} : escape s = s ↔ ∀ c ∈ s, ¬MustEscape c := by
  refine ⟨fun h ↦ ?_, escape_of_plain⟩
  induction s with
  | nil => exact nofun
  | cons c s ih =>
    have hlen := congrArg List.length h
    rw [escape, List.flatMap_cons, List.length_append, List.length_cons] at hlen
    have htail : s.length ≤ (s.flatMap escapeByte).length := length_le_length_escape s
    have hc : ¬MustEscape c := by
      intro hc
      have := two_le_length_escapeByte hc
      omega
    rw [escape, List.flatMap_cons, escapeByte_of_not hc] at h
    rintro d (_ | ⟨_, hd⟩)
    · exact hc
    · exact ih (List.cons_injective h) d hd

/-- Only a quotation mark is written with one. -/
theorem quote_not_mem_escape {s : Str} (h : 0x22 ∉ s) : 0x22 ∉ escape s := by
  have hhex : ∀ n < 0x10, hexDigit n ≠ 0x22 := by decide
  refine fun hmem ↦ h ?_
  obtain ⟨c, hc, hmem⟩ := List.mem_flatMap.mp hmem
  unfold escapeByte at hmem
  split_ifs at hmem with h1 h2 h3 h4 h5 h6 h7 h8
  · exact h1 ▸ hc
  iterate 6 exact absurd hmem (by decide)
  · have hlt : c.toNat < 0x20 := UInt8.lt_iff_toNat_lt.mp h8
    have hhigh := (hhex (c.toNat / 16) (by omega)).symm
    have hlow := (hhex (c.toNat % 16) (by omega)).symm
    simp [hhigh, hlow] at hmem
  · exact List.eq_of_mem_singleton hmem ▸ hc

/-- Such a string stands for itself. -/
theorem encodes_of_plain {s : Str} (h : ∀ c ∈ s, ¬MustEscape c) : Encodes s s := by
  induction s with
  | nil => exact .nil
  | cons c s ih =>
    exact .plain (h c List.mem_cons_self) (ih fun c hc ↦ h c (List.mem_cons_of_mem _ hc))

/-- The control characters that have no short form. -/
theorem Encodes.control {n : ℕ} (hn : n < 0x20) {text s : Str} (h : Encodes text s) :
    Encodes (0x5c :: 0x75 :: 0x30 :: 0x30 :: hexDigit (n / 16) :: hexDigit (n % 16) :: text)
      (n.toUInt8 :: s) := by
  have hhex : ∀ n < 0x20, hexValue [0x30, 0x30, hexDigit (n / 16), hexDigit (n % 16)] =
      some (Char.ofNat n).toNat := by decide
  have hchar : ∀ n < 0x20, String.utf8EncodeChar (Char.ofNat n) = [n.toUInt8] := by decide
  have := Encodes.unicode rfl (hhex n hn) h
  rwa [hchar n hn] at this

/-- What is escaped is read as it was. -/
theorem encodes_escape (s : Str) : Encodes (escape s) s := by
  induction s with
  | nil => exact .nil
  | cons c s ih =>
    rw [escape, List.flatMap_cons]
    change Encodes (escapeByte c ++ escape s) (c :: s)
    by_cases hc : MustEscape c
    · unfold escapeByte
      split_ifs with h1 h2 h3 h4 h5 h6 h7 h8
      · rw [h1]
        exact .short rfl ih
      · rw [h2]
        exact .short rfl ih
      · rw [h3]
        exact .short rfl ih
      · rw [h4]
        exact .short rfl ih
      · rw [h5]
        exact .short rfl ih
      · rw [h6]
        exact .short rfl ih
      · rw [h7]
        exact .short rfl ih
      · have := Encodes.control (UInt8.lt_iff_toNat_lt.mp h8) ih
        rwa [Nat.toUInt8_eq, UInt8.ofNat_toNat] at this
      · exact absurd hc fun h ↦ h.elim h1 fun h ↦ h.elim h2 h8
    · rw [escapeByte_of_not hc]
      exact .plain hc ih

/-- A token that the grammar allows. -/
def Token.Valid : Token → Prop
  | number text => IsNumber text
  | string text => ∃ s, Encodes text s
  | _ => True

/-- A natural number or a string in which nothing must be escaped, or no string and no number. -/
def Token.isSimple : Token → Bool
  | number text => !text.isEmpty && (text.all fun c ↦ IsDigit c) && !text.head? == some 0x30
  | string text => text.all fun c ↦ ¬MustEscape c
  | _ => true

/-- A simple token is written as it should be. -/
theorem Token.Valid.of_isSimple {t : Token} (h : t.isSimple = true) : t.Valid := by
  cases t with
  | number text =>
    obtain ⟨⟨hne, hdigits⟩, hhead⟩ : (text ≠ [] ∧ ∀ c ∈ text, IsDigit c) ∧
        text.head? ≠ some 0x30 := by
      simpa [isSimple] using h
    have := IsNumber.mk (.inl rfl) ⟨hne, hdigits⟩ (absurd · hhead) (.inl rfl) (.inl rfl)
    rwa [List.append_nil, List.append_nil] at this
  | string text => exact ⟨text, encodes_of_plain (by simpa [isSimple] using h)⟩
  | _ => trivial

/-- Bytes that are a JSON text of the value. -/
structure Value.IsText (v : Value) (text : Bytes) : Prop where
  spells : Spells v.tokens text
  valid : ∀ t ∈ v.tokens, t.Valid

/-- The shortest text of a value with simple tokens. -/
theorem Value.IsText.of_isSimple {v : Value} (h : v.tokens.all Token.isSimple = true) :
    v.IsText (v.tokens.flatMap Token.text) where
  spells := spells_flatMap v.tokens
  valid t ht := .of_isSimple (List.all_eq_true.mp h t ht)

end Json
