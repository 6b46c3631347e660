import PicoRadio.NetworkTables.TextFrames

/-!
# How the text loop reads an object

Two loops of the text case go over the members of an object. The one over the parameters of a
message turns a fixed number of times; the one over options or properties turns until it sees a
closing brace. Neither skips the value of a key it does not know: the second goes on with the next
string, wherever that is. `PassedOver` says when this does no harm: every string in the value is
then taken for a key, none of them selects a field, and none stands directly before a closing brace,
which would end the loop.

## Keys in the wrong place

The loops see a text as a sequence of strings and brackets. A value that is not skipped is therefore
read as if its strings were keys of the object itself, and `stringTypes` lists them together with
what follows each of them, which is all that the loop looks at. A value without strings is passed
over by the search for the next key. It does harm only where it is the last one: then the loop does
not see the closing brace.
-/

open Json Json.Unpacker

namespace Json

/-- The strings of a list of tokens, each with what `peek_type` finds behind it. -/
def stringTypes : List Token → List (Str × DataType)
  | [] => []
  | .string s :: ts =>
    match ts.findSome? Token.type with
    | some type => (s, type) :: stringTypes ts
    | none => stringTypes ts
  | _ :: ts => stringTypes ts

theorem stringTypes_cons_of_ne {t : Token} (ht : ∀ s, t ≠ .string s) (ts : List Token) :
    stringTypes (t :: ts) = stringTypes ts := by
  cases t with
  | string s => exact absurd rfl (ht s)
  | _ => rfl

theorem mem_stringTypes_cons {s : Str} {type : DataType} {ts : List Token}
    (h : ts.findSome? Token.type = some type) : (s, type) ∈ stringTypes (.string s :: ts) := by
  rw [stringTypes, h]
  exact List.mem_cons_self

theorem mem_stringTypes_of_mem {p : Str × DataType} {t : Token} {ts : List Token}
    (h : p ∈ stringTypes ts) : p ∈ stringTypes (t :: ts) := by
  by_cases ht : ∃ s, t = .string s
  · obtain ⟨s, rfl⟩ := ht
    rw [stringTypes]
    split
    · exact List.mem_cons_of_mem _ h
    · exact h
  · rwa [stringTypes_cons_of_ne fun s hs ↦ ht ⟨s, hs⟩]

/-- A value begins with a token that ends nothing. -/
theorem Value.exists_type (v : Value) (ts : List Token) : ∃ type,
    (v.tokens ++ ts).findSome? Token.type = some type ∧ type ≠ .objectEnd ∧ type ≠ .arrayEnd := by
  cases v with
  | null => exact ⟨_, rfl, by decide⟩
  | bool b => cases b <;> exact ⟨_, rfl, by decide⟩
  | number text => exact ⟨_, rfl, by decide⟩
  | string text => exact ⟨_, rfl, by decide⟩
  | array elements =>
    rw [tokens]
    exact ⟨_, rfl, by decide⟩
  | object members =>
    rw [tokens]
    exact ⟨_, rfl, by decide⟩

end Json

namespace NetworkTables

/-- What a loop with these fields does with the strings of the value is nothing, and it reads the
key and the strings as they are written. -/
structure PassedOver (selects : Str → DataType → Bool) (m : Str × Value) : Prop where
  key : 0x22 ∉ m.1
  strings : ∀ s, .string s ∈ m.2.tokens → 0x22 ∉ s
  quiet : ∀ p ∈ stringTypes m.2.tokens, p.2 ≠ .objectEnd ∧ selects p.1 p.2 = false

/-! ### Progress -/

theorem unpackKey_lt {u : Unpacker} (h : 0 < u.remaining) :
    (unpackKey u).2.remaining < u.remaining :=
  bind_findAfter_lt (fun _ ↦ along_failed.bind fun _ ↦ .ite (.pure _) <|
    along_rest.bind fun _ ↦ (along_safeFind _).bind fun _ ↦ along_failed.bind fun _ ↦
    .ite (.pure _) <| (along_viewFrom _).bind fun _ ↦ along_safeIncrement.bind fun _ ↦ .pure _) h

section Loops

variable {α : Type} {stop : DataType} {body : α → StateM Unpacker α}
  {field : Str → DataType → Option (α → StateM Unpacker α)}
  {param : Str → Option (α → StateM Unpacker α)}

theorem along_whileNot (hbody : ∀ a, Along Beyond (body a)) (a : α) :
    Along Beyond (whileNot stop body a) :=
  .whileDo hbody a

theorem along_readIf {read : Option (α → StateM Unpacker α)}
    (hread : ∀ r, read = some r → ∀ a, Along Beyond (r a)) (a : α) :
    Along Beyond (readIf read a) := by
  cases read with
  | none => exact .pure a
  | some r => exact hread r rfl a

theorem along_readParams (hparam : ∀ key r, param key = some r → ∀ a, Along Beyond (r a)) (n : ℕ)
    (a : α) : Along Beyond (readParams param n a) := by
  induction n generalizing a with
  | zero => exact .pure a
  | succ n ih => exact along_unpackKey.bind fun key ↦ (along_readIf (hparam key) a).bind ih

/-- What is asked of the fields of an object: reading one does not move the pointer back, and no
field is read where a string or a closing brace comes next. -/
structure FieldsRegular (field : Str → DataType → Option (α → StateM Unpacker α)) : Prop where
  along : ∀ key type r, field key type = some r → ∀ a, Along Beyond (r a)
  str : ∀ key, field key .str = none
  objectEnd : ∀ key, field key .objectEnd = none

theorem FieldsRegular.along_readEntry (hfield : FieldsRegular field) (a : α) :
    Along Beyond (readEntry field a) :=
  along_unpackKey.bind fun key ↦ along_peek.bind fun type ↦ along_readIf (hfield.along key type) a

theorem FieldsRegular.along_readEntries (hfield : FieldsRegular field) (a : α) :
    Along Beyond (readEntries field a) :=
  (along_safeFindAfter _).bind fun _ ↦ (along_whileNot hfield.along_readEntry a).bind fun _ ↦
    (along_safeFindAfter _).bind fun _ ↦ .pure _

/-- The loop over an object ends. -/
theorem FieldsRegular.shrinks (hfield : FieldsRegular field) (stop : DataType) :
    Shrinks remaining (fun u ↦ u.peekType.any (· ≠ stop)) (readEntry field) := fun a u hu ↦
  (((along_peek.bind fun type ↦ along_readIf (hfield.along (unpackKey u).1 type) a) :
    Along Beyond _) (unpackKey u).2).trans_lt (unpackKey_lt (remaining_pos hu))

end Loops

/-! ### Members of an object -/

section Members

variable {α : Type} {field : Str → DataType → Option (α → StateM Unpacker α)}
  {param : Str → Option (α → StateM Unpacker α)} {a : α} {ts : List Token}

/-- Reading a value does `f` to what has been read so far, and stops before what follows it. -/
def ReadsValue (read : α → StateM Unpacker α) (v : Value) (f : α → α) : Prop :=
  ∀ a t ts, t = Token.comma ∨ t = Token.endObject →
    Leads (At (.colon :: (v.tokens ++ t :: ts))) (read a) (f a) (At (t :: ts))

/-- The member is a field of the object, and reading it does `f`. -/
structure ReadsEntry (field : Str → DataType → Option (α → StateM Unpacker α)) (m : Str × Value)
    (f : α → α) : Prop where
  key : 0x22 ∉ m.1
  read : ∃ type r, (∀ ts, (m.2.tokens ++ ts).findSome? Token.type = some type) ∧
    field m.1 type = some r ∧ ReadsValue r m.2 f

/-- The loop selects a field by this key, with a value of this type. -/
abbrev selected (field : Str → DataType → Option (α → StateM Unpacker α)) (key : Str)
    (type : DataType) : Bool :=
  (field key type).isSome

theorem of_not_selected {key : Str} {type : DataType} (h : selected field key type = false) :
    field key type = none :=
  Option.not_isSome_iff_eq_none.mp (Bool.eq_false_iff.mp h)

/-- What the loop does with the members of an object. A member it does not know may be the last
only if its value is a string. -/
inductive ReadsEntries (field : Str → DataType → Option (α → StateM Unpacker α)) :
    List (Str × Value) → (α → α) → Prop
  | nil : ReadsEntries field [] id
  | known {m : Str × Value} {ms : List (Str × Value)} {f g : α → α} (hm : ReadsEntry field m f)
      (hms : ReadsEntries field ms g) : ReadsEntries field (m :: ms) (g ∘ f)
  | unknown {m : Str × Value} {ms : List (Str × Value)} {g : α → α}
      (hkey : ∀ d, field m.1 d = none) (hm : PassedOver (selected field) m)
      (hlast : ms = [] → ∃ s, m.2 = .string s) (hms : ReadsEntries field ms g) :
      ReadsEntries field (m :: ms) g

variable {ms : List (Str × Value)} {f : α → α}

/-- The loop goes on at a member, or at anything else that is no closing brace. -/
theorem whileNot_next (hfield : FieldsRegular field) {d : DataType} {b c : α}
    {k l : List Token} {R : Unpacker → Prop} (ht : k.findSome? Token.type = some d)
    (hne : d ≠ .objectEnd) (hbody : Leads (At k) (readEntry field a) b (At l))
    (hrest : Leads (At l) (whileNot .objectEnd (readEntry field) b) c R) :
    Leads (At k) (whileNot .objectEnd (readEntry field) a) c R := by
  refine .whileDo_next (hfield.shrinks _) (fun u hu ↦ ?_) hbody hrest
  rw [hu.peekType ht]
  exact decide_eq_true hne

/-- A string that selects no field is taken for a key, and nothing else happens. -/
theorem readEntry_none {s : Str} {d : DataType} {l ts : List Token} (hs : 0x22 ∉ s)
    (hskip : ∀ s, .string s ∉ l) (ht : ts.findSome? Token.type = some d)
    (hnone : field s d = none) :
    Leads (At (l ++ .string s :: ts)) (readEntry field a) a (At ts) := by
  refine (leads_unpackKey hs hskip).bind <| (leads_peek ht).bind ?_
  rw [hnone]
  exact .pure a

/-- A token is seen before a key that is no closing brace. -/
theorem exists_type_before {l : List Token}
    (hend : l.findSome? Token.type ≠ some .objectEnd) (s : Str) (ts : List Token) : ∃ type,
    (l ++ .string s :: ts).findSome? Token.type = some type ∧ type ≠ .objectEnd := by
  rw [List.findSome?_append]
  cases hskip : l.findSome? Token.type with
  | none => exact ⟨.str, rfl, by decide⟩
  | some type => exact ⟨type, rfl, fun h ↦ hend (hskip.trans (congrArg some h))⟩

/-- The loop passes over tokens in which it does nothing, up to the next key. It reaches the key
with the tokens behind the last string still before it. -/
theorem leads_ignored (hfield : FieldsRegular field) {rest : List Token} {b : α}
    {R : Unpacker → Prop} (hstr : rest.findSome? Token.type = some .str)
    (hrest : ∀ l, (∀ s, .string s ∉ l) → l.findSome? Token.type ≠ some .objectEnd →
      Leads (At (l ++ rest)) (whileNot .objectEnd (readEntry field) a) b R)
    {noise : List Token} (hstrings : ∀ s, .string s ∈ noise → 0x22 ∉ s)
    (hquiet : ∀ p ∈ stringTypes noise, p.2 ≠ .objectEnd ∧ selected field p.1 p.2 = false)
    {l : List Token} (hskip : ∀ s, .string s ∉ l)
    (hend : (l ++ noise).findSome? Token.type ≠ some .objectEnd) :
    Leads (At (l ++ (noise ++ rest))) (whileNot .objectEnd (readEntry field) a) b R := by
  induction noise generalizing l with
  | nil => exact hrest l hskip (List.append_nil l ▸ hend)
  | cons t noise ih =>
    have ih' := @ih (fun s hs ↦ hstrings s (List.mem_cons_of_mem _ hs))
      fun p hp ↦ hquiet p (mem_stringTypes_of_mem hp)
    by_cases ht : ∃ s, t = .string s
    · obtain ⟨s, rfl⟩ := ht
      -- what is seen behind the string, in the value or at the next key
      obtain ⟨type, htype, hnone, hne⟩ : ∃ type,
          (noise ++ rest).findSome? Token.type = some type ∧ field s type = none ∧
            noise.findSome? Token.type ≠ some .objectEnd := by
        rw [List.findSome?_append]
        cases hnoise : noise.findSome? Token.type with
        | none => exact ⟨_, hstr, hfield.str s, nofun⟩
        | some type =>
          obtain ⟨hne, hnone⟩ := hquiet _ (mem_stringTypes_cons hnoise)
          exact ⟨type, rfl, of_not_selected hnone, fun h ↦ hne (Option.some.inj h)⟩
      obtain ⟨type', htype', hne'⟩ : ∃ type',
          (l ++ .string s :: (noise ++ rest)).findSome? Token.type = some type' ∧
            type' ≠ .objectEnd := by
        refine exists_type_before (fun h ↦ hend ?_) s _
        rw [List.findSome?_append, h, Option.some_or]
      exact whileNot_next hfield htype' hne'
        (readEntry_none (hstrings s List.mem_cons_self) hskip htype hnone)
        (ih' (l := []) (fun _ ↦ List.not_mem_nil) hne)
    · have hshape (q : List Token) : l ++ (t :: q) = l ++ [t] ++ q := by simp
      rw [List.cons_append, hshape]
      refine ih' (fun s hs ↦ ?_) (hshape noise ▸ hend)
      rcases List.mem_append.mp hs with hs | hs
      · exact hskip s hs
      · exact ht ⟨s, (List.eq_of_mem_singleton hs).symm⟩

/-- What comes after a value in an object. -/
theorem exists_memberTokens (ms : List (Str × Value)) (ts : List Token) : ∃ t ts',
    memberTokens ms ++ .endObject :: ts = t :: ts' ∧ (t = .comma ∨ t = .endObject) := by
  cases ms with
  | nil => exact ⟨_, _, rfl, .inr rfl⟩
  | cons m ms =>
    rw [memberTokens]
    exact ⟨_, _, rfl, .inl rfl⟩

/-- The other members, with the comma before them. -/
theorem memberTokens_of_ne_nil {ms : List (Str × Value)} (hne : ms ≠ []) :
    memberTokens ms = .comma :: (memberTokens ms).tail := by
  obtain ⟨m, ms, rfl⟩ := List.exists_cons_of_ne_nil hne
  rw [memberTokens]
  rfl

/-- The first of the other members is a key. -/
theorem findSome?_memberTokens {ms : List (Str × Value)} (hne : ms ≠ []) (ts : List Token) :
    (memberTokens ms ++ ts).findSome? Token.type = some .str := by
  obtain ⟨m, ms, rfl⟩ := List.exists_cons_of_ne_nil hne
  rw [memberTokens]
  rfl

/-- The loop over the members of an object stops at its closing brace. -/
theorem leads_entries (hfield : FieldsRegular field) (h : ReadsEntries field ms f) {l : List Token}
    (hnil : ms = [] → l = []) (hskip : ∀ s, .string s ∉ l)
    (hend : l.findSome? Token.type ≠ some .objectEnd) :
    Leads (At (l ++ ((memberTokens ms).tail ++ .endObject :: ts)))
      (whileNot .objectEnd (readEntry field) a) (f a) (At (.endObject :: ts)) := by
  induction h generalizing a l with
  | nil =>
    rw [hnil rfl]
    refine .whileDo_done (hfield.shrinks _) a fun u hu ↦ ?_
    rw [hu.peekType (d := .objectEnd) rfl]
    rfl
  | @known m ms f g hm hms ih =>
    obtain ⟨k, v⟩ := m
    obtain ⟨type, r, htype, hr, hread⟩ := hm.read
    obtain ⟨t, ts', hnext, ht⟩ := exists_memberTokens ms ts
    rw [memberTokens, List.tail_cons, List.cons_append, List.cons_append, List.append_assoc, hnext]
    obtain ⟨type', htype', hne⟩ := exists_type_before hend k (.colon :: (v.tokens ++ t :: ts'))
    refine whileNot_next (l := t :: ts') (b := f a) hfield htype' hne ?_ ?_
    · have hpeek : Leads (At (.colon :: (v.tokens ++ t :: ts'))) peek type
          (At (.colon :: (v.tokens ++ t :: ts'))) := leads_peek (htype (t :: ts'))
      refine (leads_unpackKey hm.key hskip).bind <| hpeek.bind ?_
      rw [hr]
      exact hread a t ts' ht
    · rw [← hnext]
      rcases eq_or_ne ms [] with rfl | hms
      · exact ih (l := []) (fun _ ↦ rfl) (fun _ ↦ List.not_mem_nil) (by decide)
      · rw [memberTokens_of_ne_nil hms]
        exact ih (l := [.comma]) (absurd · hms) (by simp) (by decide)
  | @unknown m ms g hkey hm hlast hms ih =>
    obtain ⟨k, v⟩ := m
    rw [memberTokens, List.tail_cons, List.cons_append, List.cons_append, List.append_assoc]
    obtain ⟨type', htype', hne⟩ :=
      exists_type_before hend k (.colon :: (v.tokens ++ (memberTokens ms ++ .endObject :: ts)))
    obtain ⟨type, htype, -⟩ := v.exists_type (memberTokens ms ++ .endObject :: ts)
    refine whileNot_next hfield htype' hne
      (readEntry_none (d := type) hm.key hskip htype (hkey type)) ?_
    rcases eq_or_ne ms [] with rfl | hne
    · -- the value of the last member is the last key
      obtain ⟨s, rfl : v = .string s⟩ := hlast rfl
      refine whileNot_next (d := .str) hfield rfl (by decide)
        (readEntry_none (l := [.colon]) (d := .objectEnd) (hm.strings s List.mem_cons_self)
          (by simp) rfl (hfield.objectEnd s)) ?_
      exact ih (l := []) (fun _ ↦ rfl) (fun _ ↦ List.not_mem_nil) (by decide)
    · refine leads_ignored (l := [.colon]) hfield (findSome?_memberTokens hne _)
        (fun l hskip hend ↦ ?_) hm.strings hm.quiet (by simp) ?_
      · have := ih (a := a) (l := l ++ [.comma]) (absurd · hne)
          (fun s hs ↦ (List.mem_append.mp hs).elim (hskip s) (by simp)) ?_
        · rwa [List.append_assoc, List.singleton_append, ← List.cons_append,
            ← memberTokens_of_ne_nil hne] at this
        · rw [List.findSome?_append]
          cases h : l.findSome? Token.type with
          | none => exact fun heq ↦ by cases heq
          | some type => exact fun heq ↦ hend (h.trans heq)
      · obtain ⟨type, htype, hne, -⟩ := v.exists_type []
        rw [List.append_nil] at htype
        show v.tokens.findSome? Token.type ≠ _
        rw [htype]
        exact fun h ↦ hne (Option.some.inj h)

/-- Reading an object of options or properties. -/
theorem readsValue_readEntries (hfield : FieldsRegular field) (h : ReadsEntries field ms f) :
    ReadsValue (readEntries field) (.object ms) f := by
  intro a t ts _
  rw [Value.tokens, List.cons_append, List.append_assoc]
  have hentries := @leads_entries _ _ a (t :: ts) _ _ hfield h [] (fun _ ↦ rfl)
    (fun _ ↦ List.not_mem_nil) (by decide)
  refine (leads_findAfter (l := [.colon]) (by decide) rfl ?_).bind <| hentries.bind <|
    (leads_findAfter (l := []) (by decide) rfl (.nil _)).bind <| .pure _
  simp [Passes, Token.text, ascii]

/-- The fold over the members does the same if each of them either is read or has no effect. -/
theorem readsEntries_of_forall {ε : Type} {member : ε → Str × Value} {set : ε → α → α}
    {isOther : ε → Bool} {es : List ε}
    (hknown : ∀ e ∈ es, isOther e = false → ReadsEntry field (member e) (set e))
    (hset : ∀ e ∈ es, isOther e = true → ∀ a, set e a = a)
    (hother : ∀ e ∈ es, isOther e = true →
      (∀ d, field (member e).1 d = none) ∧ PassedOver (selected field) (member e))
    (hlast : ∀ e, es.getLast? = some e → isOther e = true → ∃ s, (member e).2 = .string s) :
    ReadsEntries field (es.map member) fun a ↦ es.foldl (fun a e ↦ set e a) a := by
  induction es with
  | nil => exact .nil
  | cons e es ih =>
    have ih' := ih (fun e he ↦ hknown e (List.mem_cons_of_mem _ he))
      (fun e he ↦ hset e (List.mem_cons_of_mem _ he))
      (fun e he ↦ hother e (List.mem_cons_of_mem _ he)) fun e' he' ↦ hlast e' (by
        rw [List.getLast?_cons, he', Option.getD_some])
    cases he : isOther e with
    | false => exact .known (hknown e List.mem_cons_self he) ih'
    | true =>
      obtain ⟨hkey, hignored⟩ := hother e List.mem_cons_self he
      simp only [List.foldl_cons, hset e List.mem_cons_self he]
      refine .unknown hkey hignored (fun hnil ↦ hlast e ?_ he) ih'
      rw [List.map_eq_nil_iff.mp hnil]
      rfl

/-! ### Parameters -/

/-- What a loop over parameters does with one of them. -/
structure ReadsParam (param : Str → Option (α → StateM Unpacker α)) (m : Str × Value)
    (f : α → α) : Prop where
  key : 0x22 ∉ m.1
  read : ∃ r, param m.1 = some r ∧ ReadsValue r m.2 f

/-- The loop over the parameters, where there are as many as it reads. -/
theorem leads_readParams {ε : Type} {member : ε → Str × Value} {act : ε → α → α} {es : List ε}
    (h : ∀ e ∈ es, ReadsParam param (member e) (act e)) {l : List Token}
    (hnil : es = [] → l = []) (hskip : ∀ s, .string s ∉ l) :
    Leads (At (l ++ ((memberTokens (es.map member)).tail ++ .endObject :: ts)))
      (readParams param es.length a) (es.foldl (fun a e ↦ act e a) a) (At (.endObject :: ts)) := by
  induction es generalizing a l with
  | nil =>
    rw [hnil rfl]
    exact .pure a
  | cons e es ih =>
    obtain ⟨r, hr, hread⟩ := (h e List.mem_cons_self).read
    obtain ⟨t, ts', hnext, ht⟩ := exists_memberTokens (es.map member) ts
    rw [List.map_cons, memberTokens, List.tail_cons, List.cons_append, List.cons_append,
      List.append_assoc, hnext]
    refine (leads_unpackKey (h e List.mem_cons_self).key hskip).bind ?_
    rw [hr]
    refine (hread a t ts' ht).bind ?_
    rw [← hnext]
    have ih' l := @ih (act e a) (fun e' he' ↦ h e' (List.mem_cons_of_mem _ he')) l
    rcases eq_or_ne es [] with rfl | hes
    · exact ih' [] (fun _ ↦ rfl) fun _ ↦ List.not_mem_nil
    · rw [memberTokens_of_ne_nil (fun h ↦ hes (List.map_eq_nil_iff.mp h))]
      exact ih' [.comma] (absurd · hes) (by simp)

end Members

end NetworkTables
