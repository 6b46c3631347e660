import PicoRadio.NetworkTables.Announcements
import PicoRadio.NetworkTables.TopicNames

/-!
# Updates of properties with nulls

A `setproperties` message may give a property as null, to leave it as it is. `unpack_default_bool`
sees the null and does not pass over it. Before another member this does no harm: the search for the
next key passes over the null. Behind the last member the loop sees it instead of the closing brace
and searches for a key beyond the object: in the name, if that comes behind the update, or in the
next message.

So the message and those behind it are read as they are meant exactly if the update does not end in
a null, and the name is written without escapes (`readRightly_iff`).

## Where it shows

Both conditions can be seen in the message as it is written. The first one has an exception at the
end of a frame: if the name was read before, nothing is left for the search to find, and no harm is
done (`ReadRightlyLast`).

Reading is followed token by token. The loop over the entries of the update, the loop over the
parameters and the loop over the messages each go on from where the one inside has stopped, and
`behind` says what is left for them.
-/

open Json Json.Unpacker

namespace NetworkTables

/-! ### Messages -/

inductive PropertyName
  | persistent
  | retained
  | cached
  deriving DecidableEq

namespace PropertyName

def key : PropertyName → Str
  | persistent => ascii "persistent"
  | retained => ascii "retained"
  | cached => ascii "cached"

/-- What the handler holds of the property. -/
def get (l : SetPropertiesLocals) : PropertyName → Option Bool
  | persistent => l.persistent
  | retained => l.retained
  | cached => l.cached

/-- What reading the property does. -/
def set (value : Option Bool) (l : SetPropertiesLocals) : PropertyName → SetPropertiesLocals
  | persistent => { l with persistent := value }
  | retained => { l with retained := value }
  | cached => { l with cached := value }

end PropertyName

/-- A message that gives each of some properties a boolean or null. -/
structure PropertiesUpdate where
  /-- The name of the topic. -/
  name : Str
  /-- What is written for the name. -/
  text : Str
  encodes : Json.Encodes text name
  /-- The properties in the order they are written, null as `none`. -/
  entries : List (PropertyName × Option Bool)
  nodup : (entries.map Prod.fst).Nodup
  /-- The name is written before the update. -/
  nameFirst : Bool

namespace PropertiesUpdate

/-- The boolean that is given for the property. -/
def given (entries : List (PropertyName × Option Bool)) (p : PropertyName) : Option Bool :=
  (entries.find? fun e ↦ e.1 = p).bind Prod.snd

/-- How a property is written. -/
def member (e : PropertyName × Option Bool) : PropertyMember :=
  match e.2 with
  | none => .other e.1.key .null
  | some b =>
    match e.1 with
    | .persistent => .persistent b
    | .retained => .retained b
    | .cached => .cached b

variable (u : PropertiesUpdate)

/-- The message as it is written. -/
def written : WrittenMessage :=
  let update := SetPropertiesMember.update (u.entries.map member)
  .setproperties (if u.nameFirst then [.name u.text, update] else [update, .name u.text])

/-- The message as it is meant. -/
def message : ClientMessage :=
  .setproperties u.name (given u.entries .persistent) (given u.entries .retained)
    (given u.entries .cached)

/-- The properties of a topic after the update. -/
def apply (old : TopicProperties) : TopicProperties where
  persistent := (given u.entries .persistent).getD old.persistent
  retained := (given u.entries .retained).getD old.retained
  cached := (given u.entries .cached).getD old.cached

/-- The last property is null. -/
def EndsInNull : Prop :=
  ∃ p, u.entries.getLast? = some (p, none)

/-- The name is written as it is. -/
def NamePlain : Prop :=
  0x22 ∉ u.text ∧ u.text = u.name

/-- Between any messages that the loop reads, the message is read as it is meant, and so are the
others. -/
def ReadRightly : Prop :=
  ∀ (init : Locals) (before after : List WrittenMessage) (ms ms' : List ClientMessage)
    (payload : Bytes), List.Forall₂ (Reads init) before ms → List.Forall₂ (Reads init) after ms' →
    (frameValue (before ++ u.written :: after)).IsText payload →
    textMessages init payload = ms ++ u.message :: ms'

/-- At the end of its frame the message is read as it is meant, and so are those before it. -/
def ReadRightlyLast : Prop :=
  ∀ (init : Locals) (before : List WrittenMessage) (ms : List ClientMessage) (payload : Bytes),
    List.Forall₂ (Reads init) before ms → (frameValue (before ++ [u.written])).IsText payload →
    textMessages init payload = ms ++ [u.message]

end PropertiesUpdate

/-! ### The entries of an update -/

section Entries

open PropertiesUpdate

variable {entries : List (PropertyName × Option Bool)} {a : SetPropertiesLocals}

/-- The members of the object. -/
def entryMembers (entries : List (PropertyName × Option Bool)) : List (Str × Value) :=
  (entries.map PropertiesUpdate.member).map PropertyMember.member

/-- A null is seen behind its key and stays where it is. -/
theorem leads_null (p : PropertyName) {l : List Token} (hskip : ∀ s, .string s ∉ l)
    (ts : List Token) :
    Leads (At (l ++ .string p.key :: .colon :: .null :: ts)) (readEntry updateField a)
      (p.set none a) (At (.colon :: .null :: ts)) := by
  have hquote : 0x22 ∉ p.key := by
    cases p <;> decide
  have hpeek : Leads (At (.colon :: .null :: ts)) peek .null (At (.colon :: .null :: ts)) :=
    leads_peek rfl
  have hdefault : Leads (At (.colon :: .null :: ts)) unpackDefaultBool none
      (At (.colon :: .null :: ts)) :=
    hpeek.bind (.if_pos rfl (.pure none))
  refine (leads_unpackKey hquote hskip).bind <| hpeek.bind ?_
  cases p with
  | persistent => exact hdefault.map fun persistent ↦ { a with persistent }
  | retained => exact hdefault.map fun retained ↦ { a with retained }
  | cached => exact hdefault.map fun cached ↦ { a with cached }

/-- A boolean is read behind its key. -/
theorem leads_boolean (p : PropertyName) (b : Bool) {l : List Token} (hskip : ∀ s, .string s ∉ l)
    {t : Token} (ht : t = .comma ∨ t = .endObject) (ts : List Token) :
    Leads (At (l ++ .string p.key :: .colon :: .bool b :: t :: ts)) (readEntry updateField a)
      (p.set (some b) a) (At (t :: ts)) := by
  have hentry : ReadsEntry updateField (p.key, .bool b) (p.set (some b) ·) := by
    cases p with
    | persistent => exact readsEntry_update (e := .persistent b) rfl
    | retained => exact readsEntry_update (e := .retained b) rfl
    | cached => exact readsEntry_update (e := .cached b) rfl
  obtain ⟨type, r, htype, hr, hread⟩ := hentry.read
  have hpeek : Leads (At (.colon :: .bool b :: t :: ts)) peek type
      (At (.colon :: .bool b :: t :: ts)) := leads_peek (htype (t :: ts))
  refine (leads_unpackKey hentry.key hskip).bind <| hpeek.bind ?_
  rw [hr]
  exact hread a t ts ht

/-- The tokens of a member, and those of the others. -/
theorem entryMembers_cons (e : PropertyName × Option Bool)
    (entries : List (PropertyName × Option Bool)) :
    (memberTokens (entryMembers (e :: entries))).tail =
      .string e.1.key :: .colon ::
        (e.2.elim Token.null Token.bool :: memberTokens (entryMembers entries)) := by
  obtain ⟨p, _ | b⟩ := e
  · rfl
  · cases p <;> rfl

/-- What the loop still has before it behind the last member. -/
def behind (entries : List (PropertyName × Option Bool)) : List Token :=
  match entries.getLast?.map Prod.snd with
  | some none => [.colon, .null]
  | some (some _) | none => []

theorem behind_cons (e : PropertyName × Option Bool) {entries : List (PropertyName × Option Bool)}
    (hne : entries ≠ []) : behind (e :: entries) = behind entries := by
  obtain ⟨e', entries, rfl⟩ := List.exists_cons_of_ne_nil hne
  rw [behind, behind, List.getLast?_cons_cons]

/-- The loop over the members comes to the closing brace, if there is no null before it. -/
theorem leads_nullable {l ts : List Token} {b : SetPropertiesLocals} {R : Unpacker → Prop}
    (hnil : entries = [] → l = []) (hskip : ∀ s, .string s ∉ l)
    (hend : l.findSome? Token.type ≠ some .objectEnd)
    (hrest : Leads (At (behind entries ++ .endObject :: ts))
      (whileNot .objectEnd (readEntry updateField)
        (entries.foldl (fun a e ↦ e.1.set e.2 a) a)) b R) :
    Leads (At (l ++ ((memberTokens (entryMembers entries)).tail ++ .endObject :: ts)))
      (whileNot .objectEnd (readEntry updateField) a) b R := by
  induction entries generalizing a l with
  | nil =>
    rw [hnil rfl]
    exact hrest
  | cons e entries ih =>
    obtain ⟨p, value⟩ := e
    obtain ⟨t, ts', hnext, ht⟩ := exists_memberTokens (entryMembers entries) ts
    rw [entryMembers_cons, List.cons_append, List.cons_append, List.cons_append, hnext]
    obtain ⟨type, htype, hne⟩ := exists_type_before hend p.key
      (.colon :: (value.elim Token.null Token.bool :: t :: ts'))
    -- the loop reads the member and goes on behind it, or at the null
    have hgo : ∀ l', (∀ s, .string s ∉ l') → l'.findSome? Token.type ≠ some .objectEnd →
        l' = (value.elim [.colon, .null] fun _ ↦ []) →
        Leads (At (l' ++ t :: ts')) (whileNot .objectEnd (readEntry updateField) (p.set value a)) b
          R := by
      intro l' hskip' hend' hl'
      rw [← hnext]
      rcases eq_or_ne entries [] with rfl | hentries
      · rw [hl']
        cases value <;> exact hrest
      · have hcomma : ((value.elim [Token.colon, .null] fun _ ↦ []) ++ [Token.comma]).findSome?
            Token.type ≠ some .objectEnd := by
          cases value with
          | none => decide
          | some b' => exact (by decide : [Token.comma].findSome? Token.type ≠ some .objectEnd)
        rw [behind_cons _ hentries] at hrest
        have hgo := @ih (p.set value a) (l' ++ [.comma]) (absurd · hentries)
          (fun s hs ↦ (List.mem_append.1 hs).elim (hskip' s) (by simp))
          (hl' ▸ hcomma) hrest
        rwa [List.append_assoc, List.singleton_append, ← List.cons_append,
          ← memberTokens_of_ne_nil (by simpa [entryMembers] using hentries)] at hgo
    cases value with
    | some b' =>
      exact whileNot_next fieldsRegular_update htype hne (leads_boolean p b' hskip ht ts')
        (hgo [] (fun _ ↦ List.not_mem_nil) (by decide) rfl)
    | none =>
      exact whileNot_next fieldsRegular_update htype hne (leads_null p hskip (t :: ts'))
        (hgo [.colon, .null] (by simp) (by decide) rfl)

/-- Reading an update: the loop from behind its last member, and the search for its end. -/
theorem leads_readEntries {ts : List Token} {b : SetPropertiesLocals} {Q R : Unpacker → Prop}
    (hloop : Leads (At (behind entries ++ .endObject :: ts))
      (whileNot .objectEnd (readEntry updateField)
        (entries.foldl (fun a e ↦ e.1.set e.2 a) a)) b Q)
    (hend : Leads Q unpackObjectEnd () R) :
    Leads (At (.colon :: ((Value.object (entryMembers entries)).tokens ++ ts)))
      (readEntries updateField a) b R := by
  rw [Value.tokens, List.cons_append, List.append_assoc]
  have hentries := leads_nullable (l := []) (fun _ ↦ rfl) (fun _ ↦ List.not_mem_nil) (by decide)
    hloop
  refine (leads_findAfter (l := [.colon]) (by decide) rfl ?_).bind <| hentries.bind <|
    hend.bind <| .pure _
  simp [Passes, Token.text, ascii]

theorem readsValue_nullable (hlast : behind entries = []) :
    ReadsValue (readEntries updateField) (.object (entryMembers entries))
      fun a ↦ entries.foldl (fun a e ↦ e.1.set e.2 a) a := by
  intro a t ts _
  refine leads_readEntries (Q := At (.endObject :: t :: ts)) ?_
    (leads_findAfter (l := []) (by decide) rfl (.nil _))
  rw [hlast]
  refine .whileDo_done (fieldsRegular_update.shrinks _) _ fun u hu ↦ ?_
  rw [hu.peekType (d := .objectEnd) rfl]
  rfl

/-! ### What the update gives -/

theorem PropertyName.get_set (p q : PropertyName) (value : Option Bool) :
    q.get (p.set value a) = if p = q then value else q.get a := by
  cases p <;> cases q <;> rfl

theorem given_cons (e : PropertyName × Option Bool) (entries : List (PropertyName × Option Bool))
    (p : PropertyName) :
    given (e :: entries) p = if e.1 = p then e.2 else given entries p := by
  rw [given, List.find?_cons]
  by_cases hp : e.1 = p
  · rw [if_pos hp, decide_eq_true hp]
    rfl
  · rw [if_neg hp, decide_eq_false hp]
    rfl

/-- Every property holds what is given for it in the end. -/
theorem get_foldl_set (hnodup : (entries.map Prod.fst).Nodup) (p : PropertyName) :
    p.get (entries.foldl (fun a e ↦ e.1.set e.2 a) a) =
      if p ∈ entries.map Prod.fst then given entries p else p.get a := by
  induction entries generalizing a with
  | nil => rfl
  | cons e entries ih =>
    rw [List.map_cons, List.nodup_cons] at hnodup
    rw [List.foldl_cons, ih hnodup.2, List.map_cons, PropertyName.get_set, given_cons]
    by_cases hp : e.1 = p
    · rw [if_neg (hp ▸ hnodup.1), if_pos hp, if_pos (hp ▸ List.mem_cons_self), if_pos hp]
    · have hmem : p ∈ e.1 :: entries.map Prod.fst ↔ p ∈ entries.map Prod.fst := by
        rw [List.mem_cons, or_iff_right (Ne.symm hp)]
      rw [if_neg hp, if_neg hp]
      simp only [hmem]

theorem given_of_not_mem {p : PropertyName} (hp : p ∉ entries.map Prod.fst) :
    given entries p = none := by
  rw [given, List.find?_eq_none.2, Option.bind_none]
  intro e he
  rw [decide_eq_true_eq]
  rintro rfl
  exact hp (List.mem_map_of_mem he)

theorem topic_foldl_set (entries : List (PropertyName × Option Bool)) (a : SetPropertiesLocals) :
    (entries.foldl (fun a e ↦ e.1.set e.2 a) a).topic = a.topic := by
  induction entries generalizing a with
  | nil => rfl
  | cons e entries ih =>
    rw [List.foldl_cons, ih]
    obtain ⟨p, value⟩ := e
    cases p <;> rfl

/-- What the handler holds after the update, and the name before or behind it. -/
theorem foldl_set (hnodup : (entries.map Prod.fst).Nodup) (topic : Str) :
    entries.foldl (fun a e ↦ e.1.set e.2 a) { topic } =
      { topic, persistent := given entries .persistent, retained := given entries .retained,
        cached := given entries .cached } := by
  have hget (p : PropertyName) :
      p.get (entries.foldl (fun a e ↦ e.1.set e.2 a) { topic }) = given entries p := by
    rw [get_foldl_set hnodup]
    split
    · rfl
    · next hp =>
      rw [given_of_not_mem hp]
      cases p <;> rfl
  have htopic := topic_foldl_set entries { topic }
  have hpersistent := hget .persistent
  have hretained := hget .retained
  have hcached := hget .cached
  generalize entries.foldl (fun a e ↦ e.1.set e.2 a) { topic } =
    l at htopic hpersistent hretained hcached
  obtain ⟨t, persistent, retained, cached⟩ := l
  obtain rfl : t = topic := htopic
  obtain rfl : persistent = _ := hpersistent
  obtain rfl : retained = _ := hretained
  obtain rfl : cached = _ := hcached
  rfl

end Entries

/-! ### The message -/

namespace PropertiesUpdate

variable {u : PropertiesUpdate} {init : Locals}

/-- The parameters, the name as `true`. -/
def param (u : PropertiesUpdate) : Bool → Str × Value
  | true => (ascii "name", .string u.text)
  | false => (ascii "update", .object (entryMembers u.entries))

/-- What reading a parameter does. -/
def read (u : PropertiesUpdate) : Bool → SetPropertiesLocals → SetPropertiesLocals
  | true, l => { l with topic := u.text }
  | false, l => u.entries.foldl (fun a e ↦ e.1.set e.2 a) l

theorem written_value (u : PropertiesUpdate) : u.written.value =
    messageValue (ascii "setproperties") ([u.nameFirst, !u.nameFirst].map u.param) := by
  rw [written]
  cases u.nameFirst <;> rfl

/-- The message with the name as it is written. -/
def asRead (u : PropertiesUpdate) : ClientMessage :=
  .setproperties u.text (given u.entries .persistent) (given u.entries .retained)
    (given u.entries .cached)

theorem behind_of_not_endsInNull (h : ¬u.EndsInNull) : behind u.entries = [] := by
  rw [behind]
  obtain hnone | ⟨⟨p, value⟩, hlast⟩ := Option.eq_none_or_eq_some u.entries.getLast?
  · rw [hnone]
    rfl
  · rw [hlast]
    cases value with
    | none => exact absurd ⟨p, hlast⟩ h
    | some b => rfl

theorem behind_of_endsInNull (h : u.EndsInNull) : behind u.entries = [.colon, .null] := by
  obtain ⟨p, hp⟩ := h
  rw [behind, hp]
  rfl

/-- An update that does not end in a null is read, with the name as it is written. -/
theorem reads (hquote : 0x22 ∉ u.text) (hlast : ¬u.EndsInNull) :
    Reads init u.written u.asRead := by
  have hnull : behind u.entries = [] := behind_of_not_endsInNull hlast
  have hparam (e : Bool) : ReadsParam setPropertiesParam (u.param e) (u.read e) := by
    cases e with
    | true =>
      exact ⟨(by decide : 0x22 ∉ ascii "name"), _, rfl,
        readsValue_string hquote fun topic (l : SetPropertiesLocals) ↦ { l with topic }⟩
    | false =>
      exact ⟨(by decide : 0x22 ∉ ascii "update"), _, rfl, readsValue_nullable hnull⟩
  have hfold : [u.nameFirst, !u.nameFirst].foldl (fun l e ↦ u.read e l) {} =
      { topic := u.text, persistent := given u.entries .persistent,
        retained := given u.entries .retained, cached := given u.entries .cached } := by
    cases u.nameFirst with
    | true => exact foldl_set u.nodup u.text
    | false =>
      show ({ u.entries.foldl (fun a e ↦ e.1.set e.2 a) ({} : SetPropertiesLocals) with
        topic := u.text } : SetPropertiesLocals) = _
      rw [foldl_set u.nodup []]
  refine .of_params u.written_value (by decide) fun ts ↦ ?_
  exact (leads_params rfl (fun e _ ↦ hparam e) hfold ts).bind (.pure _)

/-! ### A null behind the last member -/

/-- Where no key follows, the loop ends beyond the data. -/
theorem leads_lost {a : SetPropertiesLocals} {ts : List Token} {d : DataType}
    (ht : ts.findSome? Token.type = some d) (hne : d ≠ .objectEnd) (hquote : Passes [0x22] ts) :
    Leads (At ts) (whileNot .objectEnd (readEntry updateField) a) a AtEnd := by
  have hkey : Leads (At ts) unpackKey [] AtEnd :=
    (leads_findAfter_atEnd (by decide) hquote).bind <| by
      rintro u rfl
      exact ⟨_, rfl, rfl⟩
  have hpeek : Leads AtEnd peek .null AtEnd := by
    rintro u rfl
    exact ⟨_, rfl, rfl⟩
  have hbody : Leads (At ts) (readEntry updateField a) a AtEnd :=
    hkey.bind <| hpeek.bind <| .pure a
  refine .whileDo_next (fieldsRegular_update.shrinks _) (fun u hu ↦ ?_) hbody <|
    .whileDo_done (fieldsRegular_update.shrinks _) a fun u hu ↦ ?_
  · rw [hu.peekType ht]
    exact decide_eq_true hne
  · rw [hu]
    rfl

/-- The tokens of a frame behind the message, if a client that unsubscribes follows. -/
def unsubscribeTail : List Token :=
  .comma :: ((WrittenMessage.unsubscribe 5).value.tokens ++ [.endArray])

/-- The keys of the next message are taken for keys of the update. -/
theorem leads_next_message {a : SetPropertiesLocals} :
    Leads (At ([.colon, .null, .endObject, .endObject, .endObject] ++ unsubscribeTail))
      (whileNot .objectEnd (readEntry updateField) a) a AtEnd := by
  have hstep {s : Str} {d e : DataType} {l ts : List Token} {b : SetPropertiesLocals}
      {R : Unpacker → Prop} (hs : 0x22 ∉ s) (hskip : ∀ s, .string s ∉ l)
      (hd : (l ++ .string s :: ts).findSome? Token.type = some d) (hne : d ≠ .objectEnd)
      (ht : ts.findSome? Token.type = some e) (hnone : updateField s e = none)
      (hrest : Leads (At ts) (whileNot .objectEnd (readEntry updateField) a) b R) :
      Leads (At (l ++ .string s :: ts)) (whileNot .objectEnd (readEntry updateField) a) b R :=
    whileNot_next fieldsRegular_update hd hne (readEntry_none hs hskip ht hnone) hrest
  refine hstep (l := [.colon, .null, .endObject, .endObject, .endObject, .comma, .beginObject])
    (s := ascii "method") (d := .null) (e := .str) (by decide) (by simp) rfl (by decide) rfl rfl <|
    hstep (l := [.colon]) (s := ascii "unsubscribe") (d := .str) (e := .str) (by decide) (by simp)
      rfl (by decide) rfl rfl <|
    hstep (l := [.comma]) (s := ascii "params") (d := .str) (e := .object) (by decide) (by simp)
      rfl (by decide) rfl rfl <|
    hstep (l := [.colon, .beginObject]) (s := ascii "subuid") (d := .object) (e := .int)
      (by decide) (by simp) rfl (by decide) rfl rfl <|
    leads_lost (d := .int) rfl (by decide) (passes_of_all (by decide))

/-- The name behind the update is taken for keys of the update. -/
theorem leads_name {a : SetPropertiesLocals} {text : Str} (hquote : 0x22 ∉ text) (ts : List Token) :
    Leads (At ([.colon, .null, .endObject, .comma] ++ .string (ascii "name") :: .colon ::
        .string text :: .endObject :: ts))
      (whileNot .objectEnd (readEntry updateField) a) a (At (.endObject :: ts)) := by
  refine whileNot_next (d := .null) fieldsRegular_update rfl (by decide)
    (readEntry_none (d := .str) (by decide) (by simp) rfl rfl) <|
    whileNot_next (l := .endObject :: ts) (d := .str) fieldsRegular_update rfl (by decide)
    (readEntry_none (l := [.colon]) (d := .objectEnd) hquote (by simp) rfl ?_) <|
    .whileDo_done (fieldsRegular_update.shrinks _) a fun u hu ↦ ?_
  · exact fieldsRegular_update.objectEnd text
  · rw [hu.peekType (d := .objectEnd) rfl]
    rfl

section

variable {tail : List Token} {l : List Token}

/-- With the name before the update, all that is lost is what follows. -/
theorem leads_name_first (hfirst : u.nameFirst = true) (hquote : 0x22 ∉ u.text)
    (hnull : behind u.entries = [.colon, .null])
    (hloop : ∀ a, Leads (At ([.colon, .null, .endObject, .endObject, .endObject] ++ tail))
      (whileNot .objectEnd (readEntry updateField) a) a AtEnd) (hl : Passes [0x7b] l) :
    Leads (At (l ++ (u.written.value.tokens ++ tail))) (readObject init) u.asRead AtEnd := by
  have htokens : (memberTokens [u.param true, u.param false]).tail ++
      .endObject :: .endObject :: tail = .string (ascii "name") :: .colon :: .string u.text ::
        .comma :: .string (ascii "update") :: .colon ::
          ((Value.object (entryMembers u.entries)).tokens ++ .endObject :: .endObject :: tail) := by
    simp [memberTokens, PropertiesUpdate.param, Value.tokens]
  have hname : Leads (At (.colon :: .string u.text :: .comma :: .string (ascii "update") ::
      .colon ::
        ((Value.object (entryMembers u.entries)).tokens ++ .endObject :: .endObject :: tail)))
      ((fun topic ↦ ({ topic } : SetPropertiesLocals)) <$> unpackString) { topic := u.text }
      (At (.comma :: .string (ascii "update") :: .colon ::
        ((Value.object (entryMembers u.entries)).tokens ++ .endObject :: .endObject :: tail))) :=
    (leads_unpackKey (l := [.colon]) hquote (by simp)).map _
  have hupdate : Leads (At (.colon :: ((Value.object (entryMembers u.entries)).tokens ++
      .endObject :: .endObject :: tail))) (readEntries updateField { topic := u.text }) _ AtEnd :=
    leads_readEntries (by rw [hnull]; exact hloop _) (AtEnd.findAfter _)
  rw [foldl_set u.nodup] at hupdate
  rw [written_value, hfirst]
  refine leads_readObject_of hl (by decide) ?_ (AtEnd.findAfter _) (AtEnd.findAfter _)
  show Leads (At ((memberTokens [u.param true, u.param false]).tail ++
    .endObject :: .endObject :: tail)) (readMessage init .setProperties) _ _
  rw [htokens]
  have hquotes : (0x22 : UInt8) ∉ ascii "name" ∧ (0x22 : UInt8) ∉ ascii "update" := by decide
  have hparams : Leads (At (.string (ascii "name") :: .colon :: .string u.text :: .comma ::
      .string (ascii "update") :: .colon :: ((Value.object (entryMembers u.entries)).tokens ++
        .endObject :: .endObject :: tail))) (readParams setPropertiesParam 2 {}) _ AtEnd :=
    (leads_unpackKey (l := []) hquotes.1 fun _ ↦ List.not_mem_nil).bind <| hname.bind <|
    (leads_unpackKey (l := [.comma]) hquotes.2 (by simp)).bind <| hupdate.bind <| .pure _
  exact hparams.bind (.pure _)

/-- With the name behind the update, the name is lost. -/
theorem leads_name_last {key : Str} {S S' S'' : Unpacker → Prop} (hfirst : u.nameFirst = false)
    (hquote : 0x22 ∉ u.text) (hnull : behind u.entries = [.colon, .null])
    (hkey : Leads (At (.endObject :: tail)) unpackKey key S) (hnone : setPropertiesParam key = none)
    (hend : Leads S unpackObjectEnd () S') (hend' : Leads S' unpackObjectEnd () S'')
    (hl : Passes [0x7b] l) :
    Leads (At (l ++ (u.written.value.tokens ++ tail))) (readObject init)
      (.setproperties [] (given u.entries .persistent) (given u.entries .retained)
        (given u.entries .cached)) S'' := by
  have htokens : (memberTokens [u.param false, u.param true]).tail ++
      .endObject :: .endObject :: tail = .string (ascii "update") :: .colon ::
        ((Value.object (entryMembers u.entries)).tokens ++ .comma :: .string (ascii "name") ::
          .colon :: .string u.text :: .endObject :: .endObject :: tail) := by
    simp [memberTokens, PropertiesUpdate.param, Value.tokens]
  have hupdate : Leads (At (.colon :: ((Value.object (entryMembers u.entries)).tokens ++
      .comma :: .string (ascii "name") :: .colon :: .string u.text :: .endObject :: .endObject ::
        tail))) (readEntries updateField { topic := [] }) _ (At (.endObject :: tail)) :=
    leads_readEntries (by rw [hnull]; exact leads_name hquote (.endObject :: tail))
      (leads_findAfter (l := []) (by decide) rfl (.nil _))
  rw [foldl_set u.nodup] at hupdate
  rw [written_value, hfirst]
  refine leads_readObject_of hl (by decide) ?_ hend hend'
  show Leads (At ((memberTokens [u.param false, u.param true]).tail ++
    .endObject :: .endObject :: tail)) (readMessage init .setProperties) _ _
  rw [htokens]
  have hnext : ∀ a, Leads S (readIf (setPropertiesParam key) a) a S := by
    rw [hnone]
    exact fun a ↦ .pure a
  have hquote' : (0x22 : UInt8) ∉ ascii "update" := by decide
  have hparams : Leads (At (.string (ascii "update") :: .colon ::
      ((Value.object (entryMembers u.entries)).tokens ++ .comma :: .string (ascii "name") ::
        .colon :: .string u.text :: .endObject :: .endObject :: tail)))
      (readParams setPropertiesParam 2 {}) _ S :=
    (leads_unpackKey (l := []) hquote' fun _ ↦ List.not_mem_nil).bind <| hupdate.bind <|
    hkey.bind <| (hnext _).bind <| .pure _
  exact hparams.bind (.pure _)

end

end PropertiesUpdate

/-! ### The frame -/

section Frames

variable {init : Locals} {ws : List WrittenMessage} {ms : List ClientMessage} {w : WrittenMessage}
  {m : ClientMessage} {tail : List Token} {Q : Unpacker → Prop}

/-- The loop over messages, if it stops after this one. -/
theorem leads_messages_last (h : List.Forall₂ (Reads init) ws ms)
    (hlast : ∀ l, Passes [0x7b] l →
      Leads (At (l ++ (w.value.tokens ++ tail))) (readObject init) m Q)
    (hstop : ∀ s, Q s → moreMessages s = false) {l : List Token} (hl : Separators l)
    (read : List ClientMessage) :
    Leads (At (l ++ ((elementTokens ((ws ++ [w]).map WrittenMessage.value)).tail ++ tail)))
      (whileDo remaining moreMessages (fun messages ↦ (messages ++ [·]) <$> readObject init) read)
      (read ++ (ms ++ [m])) Q := by
  induction h generalizing read l with
  | nil =>
    have hshape : (elementTokens (([] ++ [w]).map WrittenMessage.value)).tail = w.value.tokens :=
      List.append_nil _
    rw [hshape]
    exact leads_message_next hl (hlast l (passes_of_separators hl))
      (.whileDo_done (shrinks_messages init) _ hstop)
  | @cons w' m' ws ms hw h ih =>
    rw [List.cons_append, List.map_cons, elementTokens, List.tail_cons, List.append_assoc,
      List.cons_append, List.append_cons read]
    refine leads_message_next hl (hw l (passes_of_separators hl) _) ?_
    rw [elementTokens_of_ne_nil (by simp)]
    exact ih (fun s hs ↦ .inl (List.eq_of_mem_singleton hs)) _

theorem leads_textLoop_last (h : List.Forall₂ (Reads init) ws ms)
    (hlast : ∀ l, Passes [0x7b] l →
      Leads (At (l ++ (w.value.tokens ++ tail))) (readObject init) m Q)
    (hstop : ∀ s, Q s → moreMessages s = false) :
    Leads
      (At (.beginArray :: ((elementTokens ((ws ++ [w]).map WrittenMessage.value)).tail ++ tail)))
      (textLoop init) (ms ++ [m]) fun _ ↦ True := by
  have hend : Leads Q unpackArrayEnd () fun _ ↦ True := fun s _ ↦ ⟨_, rfl, trivial⟩
  have hcomma : Separators [Token.comma] := fun s hs ↦ .inl (List.eq_of_mem_singleton hs)
  cases h with
  | nil =>
    have hshape : (elementTokens (([] ++ [w]).map WrittenMessage.value)).tail = w.value.tokens :=
      List.append_nil _
    rw [hshape]
    exact (leads_findAfter (l := []) (by decide) rfl (.nil _)).bind <| (hlast [] (.nil _)).bind <|
      (Leads.whileDo_done (shrinks_messages init) [m] hstop).bind <| hend.bind <| .pure _
  | @cons w' m' ws ms hw h =>
    rw [List.cons_append, List.map_cons, elementTokens, List.tail_cons, List.append_assoc,
      elementTokens_of_ne_nil (by simp)]
    exact (leads_findAfter (l := []) (by decide) rfl (.nil _)).bind <|
      (hw [] (.nil _) _).bind <| (leads_messages_last h hlast hstop hcomma [m']).bind <|
      hend.bind <| .pure _

end Frames

/-! ### Names with quotation marks -/

/-- A quotation mark is no hexadecimal digit. -/
theorem quote_not_mem_of_hexValue {hex : Str} {n : ℕ} (h : hexValue hex = some n) :
    (0x22 : UInt8) ∉ hex := by
  rw [hexValue] at h
  generalize 0 = start at h
  induction hex generalizing start with
  | nil => exact List.not_mem_nil
  | cons c hex ih =>
    rw [List.foldlM_cons, Option.bind_eq_bind, Option.bind_eq_some_iff] at h
    obtain ⟨next, hc, hrest⟩ := h
    rw [List.mem_cons, not_or]
    refine ⟨?_, ih next hrest⟩
    rintro rfl
    exact absurd hc (by simp)

/-- A quotation mark in what is written stands for one. -/
theorem quote_mem_of_encodes {text s : Str} (h : Json.Encodes text s) (hquote : 0x22 ∈ text) :
    0x22 ∈ s := by
  induction h with
  | nil => exact hquote
  | @plain c text s hc h ih =>
    rcases List.mem_cons.1 hquote with rfl | hquote
    · exact absurd (.inl rfl) hc
    · exact List.mem_cons_of_mem _ (ih hquote)
  | @short e c text s hc h ih =>
    rcases List.mem_cons.1 hquote with hquote | hquote
    · exact absurd hquote (by decide)
    · rcases List.mem_cons.1 hquote with rfl | hquote
      · obtain rfl : 0x22 = c := Option.some.inj hc
        exact List.mem_cons_self
      · exact List.mem_cons_of_mem _ (ih hquote)
  | unicode hlen hvalue h ih =>
    simp only [List.mem_cons, List.mem_append] at hquote
    rcases hquote with hquote | hquote | hquote | hquote
    · exact absurd hquote (by decide)
    · exact absurd hquote (by decide)
    · exact absurd hquote (quote_not_mem_of_hexValue hvalue)
    · exact List.mem_append_right _ (ih hquote)
  | surrogates hlen hhigh hm hlen' hlow hn hc h ih =>
    simp only [List.mem_cons, List.mem_append] at hquote
    rcases hquote with hquote | hquote | hquote | hquote | hquote | hquote | hquote
    · exact absurd hquote (by decide)
    · exact absurd hquote (by decide)
    · exact absurd hquote (quote_not_mem_of_hexValue hhigh)
    · exact absurd hquote (by decide)
    · exact absurd hquote (by decide)
    · exact absurd hquote (quote_not_mem_of_hexValue hlow)
    · exact List.mem_append_right _ (ih hquote)

/-- The empty string is written as nothing. -/
theorem eq_nil_of_encodes {text : Str} (h : Json.Encodes text []) : text = [] := by
  have hchar (c : Char) (s : Str) : String.utf8EncodeChar c ++ s ≠ [] := by
    refine List.append_ne_nil_of_left_ne_nil (List.ne_nil_of_length_pos ?_) s
    rw [String.length_utf8EncodeChar]
    exact c.utf8Size_pos
  generalize hs : ([] : Str) = s at h
  cases h with
  | nil => rfl
  | plain | short => exact absurd hs.symm (List.cons_ne_nil _ _)
  | unicode | surrogates => exact absurd hs.symm (hchar _ _)

/-- The name in an update of properties holds no quotation mark. -/
def ClientMessage.UpdateUnquoted : ClientMessage → Prop
  | setproperties name _ _ _ => 0x22 ∉ name
  | subscribe _ _ _ | publish _ _ _ _ | unsubscribe _ | unpublish _ | unknown => True

/-- Reading an update leaves the name as it is. -/
theorem returns_update {P : Str → Prop} {l : SetPropertiesLocals} (hl : P l.topic) :
    Returns (readEntries updateField l) fun l ↦ P l.topic := by
  refine .bind' fun _ ↦ .bind (P := fun l ↦ P l.topic) ?_ fun l hl ↦ .bind' fun _ ↦ .pure hl
  refine .whileDo (fun l hl ↦ .bind' fun mkey ↦ .bind' fun type ↦ ?_) hl
  rw [updateField]
  split_ifs
  · exact .map fun _ ↦ hl
  · exact .map fun _ ↦ hl
  · exact .map fun _ ↦ hl
  · exact .pure hl

/-- Whatever the payload, no name with a quotation mark is read from it. -/
theorem updateUnquoted_of_mem {init : Locals} {payload : Bytes} {m : ClientMessage}
    (hm : m ∈ textMessages init payload) : m.UpdateUnquoted := by
  refine forall_textMessages (fun method ↦ ?_) hm
  cases method with
  | setProperties =>
    refine .bind (P := fun l : SetPropertiesLocals ↦ 0x22 ∉ l.topic)
      (returns_readParams (fun key read hread l hl ↦ ?_) 2 _ List.not_mem_nil) fun l hl ↦ .pure hl
    rw [setPropertiesParam] at hread
    split_ifs at hread
    · obtain rfl := Option.some.inj hread
      exact .map returns_unpackKey
    · obtain rfl := Option.some.inj hread
      exact returns_update (P := fun topic ↦ 0x22 ∉ topic) hl
  | publish => exact .bind' fun _ ↦ .pure trivial
  | subscribe => exact .bind' fun _ ↦ .pure trivial
  | unSubscribe => exact .map fun _ ↦ trivial
  | unPublish => exact .map fun _ ↦ trivial
  | unknown | announce | unAnnounce | properties => exact .pure trivial

/-! ### What is read -/

namespace PropertiesUpdate

variable {u : PropertiesUpdate} {init : Locals} {payload : Bytes}

theorem textMessages_of_isText {v : Value} {ms : List ClientMessage} {Q : Unpacker → Prop}
    (h : Leads (At v.tokens) (textLoop init) ms Q) (htext : v.IsText payload) :
    textMessages init payload = ms := by
  refine textMessages_of_leads h htext.spells fun t ht text heq ↦ ?_
  have hvalid := htext.valid t ht
  rwa [heq] at hvalid

theorem textMessages_of_reads {ws : List WrittenMessage} {ms : List ClientMessage}
    (h : List.Forall₂ (Reads init) ws ms) (hne : ws ≠ []) (htext : (frameValue ws).IsText payload) :
    textMessages init payload = ms := by
  cases h with
  | nil => exact absurd rfl hne
  | cons hw h => exact textMessages_of_isText (leads_textLoop (.cons hw h)) htext

/-- The message is written as JSON. -/
theorem isValid_written (u : PropertiesUpdate) : IsValid u.written.value := by
  have hkeys : ∀ key ∈ [ascii "method", ascii "setproperties", ascii "params", ascii "name",
      ascii "update", ascii "persistent", ascii "retained", ascii "cached"], IsUnescaped key := by
    decide +kernel
  have hentries : IsValid (.object (entryMembers u.entries)) := by
    refine isValid_object fun m hm ↦ ?_
    rw [entryMembers, List.map_map, List.mem_map] at hm
    obtain ⟨⟨p, value⟩, -, rfl⟩ := hm
    cases value with
    | none =>
      refine ⟨hkeys p.key (by cases p <;> decide), fun t ht ↦ ?_⟩
      rw [List.eq_of_mem_singleton ht]
      trivial
    | some b =>
      cases p with
      | persistent => exact ⟨hkeys (ascii "persistent") (by decide), isValid_bool b⟩
      | retained => exact ⟨hkeys (ascii "retained") (by decide), isValid_bool b⟩
      | cached => exact ⟨hkeys (ascii "cached") (by decide), isValid_bool b⟩
  have hname : IsValid (.string u.text) :=
    fun _ ht ↦ List.eq_of_mem_singleton ht ▸ ⟨u.name, u.encodes⟩
  have hparam (b : Bool) : IsUnescaped (u.param b).1 ∧ IsValid (u.param b).2 := by
    cases b with
    | true => exact ⟨hkeys (ascii "name") (by decide), hname⟩
    | false => exact ⟨hkeys (ascii "update") (by decide), hentries⟩
  have hmethod : IsUnescaped (ascii "method") := hkeys _ (by decide)
  have hparams : IsUnescaped (ascii "params") := hkeys _ (by decide)
  rw [written_value, messageValue]
  refine isValid_object (List.forall_mem_cons.2 ⟨⟨hmethod, ?_⟩,
    List.forall_mem_singleton.2 ⟨hparams, isValid_object fun m hm ↦ ?_⟩⟩)
  · exact isValid_string (hkeys _ (by decide))
  · obtain ⟨b, -, rfl⟩ := List.mem_map.1 hm
    exact hparam b

/-- There is a text for the message with others. -/
theorem exists_isText {before after : List WrittenMessage}
    (hbefore : ∀ w ∈ before, IsValid w.value) (hafter : ∀ w ∈ after, IsValid w.value) :
    ∃ payload, (frameValue (before ++ u.written :: after)).IsText payload := by
  refine ⟨_, spells_flatMap _, ?_⟩
  refine forall_array trivial trivial trivial fun v hv ↦ ?_
  obtain ⟨w, hw, rfl⟩ := List.mem_map.1 hv
  rcases List.mem_append.1 hw with hw | hw
  · exact hbefore w hw
  · rcases List.mem_cons.1 hw with rfl | hw
    · exact u.isValid_written
    · exact hafter w hw

/-- An update that does not end in a null, between other messages. -/
theorem textMessages_eq {before after : List WrittenMessage} {ms ms' : List ClientMessage}
    (hquote : 0x22 ∉ u.text) (hlast : ¬u.EndsInNull) (hbefore : List.Forall₂ (Reads init) before ms)
    (hafter : List.Forall₂ (Reads init) after ms')
    (htext : (frameValue (before ++ u.written :: after)).IsText payload) :
    textMessages init payload = ms ++ u.asRead :: ms' :=
  textMessages_of_reads (List.rel_append hbefore (.cons (u.reads hquote hlast) hafter)) (by simp)
    htext

/-- The last message of a frame, with a null behind its last member: the name is read if it comes
first. -/
theorem leads_readObject_last (u : PropertiesUpdate) (hquote : 0x22 ∉ u.text)
    (hnull : behind u.entries = [.colon, .null]) {l : List Token} (hl : Passes [0x7b] l) :
    Leads (At (l ++ (u.written.value.tokens ++ [.endArray]))) (readObject init)
      (.setproperties (if u.nameFirst then u.text else []) (given u.entries .persistent)
        (given u.entries .retained) (given u.entries .cached)) AtEnd := by
  cases hfirst : u.nameFirst with
  | true =>
    refine leads_name_first hfirst hquote hnull (fun a ↦ ?_) hl
    exact leads_lost (d := .null) rfl (by decide) (passes_of_all (by decide))
  | false =>
    have hkey : Leads (At [.endObject, .endArray]) unpackKey [] AtEnd :=
      (leads_findAfter_atEnd (by decide) (passes_of_all (by decide))).bind <| by
        rintro s rfl
        exact ⟨_, rfl, rfl⟩
    exact leads_name_last hfirst hquote hnull hkey rfl (AtEnd.findAfter _) (AtEnd.findAfter _) hl

/-- The messages of a frame that ends in such a message. -/
theorem textMessages_last {before : List WrittenMessage} {ms : List ClientMessage}
    (hquote : 0x22 ∉ u.text) (hnull : behind u.entries = [.colon, .null])
    (hbefore : List.Forall₂ (Reads init) before ms)
    (htext : (frameValue (before ++ [u.written])).IsText payload) :
    textMessages init payload = ms ++ [.setproperties (if u.nameFirst then u.text else [])
      (given u.entries .persistent) (given u.entries .retained) (given u.entries .cached)] := by
  have hloop : Leads (At (frameValue (before ++ [u.written])).tokens) (textLoop init) _ _ :=
    leads_textLoop_last hbefore (fun l hl ↦ u.leads_readObject_last hquote hnull hl)
      fun s hs ↦ by rw [hs]; rfl
  exact textMessages_of_isText hloop htext

/-- The next message is lost, if its client unsubscribes. -/
theorem textMessages_unsubscribe (hquote : 0x22 ∉ u.text)
    (hnull : behind u.entries = [.colon, .null])
    (htext : (frameValue [u.written, .unsubscribe 5]).IsText payload) :
    ∃ m, textMessages init payload = [m] := by
  have hframe : (frameValue [u.written, .unsubscribe 5]).tokens =
      .beginArray :: ((elementTokens (([] ++ [u.written]).map WrittenMessage.value)).tail ++
        unsubscribeTail) := by
    simp [frameValue, Value.tokens, elementTokens, unsubscribeTail]
  have hone {m : ClientMessage} {Q : Unpacker → Prop}
      (hread : ∀ l, Passes [0x7b] l →
        Leads (At (l ++ (u.written.value.tokens ++ unsubscribeTail))) (readObject init) m Q)
      (hstop : ∀ s, Q s → moreMessages s = false) : textMessages init payload = [m] := by
    have hloop : Leads (At (frameValue [u.written, .unsubscribe 5]).tokens) (textLoop init) [m]
        fun _ ↦ True := by
      rw [hframe]
      exact @leads_textLoop_last _ [] [] _ _ _ _ .nil hread hstop
    exact textMessages_of_isText hloop htext
  cases hfirst : u.nameFirst with
  | true =>
    exact ⟨_, hone (fun l hl ↦ leads_name_first hfirst hquote hnull (fun a ↦ leads_next_message) hl)
      fun s hs ↦ by rw [hs]; rfl⟩
  | false =>
    have hmethod : (0x22 : UInt8) ∉ ascii "method" := by decide
    have hkey : Leads (At (.endObject :: unsubscribeTail)) unpackKey (ascii "method")
        (At ([.colon, .string (ascii "unsubscribe"), .comma, .string (ascii "params"), .colon,
          .beginObject, .string (ascii "subuid"), .colon, .number (ascii "5")] ++
            .endObject :: [.endObject, .endArray])) :=
      leads_unpackKey (l := [.endObject, .comma, .beginObject]) hmethod (by simp)
    have hlast : Leads (At [.endObject, .endArray]) unpackObjectEnd () (At [.endArray]) :=
      leads_findAfter (l := []) (by decide) rfl (.nil _)
    refine ⟨_, hone (fun l hl ↦ leads_name_last hfirst hquote hnull hkey rfl
      (leads_findAfter (by decide) rfl (passes_of_all (by decide))) hlast hl)
      fun s hs ↦ ?_⟩
    rw [moreMessages, hs.peekType (d := .arrayEnd) rfl]
    simp

/-- The update sets the properties that are given as booleans, and no others. -/
theorem handleMessage_message [FloatCodec] (env : Env) (guid : Guid) {st : Instance}
    {t : TopicAt u.name} (ht : st.topics.lookup u.name = some (some t)) :
    Ends (handleMessage env guid u.message st)
      (fun st' ↦ st'.topics.lookup u.name = some (some (t.setProperties (u.apply t.1.properties))))
      fun _ ↦ True := by
  have hrun : handleMessage env guid u.message st =
      updateTopicProperties env (st.setTopic u.name (t.setProperties (u.apply t.1.properties)))
        (t.setProperties (u.apply t.1.properties)).1 (some guid) := by
    show handleSetProperties env guid u.name _ _ _ st = _
    rw [handleSetProperties, ht]
    rfl
  have hemits : Emits .quiet (st.setTopic u.name (t.setProperties (u.apply t.1.properties)))
      (updateTopicProperties env (st.setTopic u.name (t.setProperties (u.apply t.1.properties)))
        (t.setProperties (u.apply t.1.properties)).1 (some guid)) id :=
    updateTopicProperties_emits (AList.lookup_insert _)
  rw [hrun]
  refine Ends.mono hemits (fun st' hst' ↦ ?_) fun _ _ ↦ trivial
  have htopics : st'.topics =
      (st.setTopic u.name (t.setProperties (u.apply t.1.properties))).topics :=
    hst'.2
  rw [htopics]
  exact AList.lookup_insert _

/-- A name with a quotation mark in it is never read. -/
theorem message_not_mem (hquote : 0x22 ∈ u.text) : u.message ∉ textMessages init payload :=
  fun hm ↦ updateUnquoted_of_mem hm (quote_mem_of_encodes u.encodes hquote)

theorem asRead_eq_message_iff : u.asRead = u.message ↔ u.text = u.name := by
  rw [asRead, message, ClientMessage.setproperties.injEq]
  exact and_iff_left ⟨rfl, rfl, rfl⟩

/-- Where the message alone is read as it is meant, its name holds no quotation mark. -/
theorem quote_not_mem_of_alone (hread : textMessages init payload = [u.message]) :
    0x22 ∉ u.text := by
  intro hquote
  have hmem : u.message ∈ textMessages init payload := by
    rw [hread]
    exact List.mem_singleton.2 rfl
  exact message_not_mem hquote hmem

/-- If the next message is read, the update does not end in a null. -/
theorem not_endsInNull_of_readRightly (h : u.ReadRightly) (hquote : 0x22 ∉ u.text) :
    ¬u.EndsInNull := by
  intro hlast
  have hvalid : IsValid (WrittenMessage.unsubscribe 5).value := fun t ht ↦
    .of_isSimple (List.all_eq_true.1 (by decide +kernel :
      (WrittenMessage.unsubscribe 5).value.tokens.all Token.isSimple = true) t ht)
  obtain ⟨payload, htext⟩ := @exists_isText u [] [.unsubscribe 5] (List.forall_mem_nil _)
    (List.forall_mem_singleton.2 hvalid)
  have hunsubscribe : Reads ⟨0, 0, .bool, 0⟩ (.unsubscribe 5) (.unsubscribe 5) :=
    (Writes.unsubscribe 5).readAs.reads trivial trivial
  have hboth := h ⟨0, 0, .bool, 0⟩ [] [.unsubscribe 5] [] [.unsubscribe 5] payload .nil
    (.cons hunsubscribe .nil) htext
  obtain ⟨m, hm⟩ := @textMessages_unsubscribe u ⟨0, 0, .bool, 0⟩ payload hquote
    (behind_of_endsInNull hlast) htext
  rw [hm] at hboth
  exact absurd (congrArg List.length hboth) (by simp)

/-- Between other messages the message is read as it is meant exactly if the update does not end in
a null. -/
theorem readRightly_iff (u : PropertiesUpdate) :
    u.ReadRightly ↔ u.NamePlain ∧ ¬u.EndsInNull := by
  constructor
  · intro h
    obtain ⟨payload, htext⟩ := @exists_isText u [] [] (List.forall_mem_nil _)
      (List.forall_mem_nil _)
    have hread := h ⟨0, 0, .bool, 0⟩ [] [] [] [] payload .nil .nil htext
    have hquote := quote_not_mem_of_alone hread
    have hlast := not_endsInNull_of_readRightly h hquote
    have heq := @textMessages_eq u ⟨0, 0, .bool, 0⟩ payload [] [] [] [] hquote hlast .nil .nil htext
    have hname := List.head_eq_of_cons_eq (heq.symm.trans hread)
    exact ⟨⟨hquote, asRead_eq_message_iff.1 hname⟩, hlast⟩
  · rintro ⟨⟨hquote, hname⟩, hlast⟩ init before after ms ms' payload hbefore hafter htext
    rw [← asRead_eq_message_iff.2 hname]
    exact textMessages_eq hquote hlast hbefore hafter htext

/-- At the end of its frame an update may end in a null if the name comes first. -/
theorem readRightlyLast_iff (u : PropertiesUpdate) :
    u.ReadRightlyLast ↔ u.NamePlain ∧ (¬u.EndsInNull ∨ u.nameFirst = true ∨ u.name = []) := by
  have hmessage : .setproperties (if u.nameFirst then u.text else [])
      (given u.entries .persistent) (given u.entries .retained) (given u.entries .cached) =
        u.message ↔ (if u.nameFirst then u.text else []) = u.name := by
    rw [message, ClientMessage.setproperties.injEq]
    exact and_iff_left ⟨rfl, rfl, rfl⟩
  constructor
  · intro h
    obtain ⟨payload, htext⟩ := @exists_isText u [] [] (List.forall_mem_nil _)
      (List.forall_mem_nil _)
    have hread := h ⟨0, 0, .bool, 0⟩ [] [] payload .nil htext
    have hquote := quote_not_mem_of_alone hread
    by_cases hlast : u.EndsInNull
    · have heq := @textMessages_last u ⟨0, 0, .bool, 0⟩ payload [] [] hquote
        (behind_of_endsInNull hlast) .nil htext
      have hname := hmessage.1 (List.head_eq_of_cons_eq (heq.symm.trans hread))
      cases hfirst : u.nameFirst with
      | true =>
        rw [hfirst] at hname
        exact ⟨⟨hquote, hname⟩, .inr (.inl rfl)⟩
      | false =>
        rw [hfirst] at hname
        have hnil : u.name = [] := hname.symm
        exact ⟨⟨hquote, (eq_nil_of_encodes (hnil ▸ u.encodes)).trans hnil.symm⟩, .inr (.inr hnil)⟩
    · have heq :=
        @textMessages_eq u ⟨0, 0, .bool, 0⟩ payload [] [] [] [] hquote hlast .nil .nil htext
      have hname := List.head_eq_of_cons_eq (heq.symm.trans hread)
      exact ⟨⟨hquote, asRead_eq_message_iff.1 hname⟩, .inl hlast⟩
  · rintro ⟨⟨hquote, hname⟩, hcases⟩ init before ms payload hbefore htext
    by_cases hlast : u.EndsInNull
    · rw [textMessages_last hquote (behind_of_endsInNull hlast) hbefore htext, hmessage.2 ?_]
      cases hfirst : u.nameFirst with
      | true => exact hname
      | false =>
        obtain hlast' | hfirst' | hnil := hcases
        · exact absurd hlast hlast'
        · exact absurd (hfirst.symm.trans hfirst') (by decide)
        · exact hnil.symm
    · rw [← asRead_eq_message_iff.2 hname]
      exact textMessages_eq hquote hlast hbefore .nil htext

/-- **What a message with nulls does.** Between other messages it is read as it is meant, and so are
they, exactly if its name is written as it is and its update does not end in a null. At the end of
its frame it may end in one if the name comes first. What is read sets the properties that are given
as booleans and leaves the others as they are. -/
theorem takesEffect_iff [FloatCodec] (u : PropertiesUpdate) :
    (u.ReadRightly ↔ u.NamePlain ∧ ¬u.EndsInNull) ∧
    (u.ReadRightlyLast ↔ u.NamePlain ∧ (¬u.EndsInNull ∨ u.nameFirst = true ∨ u.name = [])) ∧
    ∀ (env : Env) (guid : Guid) (st : Instance) (t : TopicAt u.name),
      st.topics.lookup u.name = some (some t) → Ends (handleMessage env guid u.message st)
        (fun st' ↦ st'.topics.lookup u.name =
          some (some (t.setProperties (u.apply t.1.properties)))) fun _ ↦ True :=
  ⟨u.readRightly_iff, u.readRightlyLast_iff, fun env guid _ _ ↦ handleMessage_message env guid⟩

/-- `persistent` is left as it is, and nothing else is given. -/
def sample : PropertiesUpdate where
  name := ascii "/x"
  text := ascii "/x"
  encodes := encodes_of_plain (by decide +kernel)
  entries := [(.persistent, none)]
  nodup := by decide
  nameFirst := true

/-- The message behind it is lost. -/
theorem null_hides_next_message : ¬∀ u : PropertiesUpdate, u.ReadRightly := by
  intro h
  exact ((readRightly_iff sample).1 (h sample)).2 ⟨.persistent, rfl⟩

end PropertiesUpdate

end NetworkTables
