import PicoRadio.NetworkTables.WrittenMessages

/-!
# Reading the messages of a text frame

Each pass of the text loop starts before a message and ends behind it. Inside, the invariant is
where the unpacker stands: every function stops at the end of a token, and the token it searches for
is the next of its kind. From this, each member of an object is read as it is written
(`readsEntry_option` and the like), the members of an object in any order, and the messages of the
array one after the other.

## How a member is read

The source reads an object with a loop that looks for the next key and tests it against the names it
knows, and every value is read by a function of its own type. Three lemmas take a written member
through such a loop: the key is found (`At`), the test that fires is the one for this key
(`ReadsEntry`), and the value is read to its end (`ReadsValue`). The loop then stands before the
comma or at the end of the object, which is where the next member begins.

## Any order, any subset

The members set different fields, so they may be read in any order, and a missing one leaves the
default. This is where `List.Perm` comes in: what is folded over the members does not depend on
their order (`GivenOptions.foldl_of_perm` and the like), because no two of them set the same field.

## Members that are not known

An unknown member is not skipped as a value: the loop looks for the next key inside it. It is
harmless if nothing in it looks like a key that is known (`TameObject`). The lemmas are about
objects with such members, and the ones without are the special case at the end
(`tameObject_of_not_other`).
-/

open Json Json.Unpacker

namespace NetworkTables

/-! ### Fields -/

/-- The keys an option is tested for. -/
theorem selected_optionField (init : Locals) : selected (optionField init) = optionSelects := by
  funext key type
  unfold selected optionField optionSelects
  split_ifs with h1 h2 h3 h4 <;> simp_all

theorem selected_propertyField : selected propertyField = propertySelects := by
  funext key type
  unfold selected propertyField propertySelects
  split_ifs with h1 h2 h3 <;> simp_all

theorem selected_updateField : selected updateField = updateSelects := by
  funext key type
  unfold selected updateField updateSelects
  split_ifs with h1 h2 h3 <;> simp_all

/-- A selection that takes neither a string nor a closing brace. -/
theorem FieldsRegular.of_selected {α : Type}
    {field : Str → DataType → Option (α → StateM Unpacker α)}
    (halong : ∀ key type r, field key type = some r → ∀ a, Along Beyond (r a))
    (hstr : ∀ key, selected field key .str = false)
    (hend : ∀ key, selected field key .objectEnd = false) : FieldsRegular field :=
  ⟨halong, fun key ↦ of_not_selected (hstr key), fun key ↦ of_not_selected (hend key)⟩

/-- Every field of the options is read by a function that stops behind its value. -/
theorem fieldsRegular_option (init : Locals) : FieldsRegular (optionField init) := by
  refine .of_selected (fun key type r h a ↦ ?_) (fun key ↦ ?_) fun key ↦ ?_
  · unfold optionField at h
    split_ifs at h
    · exact Option.some.inj h ▸ (along_unpackInt _).map _
    all_goals exact Option.some.inj h ▸ along_unpackBool.map _
  · rw [selected_optionField]
    simp [optionSelects, DataType.isBool]
  · rw [selected_optionField]
    simp [optionSelects, DataType.isBool]

theorem fieldsRegular_property : FieldsRegular propertyField := by
  refine .of_selected (fun key type r h a ↦ ?_) (fun key ↦ ?_) fun key ↦ ?_
  · unfold propertyField at h
    split_ifs at h
    all_goals exact Option.some.inj h ▸ along_unpackBool.map _
  · rw [selected_propertyField]
    simp [propertySelects, DataType.isBool]
  · rw [selected_propertyField]
    simp [propertySelects, DataType.isBool]

theorem fieldsRegular_update : FieldsRegular updateField := by
  refine .of_selected (fun key type r h a ↦ ?_) (fun key ↦ ?_) fun key ↦ ?_
  · unfold updateField at h
    split_ifs at h
    all_goals exact Option.some.inj h ▸ along_unpackDefaultBool.map _
  · rw [selected_updateField]
    simp [updateSelects, DataType.isBoolOrNull, DataType.isBool]
  · rw [selected_updateField]
    simp [updateSelects, DataType.isBoolOrNull, DataType.isBool]

/-! ### Progress -/

/-- The topics are read forward. -/
theorem along_readTopics (topics : List Str) : Along Beyond (readTopics topics) :=
  (along_safeFindAfter _).bind fun _ ↦
    (along_whileNot (fun _ ↦ along_unpackKey.map _) topics).bind fun _ ↦
    (along_safeFindAfter _).bind fun _ ↦ .pure _

/-- The parameters of the two messages with a uid alone are read forward. -/
theorem along_uidParam (init : Locals) (name : Str) (n : ℕ) (a : Int32) :
    Along Beyond (readParams (uidParam init name) n a) := by
  refine along_readParams (fun key r h a ↦ ?_) n a
  unfold uidParam at h
  split_ifs at h
  exact Option.some.inj h ▸ along_unpackInt _

/-- No handler moves the pointer back. -/
theorem along_readMessage (init : Locals) (method : MessageMethod) :
    Along Beyond (readMessage init method) := by
  cases method with
  | subscribe =>
    refine (along_readParams (fun key r h a ↦ ?_) _ _).bind fun _ ↦ .pure _
    unfold subscribeParam at h
    split_ifs at h
    · exact Option.some.inj h ▸ (along_readTopics _).map _
    · exact Option.some.inj h ▸ (along_unpackInt _).map _
    · exact Option.some.inj h ▸ ((fieldsRegular_option init).along_readEntries _).map _
  | publish =>
    refine (along_readParams (fun key r h a ↦ ?_) _ _).bind fun _ ↦ .pure _
    unfold publishParam at h
    split_ifs at h
    · exact Option.some.inj h ▸ along_unpackKey.map _
    · exact Option.some.inj h ▸ (along_unpackInt _).map _
    · exact Option.some.inj h ▸ along_unpackKey.map _
    · exact Option.some.inj h ▸ (fieldsRegular_property.along_readEntries _).map _
  | setProperties =>
    refine (along_readParams (fun key r h a ↦ ?_) _ _).bind fun _ ↦ .pure _
    unfold setPropertiesParam at h
    split_ifs at h
    · exact Option.some.inj h ▸ along_unpackKey.map _
    · exact Option.some.inj h ▸ fieldsRegular_update.along_readEntries _
  | unSubscribe => exact (along_uidParam init _ 1 _).map _
  | unPublish => exact (along_uidParam init _ 1 _).map _
  -- these read no parameters
  | unknown | announce | unAnnounce | properties => exact .pure _

/-! ### Values -/

section Values

variable {α : Type}

/-- Between a key and its value stands a colon. -/
theorem separators_colon : Separators [.colon] := by
  rintro s hs
  exact .inr (List.eq_of_mem_singleton hs)

/-- An integer is read to the end of its digits. -/
theorem readsValue_int {i g : Int32} (f : Int32 → α → α) :
    ReadsValue (fun a ↦ (f · a) <$> unpackInt g) (intValue i) (f i) :=
  fun a _ _ ht ↦ (leads_unpackInt (l := [.colon]) separators_colon ht).map (f · a)

/-- A literal is read to its last letter. -/
theorem readsValue_bool {b : Bool} (f : Bool → α → α) :
    ReadsValue (fun a ↦ (f · a) <$> unpackBool) (.bool b) (f b) :=
  fun a _ _ _ ↦ (leads_unpackBool (l := [.colon]) separators_colon).map (f · a)

/-- A literal that stands where `null` might. -/
theorem readsValue_defaultBool {b : Bool} (f : Option Bool → α → α) :
    ReadsValue (fun a ↦ (f · a) <$> unpackDefaultBool) (.bool b) (f (some b)) := by
  intro a t ts _
  obtain ⟨d, hd, hne⟩ : ∃ d, (Token.bool b).type = some d ∧ d ≠ .null := by
    cases b <;> exact ⟨_, rfl, by decide⟩
  -- the type is looked up first, and the pointer stays before the colon
  have hpeek : Leads (At (.colon :: .bool b :: t :: ts)) peek d
      (At (.colon :: .bool b :: t :: ts)) := by
    refine leads_peek ?_
    rw [List.findSome?_cons_of_isNone rfl, List.findSome?_cons, hd]
  have hbool : Leads (At (.colon :: .bool b :: t :: ts))
      (if d = .null then return none else some <$> unpackBool) (some b) (At (t :: ts)) :=
    .if_neg hne <| (leads_unpackBool (l := [.colon]) separators_colon).map some
  exact (hpeek.bind hbool).map (f · a)

/-- A string without a quotation mark is read to its own one. -/
theorem readsValue_string {s : Str} (hs : 0x22 ∉ s) (f : Str → α → α) :
    ReadsValue (fun a ↦ (f · a) <$> unpackString) (.string s) (f s) :=
  fun a _ _ _ ↦ (leads_unpackKey (l := [.colon]) hs (by simp)).map (f · a)

end Values

/-! ### Members of options and properties -/

/-- A field that takes a boolean. -/
theorem readsEntry_bool {α : Type} {field : Str → DataType → Option (α → StateM Unpacker α)}
    {key : Str} {b : Bool} {r : α → StateM Unpacker α} {f : α → α} (hkey : 0x22 ∉ key)
    (htrue : field key .true = some r) (hfalse : field key .false = some r)
    (hread : ReadsValue r (.bool b) f) : ReadsEntry field (key, .bool b) f := by
  refine ⟨hkey, if b then .true else .false, r, fun ts ↦ ?_, ?_, hread⟩
  -- the two literals have types of their own, and the field takes both
  · cases b <;> rfl
  · cases b
    · exact hfalse
    · exact htrue

/-- An option is read into its field, and the other fields are left alone. -/
theorem readsEntry_option (init : Locals) {e : OptionMember} (he : e.isOther = false) :
    ReadsEntry (optionField init) e.member e.set := by
  cases e with
  | periodic i =>
    exact ⟨(by decide : 0x22 ∉ ascii "periodic"), .int, _, fun _ ↦ rfl, rfl,
      readsValue_int fun periodic (o : SubscriptionOptions) ↦ { o with periodic }⟩
  | all b =>
    exact readsEntry_bool (by decide) rfl rfl <|
      readsValue_bool fun all (o : SubscriptionOptions) ↦ { o with all }
  | topicsonly b =>
    exact readsEntry_bool (by decide) rfl rfl <|
      readsValue_bool fun topicsonly (o : SubscriptionOptions) ↦ { o with topicsonly }
  | prefixMatch b =>
    exact readsEntry_bool (by decide) rfl rfl <|
      readsValue_bool fun prefixMatch (o : SubscriptionOptions) ↦ { o with prefixMatch }
  | other key value => exact nomatch he

/-- A property of a publication. -/
theorem readsEntry_property {e : PropertyMember} (he : e.isOther = false) :
    ReadsEntry propertyField e.member e.set := by
  cases e with
  | persistent b =>
    exact readsEntry_bool (by decide) rfl rfl <|
      readsValue_bool fun persistent (p : TopicProperties) ↦ { p with persistent }
  | retained b =>
    exact readsEntry_bool (by decide) rfl rfl <|
      readsValue_bool fun retained (p : TopicProperties) ↦ { p with retained }
  | cached b =>
    exact readsEntry_bool (by decide) rfl rfl <|
      readsValue_bool fun cached (p : TopicProperties) ↦ { p with cached }
  | other key value => exact nomatch he

/-- A property of an update, which may also be `null`. -/
theorem readsEntry_update {e : PropertyMember} (he : e.isOther = false) :
    ReadsEntry updateField e.member e.update := by
  cases e with
  | persistent b =>
    exact readsEntry_bool (by decide) rfl rfl <|
      readsValue_defaultBool fun persistent (l : SetPropertiesLocals) ↦ { l with persistent }
  | retained b =>
    exact readsEntry_bool (by decide) rfl rfl <|
      readsValue_defaultBool fun retained (l : SetPropertiesLocals) ↦ { l with retained }
  | cached b =>
    exact readsEntry_bool (by decide) rfl rfl <|
      readsValue_defaultBool fun cached (l : SetPropertiesLocals) ↦ { l with cached }
  | other key value => exact nomatch he

/-- An object some of whose members are unknown is read like the one without them. -/
theorem readsValue_object {α ε : Type} {field : Str → DataType → Option (α → StateM Unpacker α)}
    {isOther : ε → Bool} {member : ε → Str × Value} {set : ε → α → α} {es : List ε}
    (hfield : FieldsRegular field)
    (hknown : ∀ e ∈ es, isOther e = false → ReadsEntry field (member e) (set e))
    (hset : ∀ e, isOther e = true → ∀ a, set e a = a)
    (hforeign : ∀ e ∈ es, isOther e = true → ∀ d, field (member e).1 d = none)
    (htame : TameObject (selected field) isOther member es) :
    ReadsValue (readEntries field) (.object (es.map member))
      fun a ↦ es.foldl (fun a e ↦ set e a) a :=
  readsValue_readEntries hfield <| readsEntries_of_forall hknown (fun e _ ↦ hset e)
    (fun e he ho ↦ ⟨hforeign e he ho, htame.ignored e he ho⟩) htame.last

/-- The object of the options, with members that are not known among them. -/
theorem readsValue_options (init : Locals) {es : List OptionMember}
    (hforeign : ∀ key value, .other key value ∈ es → key ∉ optionKeys)
    (htame : TameObject optionSelects OptionMember.isOther OptionMember.member es) :
    ReadsValue (readEntries (optionField init)) (.object (es.map OptionMember.member))
      fun o ↦ es.foldl (fun o e ↦ e.set o) o := by
  refine readsValue_object (fieldsRegular_option init) (fun e _ he ↦ readsEntry_option init he)
    (fun e he o ↦ ?_) (fun e hmem he d ↦ of_not_selected ?_) (selected_optionField init ▸ htame)
  · cases e with
    | other key value => rfl
    | _ => exact nomatch he
  · cases e with
    | other key value =>
      have hkey := hforeign key value hmem
      rw [selected_optionField]
      simp only [optionKeys, List.mem_cons, List.not_mem_nil, or_false, not_or] at hkey
      simp [optionSelects, OptionMember.member, hkey]
    | _ => exact nomatch he

theorem readsValue_properties {es : List PropertyMember} (hforeign : PropertyMember.Foreign es)
    (htame : TameObject propertySelects PropertyMember.isOther PropertyMember.member es) :
    ReadsValue (readEntries propertyField) (.object (es.map PropertyMember.member))
      fun p ↦ es.foldl (fun p e ↦ e.set p) p := by
  refine readsValue_object fieldsRegular_property (fun e _ he ↦ readsEntry_property he)
    (fun e he o ↦ ?_) (fun e hmem he d ↦ of_not_selected ?_) (selected_propertyField ▸ htame)
  · cases e with
    | other key value => rfl
    | _ => exact nomatch he
  · cases e with
    | other key value =>
      have hkey := hforeign key value hmem
      rw [selected_propertyField]
      simp only [propertyKeys, List.mem_cons, List.not_mem_nil, or_false, not_or] at hkey
      simp [propertySelects, PropertyMember.member, hkey]
    | _ => exact nomatch he

theorem readsValue_update {es : List PropertyMember} (hforeign : PropertyMember.Foreign es)
    (htame : TameObject updateSelects PropertyMember.isOther PropertyMember.member es) :
    ReadsValue (readEntries updateField) (.object (es.map PropertyMember.member))
      fun l ↦ es.foldl (fun l e ↦ e.update l) l := by
  refine readsValue_object fieldsRegular_update (fun e _ he ↦ readsEntry_update he)
    (fun e he o ↦ ?_) (fun e hmem he d ↦ of_not_selected ?_) (selected_updateField ▸ htame)
  · cases e with
    | other key value => rfl
    | _ => exact nomatch he
  · cases e with
    | other key value =>
      have hkey := hforeign key value hmem
      rw [selected_updateField]
      simp only [propertyKeys, List.mem_cons, List.not_mem_nil, or_false, not_or] at hkey
      simp [updateSelects, PropertyMember.member, hkey]
    | _ => exact nomatch he

/-! ### The array of topics -/

/-- The loop over the topics ends. -/
theorem shrinks_topics : Shrinks remaining (fun u ↦ u.peekType.any (· ≠ .arrayEnd))
    fun topics : List Str ↦ (topics ++ [·]) <$> unpackString :=
  fun _ _ hu ↦ unpackKey_lt (remaining_pos hu)

/-- The other elements, with the comma before them. -/
theorem elementTokens_of_ne_nil {vs : List Value} (hne : vs ≠ []) :
    elementTokens vs = .comma :: (elementTokens vs).tail := by
  obtain ⟨v, vs, rfl⟩ := List.exists_cons_of_ne_nil hne
  rw [elementTokens]
  rfl

/-- The loop over the topics, from where it stands between two of them. -/
theorem leads_topics {topics : List Str} (htopics : ∀ topic ∈ topics, 0x22 ∉ topic) {l : List Token}
    (hnil : topics = [] → l = []) (hl : Separators l) (read : List Str) (ts : List Token) :
    Leads (At (l ++ ((elementTokens (topics.map .string)).tail ++ .endArray :: ts)))
      (whileNot .arrayEnd (fun topics ↦ (topics ++ [·]) <$> unpackString) read)
      (read ++ topics) (At (.endArray :: ts)) := by
  -- on the strings that are left; what was read so far and the comma before the next one vary
  induction topics generalizing read l with
  | nil =>
    rw [hnil rfl, List.append_nil]
    refine .whileDo_done shrinks_topics read fun u hu ↦ ?_
    rw [hu.peekType (d := .arrayEnd) rfl]
    rfl
  | cons topic topics ih =>
    have ih' l := @ih (fun t ht ↦ htopics t (List.mem_cons_of_mem _ ht)) l
    rw [List.map_cons, elementTokens, List.tail_cons, Value.tokens, List.append_assoc,
      List.singleton_append, List.append_cons read]
    refine .whileDo_next shrinks_topics (fun u hu ↦ ?_)
      ((leads_unpackKey (htopics topic List.mem_cons_self) fun s hs ↦ ?_).map (read ++ [·])) ?_
    -- the comma has no type, so the next thing with one is the string
    · have htype : (l ++ .string topic :: (elementTokens (topics.map .string) ++ .endArray :: ts)
          ).findSome? Token.type = some .str := by
        rw [List.findSome?_append, List.findSome?_eq_none_iff.mpr fun t ht ↦ ?_]
        · rfl
        · rcases hl t ht with rfl | rfl <;> rfl
      rw [hu.peekType htype]
      rfl
    · rcases hl _ hs with h | h <;> cases h
    -- a comma follows every element but the last
    · rcases eq_or_ne topics [] with rfl | hne
      · exact ih' [] (fun _ ↦ rfl) (fun _ h ↦ absurd h List.not_mem_nil) _
      · rw [elementTokens_of_ne_nil fun h ↦ hne (List.map_eq_nil_iff.mp h)]
        exact ih' [.comma] (absurd · hne) (fun s hs ↦ .inl (List.eq_of_mem_singleton hs)) _

/-- Reading the value of a variable among others. -/
theorem ReadsValue.lift {α β : Type} {read : α → StateM Unpacker α} {v : Value} {f : α → α}
    (h : ReadsValue read v f) (get : β → α) (put : β → α → β) :
    ReadsValue (fun l ↦ put l <$> read (get l)) v fun l ↦ put l (f (get l)) :=
  fun l t ts ht ↦ (h (get l) t ts ht).map (put l)

/-- The array of the topics, read string by string. -/
theorem readsValue_topics {topics : List Str} (htopics : ∀ topic ∈ topics, 0x22 ∉ topic) :
    ReadsValue readTopics (.array (topics.map .string)) (· ++ topics) := by
  intro read t ts _
  rw [Value.tokens, List.cons_append, List.append_assoc]
  refine (leads_findAfter (l := [.colon]) (by decide) rfl ?_).bind <|
    (leads_topics (l := []) htopics (fun _ ↦ rfl) (fun _ h ↦ absurd h List.not_mem_nil) read
      (t :: ts)).bind <| (leads_findAfter (l := []) (by decide) rfl (.nil _)).bind <| .pure _
  simp [Passes, Token.text, ascii]

/-! ### Parameters -/

/-- Members without effect can be left out. -/
theorem foldl_filter_other {α ε : Type} {isOther : ε → Bool} {set : ε → α → α}
    (hset : ∀ e, isOther e = true → ∀ a, set e a = a) (es : List ε) (a : α) :
    (es.filter fun e ↦ !isOther e).foldl (fun a e ↦ set e a) a =
      es.foldl (fun a e ↦ set e a) a := by
  rw [List.foldl_filter]
  congr 1
  funext a e
  cases he : isOther e with
  | false => rfl
  | true => exact (hset e he a).symm

/-- What reading a parameter does. -/
def SubscribeMember.set : SubscribeMember → SubscribeLocals → SubscribeLocals
  | topics ts, l => { l with topics := l.topics ++ ts }
  | subuid i, l => { l with subuid := i }
  | options es, l => { l with options := es.foldl (fun o e ↦ e.set o) l.options }

/-- What is not known sets nothing. -/
theorem SubscribeMember.set_erase (e : SubscribeMember) (l : SubscribeLocals) :
    e.erase.set l = e.set l := by
  cases e with
  | options es =>
    have : (es.filter fun e ↦ !e.isOther).foldl (fun o e ↦ e.set o) l.options =
        es.foldl (fun o e ↦ e.set o) l.options := by
      refine foldl_filter_other (fun e he o ↦ ?_) es l.options
      cases e with
      | other key value => rfl
      | _ => exact nomatch he
    exact congrArg (fun options ↦ { l with options }) this
  | _ => rfl

/-- What reading a parameter does. -/
def PublishMember.set : PublishMember → PublishLocals → PublishLocals
  | name s, l => { l with topic := s }
  | pubuid i, l => { l with pubuid := i }
  | type s, l => { l with type := parseDataType s }
  | properties es, l => { l with properties := es.foldl (fun p e ↦ e.set p) l.properties }

theorem PublishMember.set_erase (e : PublishMember) (l : PublishLocals) :
    e.erase.set l = e.set l := by
  cases e with
  | properties es =>
    have : (es.filter fun e ↦ !e.isOther).foldl (fun p e ↦ e.set p) l.properties =
        es.foldl (fun p e ↦ e.set p) l.properties := by
      refine foldl_filter_other (fun e he p ↦ ?_) es l.properties
      cases e with
      | other key value => rfl
      | _ => exact nomatch he
    exact congrArg (fun properties ↦ { l with properties }) this
  | _ => rfl

/-- What reading a parameter does. -/
def SetPropertiesMember.set : SetPropertiesMember → SetPropertiesLocals → SetPropertiesLocals
  | name s, l => { l with topic := s }
  | update es, l => es.foldl (fun l e ↦ e.update l) l

theorem SetPropertiesMember.set_erase (e : SetPropertiesMember) (l : SetPropertiesLocals) :
    e.erase.set l = e.set l := by
  cases e with
  | update es =>
    refine foldl_filter_other (fun e he l ↦ ?_) es l
    cases e with
    | other key value => rfl
    | _ => exact nomatch he
  | name s => rfl

/-- A parameter of a subscription: the topics, the uid or the options. -/
theorem readsParam_subscribe (init : Locals) {e : SubscribeMember}
    (htopics : ∀ ts, e = .topics ts → ∀ t ∈ ts, 0x22 ∉ t)
    (hforeign : ∀ es, e = .options es → ∀ key value, .other key value ∈ es → key ∉ optionKeys)
    (htame : ∀ es, e = .options es →
      TameObject optionSelects OptionMember.isOther OptionMember.member es) :
    ReadsParam (subscribeParam init) e.member e.set := by
  cases e with
  | topics ts =>
    exact ⟨(by decide : 0x22 ∉ ascii "topics"), _, rfl, (readsValue_topics (htopics ts rfl)).lift
      SubscribeLocals.topics fun l topics ↦ { l with topics }⟩
  | subuid i =>
    exact ⟨(by decide : 0x22 ∉ ascii "subuid"), _, rfl,
      readsValue_int fun subuid (l : SubscribeLocals) ↦ { l with subuid }⟩
  | options es =>
    exact ⟨(by decide : 0x22 ∉ ascii "options"), _, rfl,
      (readsValue_options init (hforeign es rfl) (htame es rfl)).lift SubscribeLocals.options
        fun l options ↦ { l with options }⟩

/-- A parameter of a publication. -/
theorem readsParam_publish (init : Locals) {e : PublishMember}
    (hname : ∀ s, e = .name s → 0x22 ∉ s) (htype : ∀ s, e = .type s → 0x22 ∉ s)
    (hforeign : ∀ es, e = .properties es → PropertyMember.Foreign es)
    (htame : ∀ es, e = .properties es →
      TameObject propertySelects PropertyMember.isOther PropertyMember.member es) :
    ReadsParam (publishParam init) e.member e.set := by
  cases e with
  | name s =>
    exact ⟨(by decide : 0x22 ∉ ascii "name"), _, rfl,
      readsValue_string (hname s rfl) fun topic (l : PublishLocals) ↦ { l with topic }⟩
  | pubuid i =>
    exact ⟨(by decide : 0x22 ∉ ascii "pubuid"), _, rfl,
      readsValue_int fun pubuid (l : PublishLocals) ↦ { l with pubuid }⟩
  | type s =>
    exact ⟨(by decide : 0x22 ∉ ascii "type"), _, rfl, readsValue_string (htype s rfl)
      fun type (l : PublishLocals) ↦ { l with type := parseDataType type }⟩
  | properties es =>
    exact ⟨(by decide : 0x22 ∉ ascii "properties"), _, rfl,
      (readsValue_properties (hforeign es rfl) (htame es rfl)).lift PublishLocals.properties
        fun l properties ↦ { l with properties }⟩

/-- A parameter of a message that sets properties. -/
theorem readsParam_setProperties {e : SetPropertiesMember} (hname : ∀ s, e = .name s → 0x22 ∉ s)
    (hforeign : ∀ es, e = .update es → PropertyMember.Foreign es)
    (htame : ∀ es, e = .update es →
      TameObject updateSelects PropertyMember.isOther PropertyMember.member es) :
    ReadsParam setPropertiesParam e.member e.set := by
  cases e with
  | name s =>
    exact ⟨(by decide : 0x22 ∉ ascii "name"), _, rfl,
      readsValue_string (hname s rfl) fun topic (l : SetPropertiesLocals) ↦ { l with topic }⟩
  | update es =>
    exact ⟨(by decide : 0x22 ∉ ascii "update"), _, rfl,
      readsValue_update (hforeign es rfl) (htame es rfl)⟩

/-- The one parameter of a message that ends something. -/
theorem readsParam_uid (init : Locals) {name : Str} (hname : 0x22 ∉ name) (i : Int32) :
    ReadsParam (uidParam init name) (name, intValue i) fun _ ↦ i := by
  refine ⟨hname, fun _ ↦ unpackInt init.i, if_pos rfl, ?_⟩
  exact fun _ _ _ ht ↦ leads_unpackInt (l := [.colon]) separators_colon ht

/-! ### Messages -/

/-- Members can be put in order, and members of members left out. -/
theorem foldl_of_perm {α ε : Type} {set : ε → α → α} {erase : ε → ε}
    (herase : ∀ e a, set (erase e) a = set e a) {es c : List ε} (h : (es.map erase).Perm c)
    (hcomm : ∀ e ∈ c, ∀ e' ∈ c, ∀ a, set e' (set e a) = set e (set e' a)) (a : α) :
    es.foldl (fun a e ↦ set e a) a = c.foldl (fun a e ↦ set e a) a := by
  rw [h.symm.foldl_eq' hcomm, List.foldl_map]
  simp only [herase]

/-- The order of the options does not matter. -/
theorem GivenOptions.foldl_of_perm (given : GivenOptions) {es : List OptionMember}
    (h : es.Perm given.members) :
    es.foldl (fun o e ↦ e.set o) .DEFAULT = given.options := by
  rw [← h.symm.foldl_eq' (fun e he e' he' o ↦ given.set_comm he he' o), given.foldl_members]

theorem GivenProperties.foldl_of_perm (given : GivenProperties) {es : List PropertyMember}
    (h : es.Perm given.members) :
    es.foldl (fun p e ↦ e.set p) .DEFAULT = given.properties := by
  rw [← h.symm.foldl_eq' (fun e he e' he' o ↦ given.set_comm he he' o), given.foldl_members]

/-- A property that is not named stays unset, and is not touched later. -/
theorem GivenProperties.foldl_update_of_perm (given : GivenProperties) {es : List PropertyMember}
    (h : es.Perm given.members) (topic : Str) :
    es.foldl (fun l e ↦ e.update l) { topic } =
      { topic, persistent := given.persistent, retained := given.retained,
        cached := given.cached } := by
  rw [← h.symm.foldl_eq' (fun e he e' he' l ↦ given.update_comm he he' l), given.foldl_update]

variable {init : Locals}

/-- The loop over the parameters of a message, with the values it ends with. -/
theorem leads_params {α ε : Type} {param : Str → Option (α → StateM Unpacker α)}
    {member : ε → Str × Value} {set : ε → α → α} {es : List ε} {n : ℕ} {a b : α}
    (hlen : es.length = n) (hread : ∀ e ∈ es, ReadsParam param (member e) (set e))
    (hfold : es.foldl (fun a e ↦ set e a) a = b) (ts : List Token) :
    Leads (At ((memberTokens (es.map member)).tail ++ .endObject :: ts)) (readParams param n a) b
      (At (.endObject :: ts)) := by
  subst hlen hfold
  exact leads_readParams (l := []) hread (fun _ ↦ rfl) fun _ ↦ List.not_mem_nil

theorem leads_uid {name : Str} (hname : 0x22 ∉ name) (i a : Int32) (ts : List Token) :
    Leads (At ((memberTokens [(name, intValue i)]).tail ++ .endObject :: ts))
      (readParams (uidParam init name) 1 a) i (At (.endObject :: ts)) :=
  @leads_params _ Unit _ (fun _ ↦ (name, intValue i)) (fun _ _ ↦ i) [()] 1 a i rfl
    (fun _ _ ↦ readsParam_uid init hname i) rfl ts

/-- What a handler reads from the parameters of its method. -/
abbrev ReadsParams (init : Locals) (method : MessageMethod) (params : List (Str × Value))
    (message : ClientMessage) : Prop :=
  ∀ ts, Leads (At ((memberTokens params).tail ++ .endObject :: ts))
    (readMessage init method) message
    (At (.endObject :: ts))

theorem readsParams_subscribe {params : List SubscribeMember} {topics : List Str} {subuid : Int32}
    {given : GivenOptions} {options : List OptionMember} (htopics : ∀ t ∈ topics, IsClean t)
    (hoptions : options.Perm given.members)
    (hparams : (params.map SubscribeMember.erase).Perm
      [.topics topics, .subuid subuid, .options options])
    (hforeign : (WrittenMessage.subscribe params).Foreign)
    (htame : (WrittenMessage.subscribe params).Tame) :
    ReadsParams init .subscribe (params.map SubscribeMember.member)
      (.subscribe topics subuid given.options) := by
  have hlen : params.length = 3 := by
    have := hparams.length_eq
    rwa [List.length_map] at this
  have hread : ∀ e ∈ params, ReadsParam (subscribeParam init) e.member e.set := by
    refine fun e he ↦ readsParam_subscribe init (fun ts heq t ht ↦ ?_)
      (fun es heq ↦ hforeign es (heq ▸ he)) fun es heq ↦ htame es (heq ▸ he)
    have hmem := hparams.mem_iff.mp (List.mem_map_of_mem (f := SubscribeMember.erase) he)
    subst heq
    simp only [SubscribeMember.erase, List.mem_cons, SubscribeMember.topics.injEq, reduceCtorEq,
      List.not_mem_nil, or_false] at hmem
    exact (htopics t (hmem ▸ ht)).1
  have hfold : params.foldl (fun l e ↦ e.set l) { subuid := init.subuid } =
      { topics, subuid, options := given.options } := by
    rw [foldl_of_perm SubscribeMember.set_erase hparams fun e he e' he' l ↦ ?_,
      ← given.foldl_of_perm hoptions]
    · rfl
    · simp only [List.mem_cons, List.not_mem_nil, or_false] at he he'
      rcases he with rfl | rfl | rfl <;> rcases he' with rfl | rfl | rfl <;> rfl
  exact fun ts ↦ (leads_params hlen hread hfold ts).bind (.pure _)

theorem readsParams_publish {params : List PublishMember} {name type : Str} {pubuid : Int32}
    {given : GivenProperties} {properties : List PropertyMember} (hname : 0x22 ∉ name)
    (htype : 0x22 ∉ type) (hproperties : properties.Perm given.members)
    (hparams : (params.map PublishMember.erase).Perm
      [.name name, .pubuid pubuid, .type type, .properties properties])
    (hforeign : (WrittenMessage.publish params).Foreign)
    (htame : (WrittenMessage.publish params).Tame) :
    ReadsParams init .publish (params.map PublishMember.member)
      (.publish name pubuid (parseDataType type) given.properties) := by
  have hlen : params.length = 4 := by
    have := hparams.length_eq
    rwa [List.length_map] at this
  have hread : ∀ e ∈ params, ReadsParam (publishParam init) e.member e.set := by
    intro e he
    have hmem := hparams.mem_iff.mp (List.mem_map_of_mem (f := PublishMember.erase) he)
    refine readsParam_publish init (fun s heq ↦ ?_) (fun s heq ↦ ?_)
      (fun es heq ↦ hforeign es (heq ▸ he)) fun es heq ↦ htame es (heq ▸ he)
    · subst heq
      simp only [PublishMember.erase, List.mem_cons, PublishMember.name.injEq, reduceCtorEq,
        List.not_mem_nil, or_false] at hmem
      exact hmem ▸ hname
    · subst heq
      simp only [PublishMember.erase, List.mem_cons, PublishMember.type.injEq, reduceCtorEq,
        List.not_mem_nil, or_false, false_or] at hmem
      exact hmem ▸ htype
  have hfold : params.foldl (fun l e ↦ e.set l) { pubuid := init.pubuid, type := init.type } =
      { topic := name, pubuid, type := parseDataType type, properties := given.properties } := by
    rw [foldl_of_perm PublishMember.set_erase hparams fun e he e' he' l ↦ ?_,
      ← given.foldl_of_perm hproperties]
    · rfl
    · simp only [List.mem_cons, List.not_mem_nil, or_false] at he he'
      rcases he with rfl | rfl | rfl | rfl <;> rcases he' with rfl | rfl | rfl | rfl <;> rfl
  exact fun ts ↦ (leads_params hlen hread hfold ts).bind (.pure _)

theorem readsParams_setProperties {params : List SetPropertiesMember} {name : Str}
    {given : GivenProperties} {update : List PropertyMember} (hname : IsClean name)
    (hupdate : update.Perm given.members)
    (hparams : (params.map SetPropertiesMember.erase).Perm [.name name, .update update])
    (hforeign : (WrittenMessage.setproperties params).Foreign)
    (htame : (WrittenMessage.setproperties params).Tame) :
    ReadsParams init .setProperties (params.map SetPropertiesMember.member)
      (.setproperties name given.persistent given.retained given.cached) := by
  have hlen : params.length = 2 := by
    have := hparams.length_eq
    rwa [List.length_map] at this
  have hread : ∀ e ∈ params, ReadsParam setPropertiesParam e.member e.set := by
    refine fun e he ↦ readsParam_setProperties (fun s heq ↦ ?_)
      (fun es heq ↦ hforeign es (heq ▸ he)) fun es heq ↦ htame es (heq ▸ he)
    have hmem := hparams.mem_iff.mp (List.mem_map_of_mem (f := SetPropertiesMember.erase) he)
    subst heq
    simp only [SetPropertiesMember.erase, List.mem_cons, SetPropertiesMember.name.injEq,
      reduceCtorEq, List.not_mem_nil, or_false] at hmem
    exact hmem ▸ hname.1
  have htopic (e : PropertyMember) (l : SetPropertiesLocals) (topic : Str) :
      e.update { l with topic } = { e.update l with topic } := by
    cases e <;> rfl
  have htopics (es : List PropertyMember) (l : SetPropertiesLocals) (topic : Str) :
      es.foldl (fun l e ↦ e.update l) { l with topic } =
        { es.foldl (fun l e ↦ e.update l) l with topic } := by
    induction es generalizing l with
    | nil => rfl
    | cons e es ih => rw [List.foldl_cons, htopic, ih, List.foldl_cons]
  have hfold : params.foldl (fun l e ↦ e.set l) {} =
      { topic := name, persistent := given.persistent, retained := given.retained,
        cached := given.cached } := by
    rw [foldl_of_perm SetPropertiesMember.set_erase hparams fun e he e' he' l ↦ ?_,
      ← given.foldl_update_of_perm hupdate]
    · rfl
    · simp only [List.mem_cons, List.not_mem_nil, or_false] at he he'
      rcases he with rfl | rfl <;> rcases he' with rfl | rfl
      · rfl
      · exact htopics update l name
      · exact (htopics update l name).symm
      · rfl
  exact fun ts ↦ (leads_params hlen hread hfold ts).bind (.pure _)

/-! ### The message loop -/

/-- The tokens of a message, with the method before the parameters. -/
theorem messageValue_tokens (method : Str) (params : List (Str × Value)) (ts : List Token) :
    (messageValue method params).tokens ++ ts =
      .beginObject :: .string (ascii "method") :: .colon ::
      .string method :: .comma :: .string (ascii "params") :: .colon :: .beginObject ::
        ((memberTokens params).tail ++ .endObject :: .endObject :: ts) := by
  simp [messageValue, Value.tokens, memberTokens]

/-- A pass of the loop, up to the two closing braces it searches for in the end. -/
theorem leads_readObject_of {method : Str} {params : List (Str × Value)} {message : ClientMessage}
    {l ts : List Token} {P Q R : Unpacker → Prop} (hl : Passes [0x7b] l) (hmethod : 0x22 ∉ method)
    (hread : Leads (At ((memberTokens params).tail ++ .endObject :: .endObject :: ts))
      (readMessage init (parseMessageMethod method)) message P)
    (hend : Leads P unpackObjectEnd () Q) (hend' : Leads Q unpackObjectEnd () R) :
    Leads (At (l ++ ((messageValue method params).tokens ++ ts))) (readObject init) message R := by
  have hkey : (0x22 : UInt8) ∉ ascii "method" ∧ (0x22 : UInt8) ∉ ascii "params" := by decide
  rw [messageValue_tokens]
  refine (leads_findAfter (by decide) rfl hl).bind <|
    (leads_unpackKey (l := []) hkey.1 fun _ ↦ List.not_mem_nil).bind <|
    (leads_unpackKey (l := [.colon]) hmethod (by simp)).bind <|
    (leads_unpackKey (l := [.comma]) hkey.2 (by simp)).bind <|
    (leads_findAfter (l := [.colon]) (by decide) rfl ?_).bind <| hread.bind <|
    hend.bind <| hend'.bind <| .pure _
  simp [Passes, Token.text, ascii]

/-- A pass of the loop. Behind what the handler has read, it passes over tokens up to the brace that
ends the parameters. -/
theorem leads_readObject {method : Str} {params : List (Str × Value)} {message : ClientMessage}
    {l q ts : List Token} (hl : Passes [0x7b] l) (hmethod : 0x22 ∉ method) (hq : Passes [0x7d] q)
    (hread : Leads (At ((memberTokens params).tail ++ .endObject :: .endObject :: ts))
      (readMessage init (parseMessageMethod method)) message
      (At (q ++ .endObject :: .endObject :: ts))) :
    Leads (At (l ++ ((messageValue method params).tokens ++ ts))) (readObject init) message
      (At ts) :=
  leads_readObject_of hl hmethod hread (leads_findAfter (by decide) rfl hq)
    (leads_findAfter (l := []) (by decide) rfl (.nil _))

/-- A pass of the loop over this message comes to that one. -/
def Reads (init : Locals) (w : WrittenMessage) (m : ClientMessage) : Prop :=
  ∀ l, Passes [0x7b] l → ∀ ts,
    Leads (At (l ++ (w.value.tokens ++ ts))) (readObject init) m (At ts)

/-- A message is read if its parameters are. -/
theorem Reads.of_params {w : WrittenMessage} {m : ClientMessage} {method : Str}
    {params : List (Str × Value)} (hw : w.value = messageValue method params)
    (hmethod : 0x22 ∉ method) (h : ReadsParams init (parseMessageMethod method) params m) :
    Reads init w m :=
  fun _ hl _ ↦ hw ▸ leads_readObject (q := []) hl hmethod nofun (h _)

/-- The message that the loop comes to where this one is written. -/
def ReadAs (w : WrittenMessage) (m : ClientMessage) : Prop :=
  if w.isOther then m = .unknown else Writes w.erase m

/-- A message with another method is read as an unknown one, and its parameters are not looked
at. -/
theorem parseMessageMethod_of_not_mem {method : Str} (h : method ∉ handledMethods) :
    readMessage init (parseMessageMethod method) = pure .unknown := by
  simp only [handledMethods, List.mem_cons, List.not_mem_nil, or_false, not_or] at h
  obtain ⟨h1, h2, h3, h4, h5⟩ := h
  rw [parseMessageMethod, if_neg h1, if_neg h2, if_neg h3, if_neg h4, if_neg h5]
  split_ifs <;> rfl

/-- Case by case, the message that is read is the one that was meant. -/
theorem ReadAs.reads {w : WrittenMessage} {m : ClientMessage} (hforeign : w.Foreign)
    (htame : w.Tame) (h : ReadAs w m) : Reads init w m := by
  cases w with
  | subscribe params =>
    obtain ⟨htopics, hoptions, hparams⟩ := h
    exact .of_params rfl (by decide)
      (readsParams_subscribe htopics hoptions hparams hforeign htame)
  | publish params =>
    obtain - | ⟨hname, htype, hproperties, hparams⟩ := h
    exact .of_params rfl (by decide)
      (readsParams_publish hname.1 htype.1 hproperties hparams hforeign htame)
  | unsubscribe subuid =>
    obtain ⟨⟩ := h
    exact .of_params rfl (by decide) fun ts ↦ (leads_uid (by decide) subuid init.subuid ts).map _
  | unpublish pubuid =>
    obtain ⟨⟩ := h
    exact .of_params rfl (by decide) fun ts ↦ (leads_uid (by decide) pubuid init.pubuid ts).map _
  | setproperties params =>
    obtain - | - | - | - | ⟨hname, hupdate, hparams⟩ := h
    exact .of_params rfl (by decide)
      (readsParams_setProperties hname hupdate hparams hforeign htame)
  | other method params =>
    obtain rfl : m = .unknown := h
    intro l hl ts
    refine leads_readObject (q := (memberTokens params).tail) hl htame.1
      (fun t ht c hc hmem ↦ ?_) ?_
    · exact htame.2 t (List.mem_of_mem_tail ht) (List.eq_of_mem_singleton hmem ▸ hc)
    · rw [parseMessageMethod_of_not_mem hforeign]
      exact .pure _

/-- The body of the loop, with what it reads of the parameters. -/
def readObjectWith (read : MessageMethod → StateM Unpacker ClientMessage) :
    StateM Unpacker ClientMessage := do
  unpackObject
  let _ ← unpackKey
  let method ← unpackString
  let _ ← unpackKey
  unpackObject
  let message ← read (parseMessageMethod method)
  unpackObjectEnd
  unpackObjectEnd
  return message

/-- Every pass of the message loop moves on, however little it reads. -/
theorem shrinks_readObjectWith {read : MessageMethod → StateM Unpacker ClientMessage}
    (hread : ∀ method, Along Beyond (read method)) :
    Shrinks remaining moreMessages
      fun messages : List ClientMessage ↦ (messages ++ [·]) <$> readObjectWith read := by
  intro messages u hu
  have hpos : 0 < u.remaining := by
    simp only [moreMessages, Bool.decide_and, Bool.decide_eq_true, Bool.and_eq_true] at hu
    exact remaining_pos hu.2
  exact bind_findAfter_lt (fun _ ↦ along_unpackKey.bind fun _ ↦ along_unpackKey.bind fun _ ↦
    along_unpackKey.bind fun _ ↦ (along_safeFindAfter _).bind fun _ ↦ (hread _).bind fun _ ↦
    (along_safeFindAfter _).bind fun _ ↦ (along_safeFindAfter _).bind fun _ ↦ .pure _) hpos
/-- Every turn of the loop over the messages moves the pointer. -/
theorem shrinks_messages (init : Locals) : Shrinks remaining moreMessages
    fun messages : List ClientMessage ↦ (messages ++ [·]) <$> readObject init :=
  shrinks_readObjectWith (along_readMessage init)

/-- The loop goes on at a message, with separators before it. -/
theorem leads_message_next {w : WrittenMessage} {m : ClientMessage} {l ts : List Token}
    {read messages : List ClientMessage} {Q R : Unpacker → Prop} (hl : Separators l)
    (hw : Leads (At (l ++ (w.value.tokens ++ ts))) (readObject init) m Q)
    (hrest : Leads Q (whileDo remaining moreMessages
      (fun messages ↦ (messages ++ [·]) <$> readObject init) (read ++ [m])) messages R) :
    Leads (At (l ++ (w.value.tokens ++ ts))) (whileDo remaining moreMessages
      (fun messages ↦ (messages ++ [·]) <$> readObject init) read) messages R := by
  refine .whileDo_next (shrinks_messages init) (fun u hu ↦ ?_) (hw.map (read ++ [·])) hrest
  obtain ⟨d, hd, -, hne⟩ := w.value.exists_type ts
  obtain ⟨text, -, -, rfl⟩ := id hu
  have htype : (l ++ (w.value.tokens ++ ts)).findSome? Token.type = some d := by
    rw [List.findSome?_append, List.findSome?_eq_none_iff.mpr fun t ht ↦ ?_, Option.none_or, hd]
    rcases hl t ht with rfl | rfl <;> rfl
  rw [moreMessages, hu.peekType htype]
  simp [hne]

theorem passes_of_separators {l : List Token} (hl : Separators l) : Passes [0x7b] l := by
  intro t ht c hc
  rcases hl t ht with rfl | rfl <;> simp_all [Token.text, ascii]

/-- The messages of an array, from where the loop stands between two of them. -/
theorem leads_messages {ws : List WrittenMessage} {ms : List ClientMessage}
    (h : List.Forall₂ (Reads init) ws ms) {l : List Token} (hnil : ws = [] → l = [])
    (hl : Separators l) (read : List ClientMessage) (ts : List Token) :
    Leads (At (l ++ ((elementTokens (ws.map WrittenMessage.value)).tail ++ .endArray :: ts)))
      (whileDo remaining moreMessages (fun messages ↦ (messages ++ [·]) <$> readObject init) read)
      (read ++ ms) (At (.endArray :: ts)) := by
  induction h generalizing read l with
  | nil =>
    rw [hnil rfl, List.append_nil]
    refine .whileDo_done (shrinks_messages init) read fun u hu ↦ ?_
    rw [moreMessages, hu.peekType (d := .arrayEnd) rfl]
    simp
  | @cons w m ws ms hw h ih =>
    rw [List.map_cons, elementTokens, List.tail_cons, List.append_assoc, List.append_cons read]
    refine leads_message_next hl (hw l (passes_of_separators hl) _) ?_
    rcases eq_or_ne ws [] with rfl | hne
    · exact ih (l := []) (fun _ ↦ rfl) (fun _ h ↦ absurd h List.not_mem_nil) _
    · rw [elementTokens_of_ne_nil fun h ↦ hne (List.map_eq_nil_iff.mp h)]
      exact ih (l := [.comma]) (absurd · hne)
        (fun s hs ↦ .inl (List.eq_of_mem_singleton hs)) _

/-- The loop over the messages of a frame, from the beginning of the array. -/
theorem leads_textLoop {w : WrittenMessage} {ws : List WrittenMessage} {m : ClientMessage}
    {ms : List ClientMessage} (h : List.Forall₂ (Reads init) (w :: ws) (m :: ms)) :
    Leads (At (frameValue (w :: ws)).tokens) (textLoop init) (m :: ms) (At []) := by
  rw [List.forall₂_cons] at h
  have hws l := @leads_messages init ws ms h.2 l
  have hmessages : Leads (At (elementTokens (ws.map WrittenMessage.value) ++ [.endArray]))
      (whileDo remaining moreMessages (fun messages ↦ (messages ++ [·]) <$> readObject init) [m])
      (m :: ms) (At [.endArray]) := by
    rcases eq_or_ne ws [] with rfl | hne
    · exact hws [] (fun _ ↦ rfl) (fun _ h ↦ absurd h List.not_mem_nil) [m] []
    · rw [elementTokens_of_ne_nil fun h ↦ hne (List.map_eq_nil_iff.mp h)]
      exact hws [.comma] (absurd · hne) (fun s hs ↦ .inl (List.eq_of_mem_singleton hs)) [m] []
  have hmessage := h.1 [] (.nil _) (elementTokens (ws.map WrittenMessage.value) ++ [.endArray])
  rw [frameValue, Value.tokens, List.map_cons, elementTokens, List.tail_cons, List.append_assoc]
  exact (leads_findAfter (l := []) (by decide) rfl (.nil _)).bind <| hmessage.bind <|
    hmessages.bind <| (leads_findAfter (l := []) (by decide) rfl (.nil _)).bind <| .pure _

/-- A frame without messages: the loop runs once and comes to a message of no method. -/
theorem leads_textLoop_nil :
    Leads (At (frameValue []).tokens) (textLoop init) [.unknown] AtEnd := by
  have hread : Leads AtEnd (readMessage init (parseMessageMethod [])) .unknown AtEnd := .pure _
  have hobject : Leads (At [.endArray]) (readObject init) .unknown AtEnd := by
    refine (leads_findAfter_atEnd (by decide) ?_).bind <| AtEnd.unpackKey.bind <|
      AtEnd.unpackKey.bind <| AtEnd.unpackKey.bind <| (AtEnd.findAfter _).bind <|
      hread.bind <| (AtEnd.findAfter _).bind <| (AtEnd.findAfter _).bind <| .pure _
    simp [Passes, Token.text, ascii]
  refine (leads_findAfter (l := []) (by decide) rfl (.nil _)).bind <| hobject.bind <|
    (Leads.whileDo_done (shrinks_messages init) [.unknown] fun u hu ↦ ?_).bind <|
    (AtEnd.findAfter _).bind <| .pure _
  rw [hu]
  rfl

/-- From the tokens to the bytes of the payload, with white space between them. -/
theorem textMessages_of_leads {ts : List Token} {ms : List ClientMessage} {Q : Unpacker → Prop}
    (h : Leads (At ts) (textLoop init) ms Q) {payload : Bytes} (htext : Spells ts payload)
    (hplain : ∀ t ∈ ts, t.IsPlain) : textMessages init payload = ms := by
  obtain ⟨u, hu, -⟩ := h (setData payload) ⟨payload, htext, hplain, rfl⟩
  exact congrArg Prod.fst hu

/-- The known messages of a frame. -/
theorem dispatched_of_readAs {ws : List WrittenMessage} {ms : List ClientMessage}
    (h : List.Forall₂ ReadAs ws ms) (hforeign : ∀ w ∈ ws, w.Foreign) (htame : ∀ w ∈ ws, w.Tame)
    {payload : Bytes} (htext : Spells (frameValue ws).tokens payload)
    (hplain : ∀ t ∈ (frameValue ws).tokens, t.IsPlain) :
    dispatched init payload = ms.filter (· ≠ .unknown) := by
  cases h with
  | nil =>
    rw [dispatched, textMessages_of_leads leads_textLoop_nil htext hplain]
    rfl
  | @cons w m ws ms hw h =>
    have hreads : List.Forall₂ (Reads init) (w :: ws) (m :: ms) := by
      refine ((List.forall₂_and_left (p := fun w : WrittenMessage ↦ w.Foreign ∧ w.Tame) _ _).mpr
        ⟨fun w hw ↦ ⟨hforeign w hw, htame w hw⟩, .cons hw h⟩).imp ?_
      exact fun w m h ↦ h.2.reads h.1.1 h.1.2
    rw [dispatched, textMessages_of_leads (leads_textLoop hreads) htext hplain]

/-! ### Frames without unknown content -/

theorem GivenOptions.isOther_of_mem {given : GivenOptions} {e : OptionMember}
    (he : e ∈ given.members) : e.isOther = false := by
  simp only [members, List.mem_append, List.mem_map, Option.mem_toList] at he
  obtain ⟨b, -, rfl⟩ | ⟨b, -, rfl⟩ | ⟨b, -, rfl⟩ | ⟨b, -, rfl⟩ := he <;> rfl

theorem GivenProperties.isOther_of_mem {given : GivenProperties} {e : PropertyMember}
    (he : e ∈ given.members) : e.isOther = false := by
  obtain ⟨b, rfl, -⟩ | ⟨b, rfl, -⟩ | ⟨b, rfl, -⟩ := given.mem_members he <;> rfl

/-- An object without other members. -/
theorem filter_of_not_other {ε : Type} {isOther : ε → Bool} {es : List ε}
    (h : ∀ e ∈ es, isOther e = false) : (es.filter fun e ↦ !isOther e) = es :=
  List.filter_eq_self.mpr fun e he ↦ by rw [h e he]; rfl

theorem tameObject_of_not_other {ε : Type} {selects : Str → DataType → Bool} {isOther : ε → Bool}
    {member : ε → Str × Value} {es : List ε} (h : ∀ e ∈ es, isOther e = false) :
    TameObject selects isOther member es where
  ignored e he ho := absurd (h e he) (by simp [ho])
  last e he ho := absurd (h e (List.mem_of_getLast? he)) (by simp [ho])

/-- A number that is an integer is written as one. -/
theorem isPlain_intValue (i : Int32) : ∀ t ∈ (intValue i).tokens, t.IsPlain := by
  intro t ht text heq
  rw [List.eq_of_mem_singleton ht] at heq
  exact Token.number.inj heq ▸ isNumber_decimalInt i.toInt

theorem isPlain_messageValue {method : Str} {params : List (Str × Value)}
    (h : ∀ m ∈ params, ∀ t ∈ m.2.tokens, t.IsPlain) :
    ∀ t ∈ (messageValue method params).tokens, t.IsPlain := by
  refine forall_object nofun nofun nofun nofun fun m hm ↦ ⟨nofun, ?_⟩
  rcases List.mem_pair.mp hm with rfl | rfl
  · exact fun t ht ↦ List.eq_of_mem_singleton ht ▸ nofun
  · exact forall_object nofun nofun nofun nofun fun m hm ↦ ⟨nofun, h m hm⟩

theorem isPlain_properties {es : List PropertyMember} (h : ∀ e ∈ es, e.isOther = false) :
    ∀ t ∈ (Value.object (es.map PropertyMember.member)).tokens, t.IsPlain := by
  refine forall_object nofun nofun nofun nofun fun m hm ↦ ⟨nofun, ?_⟩
  obtain ⟨e, he, rfl⟩ := List.mem_map.mp hm
  cases e with
  | other key value => exact absurd (h _ he) (by simp [PropertyMember.isOther])
  | _ => exact fun t ht ↦ List.eq_of_mem_singleton ht ▸ nofun

/-- A message that is written without unknown content. -/
structure WrittenMessage.Bare (w : WrittenMessage) : Prop where
  isOther : w.isOther = false
  erase : w.erase = w
  foreign : w.Foreign
  tame : w.Tame
  plain : ∀ t ∈ w.value.tokens, t.IsPlain

theorem WrittenMessage.Bare.publish {name : Str} {pubuid : Int32} {type : Str}
    {given : GivenProperties} {properties : List PropertyMember} {params : List PublishMember}
    (hproperties : properties.Perm given.members)
    (hparams : params.Perm [.name name, .pubuid pubuid, .type type, .properties properties]) :
    (WrittenMessage.publish params).Bare := by
  have hother : ∀ e ∈ properties, e.isOther = false := fun e he ↦
    GivenProperties.isOther_of_mem (hproperties.mem_iff.mp he)
  have hmem : ∀ es, .properties es ∈ params → es = properties := by
    intro es hes
    simpa using hparams.mem_iff.mp hes
  refine ⟨rfl, ?_, fun es hes key value hkey ↦ ?_, fun es hes ↦ ?_, ?_⟩
  · refine congrArg WrittenMessage.publish (List.map_congr_left fun e he ↦ ?_) |>.trans
      (congrArg _ (List.map_id params))
    cases e with
    | properties es => exact congrArg _ (filter_of_not_other (hmem es he ▸ hother))
    | _ => rfl
  · exact absurd (hother _ (hmem es hes ▸ hkey)) (by simp [PropertyMember.isOther])
  · exact tameObject_of_not_other (hmem es hes ▸ hother)
  · refine isPlain_messageValue fun m hm ↦ ?_
    obtain ⟨e, he, rfl⟩ := List.mem_map.mp hm
    cases e with
    | pubuid i => exact isPlain_intValue i
    | properties es => exact isPlain_properties (hmem es he ▸ hother)
    | _ => exact fun t ht ↦ List.eq_of_mem_singleton ht ▸ nofun

theorem Writes.bare {w : WrittenMessage} {m : ClientMessage} (h : Writes w m) : w.Bare := by
  cases h with
  | @subscribe topics subuid given options params htopics hoptions hparams =>
    have hother : ∀ e ∈ options, e.isOther = false := fun e he ↦
      GivenOptions.isOther_of_mem (hoptions.mem_iff.mp he)
    have hmem : ∀ es, .options es ∈ params → es = options := by
      intro es hes
      simpa using hparams.mem_iff.mp hes
    refine ⟨rfl, ?_, fun es hes key value hkey ↦ ?_, fun es hes ↦ ?_, ?_⟩
    · refine congrArg WrittenMessage.subscribe (List.map_congr_left fun e he ↦ ?_) |>.trans
        (congrArg _ (List.map_id params))
      cases e with
      | options es =>
        exact congrArg _ (filter_of_not_other (hmem es he ▸ hother))
      | _ => rfl
    · exact absurd (hother _ (hmem es hes ▸ hkey)) (by simp [OptionMember.isOther])
    · exact tameObject_of_not_other (hmem es hes ▸ hother)
    · refine isPlain_messageValue fun m hm ↦ ?_
      obtain ⟨e, he, rfl⟩ := List.mem_map.mp hm
      cases e with
      | topics ts =>
        refine forall_array nofun nofun nofun fun v hv ↦ ?_
        obtain ⟨s, -, rfl⟩ := List.mem_map.mp hv
        exact fun t ht ↦ List.eq_of_mem_singleton ht ▸ nofun
      | subuid i => exact isPlain_intValue i
      | options es =>
        refine forall_object nofun nofun nofun nofun fun m hm ↦ ⟨nofun, ?_⟩
        obtain ⟨e, he', rfl⟩ := List.mem_map.mp hm
        cases e with
        | periodic i => exact isPlain_intValue i
        | other key value =>
          exact absurd (hother _ (hmem es he ▸ he')) (by simp [OptionMember.isOther])
        | _ => exact fun t ht ↦ List.eq_of_mem_singleton ht ▸ nofun
  | publish _ _ hproperties hparams => exact .publish hproperties hparams
  | unsubscribe subuid =>
    refine ⟨rfl, rfl, trivial, trivial, isPlain_messageValue fun m hm ↦ ?_⟩
    exact List.eq_of_mem_singleton hm ▸ isPlain_intValue subuid
  | unpublish pubuid =>
    refine ⟨rfl, rfl, trivial, trivial, isPlain_messageValue fun m hm ↦ ?_⟩
    exact List.eq_of_mem_singleton hm ▸ isPlain_intValue pubuid
  | @setproperties name given update params hname hupdate hparams =>
    have hother : ∀ e ∈ update, e.isOther = false := fun e he ↦
      GivenProperties.isOther_of_mem (hupdate.mem_iff.mp he)
    have hmem : ∀ es, .update es ∈ params → es = update := by
      intro es hes
      simpa using hparams.mem_iff.mp hes
    refine ⟨rfl, ?_, fun es hes key value hkey ↦ ?_, fun es hes ↦ ?_, ?_⟩
    · refine congrArg WrittenMessage.setproperties (List.map_congr_left fun e he ↦ ?_) |>.trans
        (congrArg _ (List.map_id params))
      cases e with
      | update es => exact congrArg _ (filter_of_not_other (hmem es he ▸ hother))
      | name s => rfl
    · exact absurd (hother _ (hmem es hes ▸ hkey)) (by simp [PropertyMember.isOther])
    · exact tameObject_of_not_other (hmem es hes ▸ hother)
    · refine isPlain_messageValue fun m hm ↦ ?_
      obtain ⟨e, he, rfl⟩ := List.mem_map.mp hm
      cases e with
      | update es => exact isPlain_properties (hmem es he ▸ hother)
      | name s => exact fun t ht ↦ List.eq_of_mem_singleton ht ▸ nofun

theorem Writes.ne_unknown {w : WrittenMessage} {m : ClientMessage} (h : Writes w m) :
    m ≠ .unknown := by
  cases h <;> exact nofun

/-- Without unknown members a message is read as what it says. -/
theorem Writes.readAs {w : WrittenMessage} {m : ClientMessage} (h : Writes w m) : ReadAs w m := by
  rw [ReadAs, h.bare.isOther, h.bare.erase]
  exact h

theorem forall_bare {ws : List WrittenMessage} {ms : List ClientMessage}
    (h : List.Forall₂ Writes ws ms) : (∀ w ∈ ws, w.Bare) ∧ ∀ m ∈ ms, m ≠ .unknown := by
  induction h with
  | nil => exact ⟨nofun, nofun⟩
  | cons hw _ ih =>
    exact ⟨List.forall_mem_cons.mpr ⟨hw.bare, ih.1⟩, List.forall_mem_cons.mpr ⟨hw.ne_unknown, ih.2⟩⟩

/-- Messages without unknown content are dispatched as they are read. -/
theorem dispatched_of_bare {ws : List WrittenMessage} {ms : List ClientMessage}
    (h : List.Forall₂ ReadAs ws ms) (hbare : ∀ w ∈ ws, w.Bare) (hunknown : ∀ m ∈ ms, m ≠ .unknown)
    {payload : Bytes} (htext : Spells (frameValue ws).tokens payload) (init : Locals) :
    dispatched init payload = ms := by
  have hplain : ∀ t ∈ (frameValue ws).tokens, t.IsPlain := by
    refine forall_array nofun nofun nofun fun v hv ↦ ?_
    obtain ⟨w, hw, rfl⟩ := List.mem_map.mp hv
    exact (hbare w hw).plain
  rw [dispatched_of_readAs h (fun w hw ↦ (hbare w hw).foreign) (fun w hw ↦ (hbare w hw).tame) htext
    hplain, List.filter_eq_self]
  exact fun m hm ↦ decide_eq_true (hunknown m hm)

/-- The text loop dispatches the messages of a frame, whatever the order of the members and the
white space between the tokens. -/
theorem dispatched_eq {ws : List WrittenMessage} {ms : List ClientMessage}
    (h : List.Forall₂ Writes ws ms) {payload : Bytes}
    (htext : Spells (frameValue ws).tokens payload) (init : Locals) :
    dispatched init payload = ms := by
  obtain ⟨hbare, hunknown⟩ := forall_bare h
  have hread : List.Forall₂ ReadAs ws ms := h.imp fun _ _ h ↦ h.readAs
  exact dispatched_of_bare hread hbare hunknown htext init

/-- Two messages with their members out of order. The name of a topic contains brackets. -/
theorem dispatched_eq_sample :
    dispatched ⟨0, 0, .bool, 0⟩ ((frameValue [
        .subscribe [.subuid (-7), .topics [ascii "/a[]\x7d", ascii "/b"],
          .options [.prefixMatch true, .periodic 20]],
        .publish [.pubuid 3, .name (ascii "/c"), .type (ascii "int"),
          .properties [.cached false]]]).tokens.flatMap Token.text) = [
      .subscribe [ascii "/a[]\x7d", ascii "/b"] (-7)
        { periodic := 20, all := false, topicsonly := false, prefixMatch := true },
      .publish (ascii "/c") 3 .int {}] :=
  dispatched_eq
    (.cons (@Writes.subscribe [ascii "/a[]\x7d", ascii "/b"] (-7)
        { periodic := some 20, prefixMatch := some true } _ _ (by decide) (.swap ..) (.swap ..)) <|
      .cons (@Writes.publish (ascii "/c") 3 (ascii "int") { cached := some false } _ _ (by decide)
        (by decide) (.refl _) (.swap ..)) .nil)
    (spells_flatMap _) _

end NetworkTables
