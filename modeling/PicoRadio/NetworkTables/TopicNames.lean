import PicoRadio.NetworkTables.Batching
import PicoRadio.NetworkTables.MetaTopicsExist
import PicoRadio.NetworkTables.NullPointers
import PicoRadio.NetworkTables.SoundStates
import PicoRadio.NetworkTables.TextDispatch

/-!
# Topic names in text frames

A name is read as the bytes between two quotation marks, and written as it is between two quotation
marks. Neither direction knows of escapes, so a name travels unchanged just if nothing in it must be
escaped (`names_unchanged_iff`): no quotation mark, no backslash and no control character. Nor may
it begin with `$`: the publication of such a name may end in an assertion.

## Two directions

A message of the server carries the name as it is, so what is sent is a JSON text with this name
just if nothing in the name must be escaped (`CarriesName`). A client writes the name in an
encoding, and what the server reads are the bytes of the encoding. With the standard one, which
escapes no more than it must, these are the name itself just if again nothing must be escaped
(`Registers`).

The topics of the server itself have names that begin with `$`. They may contain the name of a
client, which is not looked at here, so of these names it is asked beside that nothing in them must
be escaped.
-/

open Json Json.Unpacker

namespace NetworkTables

/-- Nothing in the string must be escaped. -/
def IsUnescaped (s : Str) : Prop :=
  ∀ c ∈ s, ¬MustEscape c

instance : DecidablePred IsUnescaped :=
  fun s ↦ inferInstanceAs (Decidable (∀ c ∈ s, ¬MustEscape c))

/-! ### Messages of the server -/

/-- The topic a message is about. -/
def TextMessage.name : TextMessage → Str
  | announce name _ _ _ _ | unannounce name _ | properties name _ _ => name

/-- The object of properties. -/
def TopicProperties.value (p : TopicProperties) : Value :=
  .object [(ascii "persistent", .bool p.persistent), (ascii "retained", .bool p.retained),
    (ascii "cached", .bool p.cached)]

/-- The value the text of a message is meant to be. -/
def TextMessage.value : TextMessage → Value
  | announce name id type none props =>
    messageValue (ascii "announce") [(ascii "name", .string name),
      (ascii "id", .number (decimalInt id)), (ascii "type", .string type.serialize),
      (ascii "properties", props.value)]
  | announce name id type (some pubuid) props =>
    messageValue (ascii "announce") [(ascii "name", .string name),
      (ascii "id", .number (decimalInt id)), (ascii "type", .string type.serialize),
      (ascii "pubuid", intValue pubuid), (ascii "properties", props.value)]
  | unannounce name id =>
    messageValue (ascii "unannounce") [(ascii "name", .string name),
      (ascii "id", .number (decimalInt id))]
  | properties name false update =>
    messageValue (ascii "properties") [(ascii "name", .string name),
      (ascii "update", update.value)]
  | properties name true update =>
    messageValue (ascii "properties") [(ascii "name", .string name), (ascii "ack", .bool true),
      (ascii "update", update.value)]

theorem TopicProperties.text_eq (p : TopicProperties) : p.text = p.value.compact := by
  obtain ⟨_ | _, _ | _, _ | _⟩ := p <;> rfl

/-- The builders write the tokens one after the other. -/
theorem TextMessage.text_eq (m : TextMessage) : m.text = m.value.compact := by
  cases m with
  | announce name id type pubuid props =>
    cases pubuid with
    | none =>
      simp only [text, value, messageValue, TopicProperties.text_eq, Value.compact_object,
        compactMembers_cons, Value.compact_string, Value.compact_number, compactMembers_nil,
        List.append_assoc, List.nil_append]
      rfl
    | some pubuid =>
      simp only [text, value, messageValue, intValue, TopicProperties.text_eq,
        Value.compact_object, compactMembers_cons, Value.compact_string, Value.compact_number,
        compactMembers_nil, List.append_assoc, List.nil_append]
      rfl
  | unannounce name id =>
    simp only [text, value, messageValue, Value.compact_object, compactMembers_cons,
      Value.compact_string, Value.compact_number, compactMembers_nil, List.append_assoc,
      List.nil_append]
    rfl
  | properties name ack update =>
    cases ack with
    | false =>
      simp only [text, value, messageValue, TopicProperties.text_eq, Value.compact_object,
        compactMembers_cons, Value.compact_string, compactMembers_nil, List.append_assoc,
        List.nil_append]
      rfl
    | true =>
      simp only [text, value, messageValue, TopicProperties.text_eq, Value.compact_object,
        compactMembers_cons, Value.compact_string, compactMembers_nil, List.append_assoc,
        List.nil_append]
      rfl

/-- The names of data types contain nothing that must be escaped. -/
theorem NTDataType.isUnescaped_serialize (type : NTDataType) : IsUnescaped type.serialize := by
  cases type with
  | unlisted code => exact fun _ hc ↦ absurd hc List.not_mem_nil
  | _ => decide +kernel

/-- Every token of the value is one that the grammar allows. -/
abbrev IsValid (v : Value) : Prop :=
  ∀ t ∈ v.tokens, t.Valid

theorem isValid_string {s : Str} (h : IsUnescaped s) : IsValid (.string s) :=
  fun _ ht ↦ List.eq_of_mem_singleton ht ▸ ⟨s, encodes_of_plain h⟩

theorem isValid_decimalInt (i : ℤ) : IsValid (.number (decimalInt i)) :=
  fun _ ht ↦ List.eq_of_mem_singleton ht ▸ isNumber_decimalInt i

theorem isValid_bool (b : Bool) : IsValid (.bool b) :=
  fun _ ht ↦ List.eq_of_mem_singleton ht ▸ trivial

theorem isValid_object {ms : List (Str × Value)}
    (h : ∀ m ∈ ms, IsUnescaped m.1 ∧ IsValid m.2) : IsValid (.object ms) :=
  forall_object trivial trivial trivial trivial fun m hm ↦
    ⟨⟨m.1, encodes_of_plain (h m hm).1⟩, (h m hm).2⟩

theorem TopicProperties.isValid_value (p : TopicProperties) : IsValid p.value := by
  have hpersistent : IsUnescaped (ascii "persistent") := by decide +kernel
  have hretained : IsUnescaped (ascii "retained") := by decide +kernel
  have hcached : IsUnescaped (ascii "cached") := by decide +kernel
  refine isValid_object fun m hm ↦ ?_
  simp only [List.mem_cons, List.not_mem_nil, or_false] at hm
  rcases hm with rfl | rfl | rfl
  exacts [⟨hpersistent, isValid_bool _⟩, ⟨hretained, isValid_bool _⟩, ⟨hcached, isValid_bool _⟩]

/-- The text of a message is valid if its name needs no escapes. -/
theorem TextMessage.isValid_value {m : TextMessage} (h : IsUnescaped m.name) : IsValid m.value := by
  have hmessage {method : Str} {params : List (Str × Value)} (hmethod : IsUnescaped method)
      (hparams : ∀ m ∈ params, IsUnescaped m.1 ∧ IsValid m.2) :
      IsValid (messageValue method params) := by
    have hkey : IsUnescaped (ascii "method") := by decide +kernel
    have hkey' : IsUnescaped (ascii "params") := by decide +kernel
    refine isValid_object fun m hm ↦ ?_
    rcases List.mem_pair.mp hm with rfl | rfl
    · exact ⟨hkey, isValid_string hmethod⟩
    · exact ⟨hkey', isValid_object hparams⟩
  have hname : IsUnescaped (ascii "name") ∧ IsValid (.string m.name) :=
    ⟨by decide +kernel, isValid_string h⟩
  cases m with
  | announce name id type pubuid props =>
    have hid : IsUnescaped (ascii "id") ∧ IsValid (.number (decimalInt id)) :=
      ⟨by decide +kernel, isValid_decimalInt id⟩
    have htype : IsUnescaped (ascii "type") ∧ IsValid (.string type.serialize) :=
      ⟨by decide +kernel, isValid_string (NTDataType.isUnescaped_serialize type)⟩
    have hprops : IsUnescaped (ascii "properties") ∧ IsValid props.value :=
      ⟨by decide +kernel, props.isValid_value⟩
    cases pubuid with
    | none =>
      refine hmessage (by decide +kernel) fun m hm ↦ ?_
      simp only [List.mem_cons, List.not_mem_nil, or_false] at hm
      rcases hm with rfl | rfl | rfl | rfl
      exacts [hname, hid, htype, hprops]
    | some pubuid =>
      have hkey : IsUnescaped (ascii "pubuid") := by decide +kernel
      refine hmessage (by decide +kernel) fun m hm ↦ ?_
      simp only [List.mem_cons, List.not_mem_nil, or_false] at hm
      rcases hm with rfl | rfl | rfl | rfl | rfl
      exacts [hname, hid, htype, ⟨hkey, isValid_decimalInt _⟩, hprops]
  | unannounce name id =>
    have hkey : IsUnescaped (ascii "id") := by decide +kernel
    refine hmessage (by decide +kernel) fun m hm ↦ ?_
    rcases List.mem_pair.mp hm with rfl | rfl
    exacts [hname, ⟨hkey, isValid_decimalInt id⟩]
  | properties name ack update =>
    have hupdate : IsUnescaped (ascii "update") ∧ IsValid update.value :=
      ⟨by decide +kernel, update.isValid_value⟩
    cases ack with
    | false =>
      refine hmessage (by decide +kernel) fun m hm ↦ ?_
      rcases List.mem_pair.mp hm with rfl | rfl
      exacts [hname, hupdate]
    | true =>
      have hkey : IsUnescaped (ascii "ack") := by decide +kernel
      refine hmessage (by decide +kernel) fun m hm ↦ ?_
      simp only [List.mem_cons, List.not_mem_nil, or_false] at hm
      rcases hm with rfl | rfl | rfl
      exacts [hname, ⟨hkey, isValid_bool true⟩, hupdate]

/-! ### Frames of the server -/

theorem joined_eq (batch : List TextMessage) :
    ClientHistory.joined batch =
      (elementTokens (batch.map TextMessage.value)).tail.flatMap Token.text := by
  induction batch with
  | nil => rfl
  | cons m batch ih =>
    rw [List.map_cons, elementTokens, List.tail_cons, List.flatMap_append]
    rcases eq_or_ne batch [] with rfl | hne
    · rw [List.map_nil, elementTokens, List.flatMap_nil, List.append_nil]
      exact List.intercalate_singleton.trans m.text_eq
    · have hjoined : ClientHistory.joined (m :: batch) =
          m.text ++ ascii "," ++ ClientHistory.joined batch :=
        List.intercalate_cons_of_ne_nil (by simpa using hne)
      rw [hjoined, ih, m.text_eq, elementTokens_of_ne_nil fun h ↦ hne (List.map_eq_nil_iff.mp h),
        List.tail_cons, List.flatMap_cons, List.append_assoc]
      rfl

/-- A frame is the text of the array of its messages, if no name in it needs escapes. -/
theorem isText_textFrame {batch : List TextMessage} (h : ∀ m ∈ batch, IsUnescaped m.name) :
    (Value.array (batch.map TextMessage.value)).IsText (ClientOutput.textFrame batch) := by
  have htext : ClientOutput.textFrame batch =
      (Value.array (batch.map TextMessage.value)).tokens.flatMap Token.text := by
    rw [ClientOutput.textFrame, joined_eq, Value.tokens, List.flatMap_cons, List.flatMap_append,
      List.flatMap_singleton, List.append_assoc]
    rfl
  refine ⟨htext ▸ spells_flatMap _, forall_array trivial trivial trivial fun v hv ↦ ?_⟩
  obtain ⟨m, hm, rfl⟩ := List.mem_map.mp hv
  exact m.isValid_value (h m hm)

/-- `method` of a message. -/
def TextMessage.method : TextMessage → Str
  | announce _ _ _ _ _ => ascii "announce"
  | unannounce _ _ => ascii "unannounce"
  | properties _ _ _ => ascii "properties"

/-- The value is a message of this method whose one member `name` is the name. -/
def CarriesName (method name : Str) (v : Value) : Prop :=
  ∃ params text, v = messageValue method params ∧
    (∀ w, (ascii "name", w) ∈ params ↔ w = .string text) ∧ Json.Encodes text name

theorem TextMessage.carriesName {m : TextMessage} (h : IsUnescaped m.name) :
    CarriesName m.method m.name m.value := by
  have hkeys {rest : List (Str × Value)} (hrest : ∀ p ∈ rest, p.1 ≠ ascii "name") (w : Value) :
      (ascii "name", w) ∈ (ascii "name", Value.string m.name) :: rest ↔
        w = .string m.name := by
    rw [List.mem_cons]
    refine ⟨fun h ↦ h.elim (fun h ↦ (Prod.mk.inj h).2) fun h ↦ absurd rfl (hrest _ h), ?_⟩
    rintro rfl
    exact .inl rfl
  have hencodes : Json.Encodes m.name m.name := encodes_of_plain h
  cases m with
  | announce name id type pubuid props =>
    cases pubuid with
    | none => exact ⟨_, name, rfl, hkeys (by simp; decide), hencodes⟩
    | some pubuid => exact ⟨_, name, rfl, hkeys (by simp; decide), hencodes⟩
  | unannounce name id => exact ⟨_, name, rfl, hkeys (by simp; decide), hencodes⟩
  | properties name ack update =>
    cases ack with
    | false => exact ⟨_, name, rfl, hkeys (by simp; decide), hencodes⟩
    | true => exact ⟨_, name, rfl, hkeys (by simp; decide), hencodes⟩

/-! ### Names that are read -/

/-- The name of a topic to publish holds no quotation mark. -/
def ClientMessage.Unquoted : ClientMessage → Prop
  | publish name _ _ _ => 0x22 ∉ name
  | _ => True

theorem returns_readParams {α : Type} {P : α → Prop} {param : Str → Option (α → StateM Unpacker α)}
    (h : ∀ key read, param key = some read → ∀ a, P a → Returns (read a) P) (n : ℕ) :
    ∀ a, P a → Returns (readParams param n a) P := by
  induction n with
  | zero => exact fun a ↦ .pure
  | succ n ih =>
    refine fun a ha ↦ .bind' fun key ↦ .bind (P := P) ?_ ih
    unfold readIf
    split
    · next read hread => exact h key read hread a ha
    · exact .pure ha

theorem returns_readMessage (init : Locals) (method : MessageMethod) :
    Returns (readMessage init method) ClientMessage.Unquoted := by
  cases method with
  | publish =>
    refine .bind (P := fun l : PublishLocals ↦ 0x22 ∉ l.topic)
      (returns_readParams (fun key read hread l hl ↦ ?_) 4 _ List.not_mem_nil) fun l hl ↦ .pure hl
    unfold publishParam at hread
    split_ifs at hread
    · obtain rfl := Option.some.inj hread
      exact .map returns_unpackKey
    all_goals
      obtain rfl := Option.some.inj hread
      exact .map fun _ ↦ hl
  | subscribe => exact .bind' fun _ ↦ .pure trivial
  | setProperties => exact .bind' fun _ ↦ .pure trivial
  | unSubscribe => exact .map fun _ ↦ trivial
  | unPublish => exact .map fun _ ↦ trivial
  | unknown | announce | unAnnounce | properties => exact .pure trivial

/-- What every handler reads is what the text loop comes to, whatever the payload. -/
theorem forall_textMessages {init : Locals} {P : ClientMessage → Prop}
    (h : ∀ method, Returns (readMessage init method) P) {payload : Bytes} {m : ClientMessage}
    (hm : m ∈ textMessages init payload) : P m := by
  have hobject : Returns (readObject init) P :=
    .bind' fun _ ↦ .bind' fun _ ↦ .bind' fun _ ↦ .bind' fun _ ↦ .bind' fun _ ↦
      (h _).bind fun _ hm ↦ .bind' fun _ ↦ .bind' fun _ ↦ .pure hm
  have hloop : Returns (textLoop init) fun ms ↦ ∀ m ∈ ms, P m := by
    refine .bind' fun _ ↦ hobject.bind fun m hm ↦ .bind (P := fun ms ↦ ∀ m ∈ ms, P m)
      (.whileDo (fun ms hms ↦ .map ?_) ?_) fun ms hms ↦ .bind' fun _ ↦ .pure hms
    · refine fun u ↦ List.forall_mem_append.mpr ⟨hms, List.forall_mem_singleton.mpr ?_⟩
      exact hobject u
    · exact List.forall_mem_singleton.mpr hm
  exact hloop _ m hm

/-- Whatever the payload, no name with a quotation mark is read from it. -/
theorem unquoted_of_mem {init : Locals} {payload : Bytes} {m : ClientMessage}
    (hm : m ∈ textMessages init payload) : m.Unquoted :=
  forall_textMessages (returns_readMessage init) hm

section Publishing

variable {given : GivenProperties} {properties : List PropertyMember} {pubuid : Int32}
  {type : Str} {params : List PublishMember} {payload : Bytes}

/-- The name is taken as it is written. -/
theorem textMessages_publish {text : Str} (htext : 0x22 ∉ text) (htype : 0x22 ∉ type)
    (hproperties : properties.Perm given.members)
    (hparams : params.Perm [.name text, .pubuid pubuid, .type type, .properties properties])
    (hpayload : Spells (frameValue [.publish params]).tokens payload) (init : Locals) :
    textMessages init payload = [.publish text pubuid (parseDataType type) given.properties] := by
  have hbare : (WrittenMessage.publish params).Bare := .publish hproperties hparams
  have herase := WrittenMessage.publish.inj hbare.erase
  have hreads : Reads init (.publish params) (.publish text pubuid (parseDataType type)
      given.properties) :=
    .of_params rfl (by decide) (readsParams_publish htext htype hproperties (herase.symm ▸ hparams)
      hbare.foreign hbare.tame)
  refine textMessages_of_leads (leads_textLoop (.cons hreads .nil)) hpayload ?_
  exact forall_array nofun nofun nofun fun v hv ↦ List.eq_of_mem_singleton hv ▸ hbare.plain

end Publishing

/-! ### Names that are registered -/

section Registering

variable [FloatCodec] {env : Env} {guid : Guid} {n : Str} {pubuid : Int32} {type : NTDataType}
  {properties : TopicProperties} {st : Instance}

theorem publishOrAnswer_mem :
    Ends (publishOrAnswer env guid n pubuid type properties st) (n ∈ ·.topics) fun _ ↦ True := by
  unfold publishOrAnswer
  split
  · refine .map ((publishTopicToPublisher_follows (K := .all) (.inl trivial) fun _ ↦
      ⟨⟨trivial, trivial⟩, trivial, trivial⟩).mono (fun r hr ↦ ?_) fun _ _ ↦ trivial)
    exact hr.1.topicsLater.mem _ (mem_getOrCreateTopic st n _ _)
  · trivial
  · next t ht =>
    refine Ends.bind (Q := fun _ ↦ True) (.of_forall (fun _ ↦ trivial) fun _ ↦ trivial) fun d _ ↦ ?_
    rw [Ends.ok_iff, Instance.topics_setClient]
    exact AList.mem_of_lookup ht

/-- The handler of a publish message leaves a topic of the name it is given. -/
theorem handlePublish_follows_mem (hguid : guid ∈ st.clients) :
    Follows .all st (handlePublish env guid n pubuid type properties st) id (n ∈ ·.topics) := by
  refine .client rfl hguid fun d hd ↦ ?_
  have hpublish : Follows .all st (publishOrAnswer env guid n pubuid type properties
      (st.setPublishers guid d (d.publishers.insert pubuid (some ⟨pubuid, n⟩)))) id
      (n ∈ ·.topics) :=
    ((publishOrAnswer_follows (K := .all) (.inl trivial) (fun _ ↦ trivial) hd trivial fun _ ↦
      ⟨⟨trivial, trivial⟩, trivial, trivial⟩).and publishOrAnswer_mem).mono
      (fun s hs ↦ ⟨hs.1.1, hs.2⟩) fun _ he ↦ he.1
  refine hpublish.bind fun s hm hn ↦ (updateClientPubMetaTopic_follows (.inl trivial)
    (hm.mem_clients.mpr hguid) (fun _ _ ↦ trivial) fun _ _ ↦ .inl trivial).bind fun s' hm' _ ↦ ?_
  refine (updateTopicPubMetaTopic_follows (.inl trivial) trivial (.inl trivial)).mono
    (fun s'' hs ↦ ⟨hs.1, ?_⟩) fun _ ↦ id
  exact hs.1.topicsLater.mem n (hm'.topicsLater.mem n hn)

/-- A frame with a publish message registers the name that the handler is given. -/
theorem mem_of_handleText (hguid : guid ∈ st.clients) (hfree : st.mutexFree = true) {s : Instance}
    (h : handleText env guid [.publish n pubuid type properties] st = .ok s) : n ∈ s.topics := by
  have hmessage : Follows .all { st with mutexFree := false }
      (handlePublish env guid n pubuid type properties { st with mutexFree := false }) id
      (n ∈ ·.topics) :=
    handlePublish_follows_mem hguid
  have hpublished : Ends (st.withMutex (handleMessage env guid (.publish n pubuid type properties)))
      (fun s ↦ n ∈ s.topics ∧ guid ∈ s.clients) fun _ ↦ True := by
    rw [Instance.withMutex, if_pos hfree]
    refine Ends.bind (hmessage.mono (fun _ ↦ id) fun _ _ ↦ trivial) fun s hs ↦ ?_
    exact ⟨hs.2, hs.1.mem_clients.mpr hguid⟩
  have hends : Ends (handleText env guid [.publish n pubuid type properties] st) (n ∈ ·.topics)
      fun _ ↦ True := by
    rw [handleText, if_pos hguid, handleMessages, if_pos hfree]
    · refine hpublished.bind fun s hs ↦ ?_
      obtain ⟨hn, hguid⟩ := hs
      rw [handleMessages, Instance.withMutex]
      split
      · have htextEnd : Emits .all { s with mutexFree := false }
            (handleTextEnd env guid { s with mutexFree := false }) id := handleTextEnd_emits hguid
        refine Ends.bind (htextEnd.mono (fun _ ↦ id) fun _ _ ↦ trivial) fun s' hs' ↦ ?_
        exact hs'.1.topicsLater.mem n hn
      · exact hn
    · simp
  exact hends.of_ok h

/-- Nothing is in the way of what the client sends: the mutex is free, no pointer is null, all meta
topics are there and all values are valid. -/
structure Instance.Serves (st : Instance) (guid : Guid) : Prop where
  free : st.mutexFree = true
  rooted : st.Rooted
  complete : st.Complete
  valid : ∀ (name : Str) (t : TopicAt name), st.topics.lookup name = some (some t) →
    t.1.value.isValid
  connected : st.Connected guid

namespace Instance.Serves

omit [FloatCodec] in
theorem sound (h : st.Serves guid) : st.Sound where
  topics name hname := by
    obtain ⟨p, hp⟩ := AList.exists_lookup_of_mem hname
    cases p with
    | none => exact absurd hp (h.rooted.topics name)
    | some t => exact ⟨t, hp, h.valid name t hp⟩
  clients := h.rooted.clients
  subscriptions := ⟨fun guid d hd ↦ (h.rooted.data.1 guid d hd).subscriptions,
    h.rooted.data.2.subscriptions⟩
  publishers guid d hd := (h.rooted.data.1 guid d hd).publishers
  announced := h.rooted.data.2.announced
  records := h.complete.records.2

omit [FloatCodec] in
theorem mem (h : st.Serves guid) : guid ∈ st.clients := by
  obtain ⟨d, hd⟩ := h.connected
  exact AList.mem_of_lookup hd

end Instance.Serves

/-- A topic that is new is published, and one that exists is announced to its publisher. -/
theorem publishOrAnswer_safely {d : ClientData} (hst : st.Sound)
    (hd : st.clients.lookup guid = some (.remote d)) (htype : type ≠ .unassigned)
    (hmeta : n.isMeta = false) (hagrees : env.Agrees)
    (hpub : n ∈ st.topics → st.HasTopic (topicPubName n)) :
    Safely (fun _ ↦ True) st (publishOrAnswer env guid n pubuid type properties st) id
      (·.HasTopic (topicPubName n)) := by
  rw [publishOrAnswer]
  split
  · have hvalid : NTDataValue.isValid { type } := by simpa [NTDataValue.isValid] using htype
    have hself {s : Instance} (hkeeps : st.Retains (fun _ ↦ True) s) :
        s.clients.lookup guid ≠ some .self := by
      rw [Ne, hkeeps.self, hd]
      exact fun h ↦ by cases h
    refine .map ((publishTopicWith_safely hst (fun s t hs hkeeps ht ↦
      announceTopicToPublisher_safely hs ht trivial (hself hkeeps)) hvalid
      (fun _ _ ↦ trivial) properties).imp fun r _ hr ↦ ?_)
    exact (hr.2.1 hagrees).2 hmeta
  · next hnull => exact absurd hnull hst.not_null
  · next t ht =>
    rw [Instance.Behind.client (.inr hd), ok_bind]
    have htold := @Instance.Sound.setRemote (fun _ ↦ True) _ hst _ _ _ hd
      (d.toClientInfo_announceTopicToPublisher t.1 pubuid)
    exact .ok htold (htold.2.hasTopic (hpub (AList.mem_of_lookup ht)))

/-- A client publishes a name that is no meta topic, and nothing fails. -/
theorem handlePublish_safely {d : ClientData} (hst : st.Sound)
    (hd : st.clients.lookup guid = some (.remote d)) (hrecord : st.HasTopic (clientPubName d.name))
    (htype : type ≠ .unassigned) (hmeta : n.isMeta = false) (hagrees : env.Agrees)
    (hpub : n ∈ st.topics → st.HasTopic (topicPubName n)) :
    Ends (handlePublish env guid n pubuid type properties st) (fun _ ↦ True) fun _ ↦ False := by
  let d' : ClientData := { d with publishers := d.publishers.insert pubuid (some ⟨pubuid, n⟩) }
  have hpubs (uid : Int32) : d'.publishers.lookup uid ≠ some none := by
    show (d.publishers.insert pubuid _).lookup uid ≠ some none
    rw [AList.lookup_insert_ite]
    split
    · exact fun h ↦ by cases h
    · exact hst.publishers guid d hd uid
  obtain ⟨hsound, hkeeps⟩ := @Instance.Sound.putRemote (fun _ ↦ True) _ hst guid d d' hd
    (hst.subscriptions.1 guid d hd) hpubs
  have hd' : (st.setClient guid d').clients.lookup guid = some (.remote d') := by
    rw [Instance.setClient_of_remote hd]
    exact AList.lookup_insert _
  have hpublish := @publishOrAnswer_safely _ env guid n pubuid type properties _ _ hsound hd'
    htype hmeta hagrees fun hn ↦ by
      rw [Instance.topics_setClient] at hn
      exact hkeeps.hasTopic (hpub hn)
  -- the client keeps its name, and so its record
  have hfollows := @publishOrAnswer_follows _ .all env st (.inl trivial) (fun _ ↦ trivial) guid d
    (.inr hd) n pubuid type properties trivial fun _ ↦ ⟨⟨trivial, trivial⟩, trivial, trivial⟩
  rw [handlePublish, Instance.Behind.client (.inr hd), ok_bind]
  have hboth := (Ends.and hpublish hfollows).mono (fun _ ↦ id) fun _ ↦ And.left
  refine hboth.bind fun s ⟨⟨hs, hkeeps', hlisted⟩, hm, _⟩ ↦ ?_
  have hguid : guid ∈ s.clients := hkeeps'.mem guid (AList.mem_of_lookup hd')
  obtain ⟨d₁, hd₁, -⟩ := hs.exists_behind hguid
  have hd₁ : s.clients.lookup guid = some (.remote d₁) := by
    refine hd₁.elim (fun h ↦ ?_) id
    have hself := (hkeeps'.self guid).1 h.1
    rw [hd'] at hself
    cases hself
  obtain ⟨d₀, hd₀, -, hname⟩ := hm.exists_remote hd₁
  obtain rfl := ClientPtr.remote.inj (Option.some.inj (hd.symm.trans hd₀))
  have hclient : Safely (fun _ ↦ True) s (updateClientPubMetaTopic env s guid) id fun _ ↦ True := by
    rw [updateClientPubMetaTopic, Instance.Behind.client (.inr hd₁), ok_bind]
    refine .look (packAll_safely _ (hs.publishers guid d₁ hd₁)) fun packed _ ↦ ?_
    rw [hname]
    exact (storeMetaTopic_safely hs (hkeeps'.hasTopic (hkeeps.hasTopic hrecord))).imp
      fun _ _ _ ↦ trivial
  refine Ends.bind hclient fun s' ⟨hs', hkeeps'', _⟩ ↦ ?_
  have hlast : Safely (fun _ ↦ True) s' (updateTopicPubMetaTopic env s' n) id fun _ ↦ True :=
    (updateTopicPubMetaTopic_safely hs' (hkeeps''.hasTopic hlisted)).imp fun _ _ _ ↦ trivial
  exact Ends.imp hlast fun _ _ ↦ trivial

/-- The end of a text frame fails only for a null pointer. -/
theorem handleTextEnd_faults :
    Ends (handleTextEnd env guid st) (fun _ ↦ True) fun e ↦ e.isNull = true := by
  have hclient (st : Instance) (guid : Guid) {fault : Fault} (hfault : fault.isNull = true) :
      Ends (st.client guid fault) (fun _ ↦ True) fun e ↦ e.isNull = true := by
    refine (st.client_ends guid fault).mono (fun _ _ ↦ trivial) ?_
    rintro e ⟨rfl, -⟩
    exact hfault
  have hflush {flush : ClientData → ClientData} (st : Instance) :
      Ends (flushAll env flush st) (fun _ ↦ True) fun e ↦ e.isNull = true := by
    refine Ends.foldlM (fun guid _ st _ ↦ ?_) trivial
    split
    · trivial
    · exact (hclient st guid rfl).bind fun _ _ ↦ trivial
  rw [handleTextEnd, flushText]
  refine (hflush st).bind fun st _ ↦ Ends.bind (Q := fun _ ↦ True) ?_ fun st _ ↦ hflush st
  rw [publishInitialValues]
  refine (hclient st guid rfl).bind fun d _ ↦ Ends.foldlM (fun name _ st _ ↦ ?_) trivial
  refine (hclient st guid rfl).bind fun d _ ↦ ?_
  split
  · trivial
  · split
    · trivial
    · refine ((isSubscribed_ends env d.subscriptions name true).mono (fun _ _ ↦ trivial)
        fun e he ↦ ?_).bind fun sub (_ : True) ↦ ?_
      · rw [he.1]
        rfl
      · split
        · trivial
        · split <;> trivial

/-- A frame with a publish message is handled to its end. -/
theorem handleText_publish_ends (hst : st.Serves guid) (htype : type ≠ .unassigned)
    (hmeta : n.isMeta = false) (hagrees : env.Agrees) :
    Ends (handleText env guid [.publish n pubuid type properties] st) (n ∈ ·.topics)
      fun _ ↦ False := by
  obtain ⟨d, hd⟩ := hst.connected
  let op : Operation := .message guid (.publish n pubuid type properties)
  let K : Allow := .slips False True True
  have hsound : { st with mutexFree := false }.Sound := hst.sound.release false
  have hrooted : { st with mutexFree := false }.Rooted :=
    ⟨hst.rooted.topics, hst.rooted.clients, hst.rooted.data⟩
  have hhandled : Ends (op.run env { st with mutexFree := false })
      (fun s ↦ s.Rooted ∧ guid ∈ s.clients) fun _ ↦ False := by
    have hpermitted : op.Permitted K env { st with mutexFree := false } :=
      Operation.Avoids.permitted ⟨.inr trivial, .inl trivial, .inl trivial⟩ hst.complete.published
    have hdone := @handlePublish_safely _ env guid n pubuid type properties _ _ hsound hd
      (hst.complete.clients guid d hd).2 htype hmeta hagrees
      fun hn ↦ (hst.complete.topics n hn hmeta).2
    have henabled : op.Enabled { st with mutexFree := false } := hst.mem
    refine (Ends.and hdone (Operation.follows rfl henabled hpermitted)).mono
      (fun s hs ↦ ?_) fun _ ↦ And.left
    have hm : Moves K { st with mutexFree := false } s := hs.2.1
    exact ⟨hm.rooted id hrooted, hm.mem_clients.mpr henabled⟩
  have hends : Ends (handleText env guid [.publish n pubuid type properties] st) (fun _ ↦ True)
      fun _ ↦ False := by
    rw [handleText, if_pos hst.mem, handleMessages_eq]
    show Ends ([op, .textEnd guid].foldlM (opStep env) st) _ _
    rw [List.foldlM_cons]
    have hfirst : Ends (opStep env st op) (fun s ↦ s.Rooted ∧ guid ∈ s.clients) fun _ ↦ False := by
      rw [opStep, Instance.withMutex, if_pos hst.free]
      exact hhandled.bind fun s hs ↦ ⟨⟨hs.1.topics, hs.1.clients, hs.1.data⟩, hs.2⟩
    refine hfirst.bind fun s hs ↦ ?_
    rw [List.foldlM_cons]
    refine Ends.bind (Q := fun _ ↦ True) ?_ fun _ _ ↦ trivial
    rw [opStep, Instance.withMutex]
    split
    · have hend : Emits K { s with mutexFree := false }
          (handleTextEnd env guid { s with mutexFree := false }) id := handleTextEnd_emits hs.2
      refine ((Ends.and handleTextEnd_faults hend).mono (fun _ _ ↦ trivial) ?_).bind
        fun _ (_ : True) ↦ trivial
      rintro e ⟨hnull, hadmitted⟩
      have := hadmitted.not_isNull id ⟨hs.1.topics, hs.1.clients, hs.1.data⟩
      rw [hnull] at this
      cases this
    · trivial
  cases hx : handleText env guid [.publish n pubuid type properties] st with
  | error e =>
    rw [hx] at hends
    exact hends
  | ok s => exact mem_of_handleText hst.mem hst.free hx

end Registering

/-! ### Names that are sent -/

/-- The messages handed over and those in the cache are about these topics. -/
def ClientData.Mentions [FloatCodec] (topics : Topics) (d : ClientData) : Prop :=
  ∃ texts updates, d.Batched texts updates ∧ ∀ m ∈ texts, m.name ∈ topics

section Sending

variable [FloatCodec] {K : Allow}

theorem ClientMove.mentions {topics : Topics} {d d' : ClientData}
    (h : ClientMove K topics false d d') (hd : d.Mentions topics) : d'.Mentions topics := by
  obtain ⟨texts, updates, hbatched, hnames⟩ := hd
  have hcall (call : CacheCall) (hcall : ∀ m ∈ call.texts d, m.name ∈ topics) :
      (call.run d).Mentions topics :=
    ⟨_, _, hbatched.run call, List.forall_mem_append.mpr ⟨hnames, hcall⟩⟩
  have hmem {name : Str} {t : TopicAt name} (ht : topics.lookup name = some (some t)) :
      t.1.name ∈ topics := by
    rw [t.2]
    exact AList.mem_of_lookup ht
  cases h with
  | @announce _ _ name t ht =>
    refine hcall (.announce t.1) fun m hm ↦ ?_
    rw [CacheCall.texts] at hm
    split at hm
    · exact absurd hm List.not_mem_nil
    · exact List.eq_of_mem_singleton hm ▸ hmem ht
  | announceToPublisher ht pubuid =>
    exact hcall (.announceToPublisher _ pubuid) fun m hm ↦ List.eq_of_mem_singleton hm ▸ hmem ht
  | properties ht ack =>
    exact hcall (.properties _ ack) fun m hm ↦ List.eq_of_mem_singleton hm ▸ hmem ht
  | update _ _ time => exact hcall (.update _ time) (List.forall_mem_nil _)
  | flushText n => exact hcall (.flushText n) (List.forall_mem_nil _)
  | flushBinary n => exact hcall (.flushBinary n) (List.forall_mem_nil _)
  | subscribe | unsubscribe | publish | unpublish | nullSubscription | nullPublisher =>
    exact ⟨texts, updates, hbatched.of_eq rfl rfl rfl, hnames⟩

/-- In every state a run reaches, the text frames sent are about topics of the server. -/
theorem run_mentions (start : Env) (events : List (Env × Event)) :
    Ends (run start events)
      (fun st ↦ ∀ guid d, st.clients.lookup guid = some (.remote d) → d.Mentions st.topics)
      fun _ ↦ True :=
  run_remote ClientMove.mentions
    (fun hlater ⟨texts, updates, hd, hnames⟩ ↦
      ⟨texts, updates, hd, fun m hm ↦ hlater.mem _ (hnames m hm)⟩)
    (fun _ _ _ ↦ ⟨[], [], ⟨⟨[], [], rfl, nofun, rfl, rfl⟩, rfl⟩, nofun⟩) start events

end Sending

/-! ### Names that travel -/

/-- The frame is a JSON array of messages about topics of the server, and each carries the name of
its topic. -/
def CarriesNames (topics : Topics) (frame : Bytes) : Prop :=
  ∃ (batch : List TextMessage) (values : List Value), frame = ClientOutput.textFrame batch ∧
    (Value.array values).IsText frame ∧
    List.Forall₂ (fun m v ↦ m.name ∈ topics ∧ CarriesName m.method m.name v) batch values

/-- A publish message with the name in its standard encoding registers it. The text loop hands the
name to the handler; and if nothing is in the way of the client, and the local client turns no
announcement down, then the handler comes to its end and there is a topic of the name. -/
structure Registers (n : Str) : Prop where
  read : ∀ {given : GivenProperties} {properties : List PropertyMember} {pubuid : Int32}
    {type : Str} {params : List PublishMember} {payload : Bytes} (init : Locals), IsClean type →
    properties.Perm given.members →
    params.Perm [.name (escape n), .pubuid pubuid, .type type, .properties properties] →
    Spells (frameValue [.publish params]).tokens payload →
    textMessages init payload = [.publish n pubuid (parseDataType type) given.properties]
  registered : ∀ [FloatCodec] {env : Env} {guid : Guid} {pubuid : Int32} {type : Str}
    {properties : TopicProperties} {st : Instance}, env.Agrees → st.Serves guid →
    Ends (handleText env guid [.publish n pubuid (parseDataType type) properties] st)
      (n ∈ ·.topics) fun _ ↦ False

/-- A name with a quotation mark is never read, and another one that needs escapes is read with
them. -/
theorem Registers.isUnescaped {n : Str} (h : Registers n) : IsUnescaped n := by
  have hproperties : ([] : List PropertyMember).Perm ({} : GivenProperties).members := .refl _
  have hpayload := spells_flatMap
    (frameValue [.publish [.name (escape n), .pubuid 0, .type [], .properties []]]).tokens
  have hread := h.read ⟨0, 0, .bool, 0⟩ (by decide) hproperties (.refl _) hpayload
  have hunquoted : (ClientMessage.publish n 0 (parseDataType []) _).Unquoted :=
    unquoted_of_mem (hread ▸ List.mem_singleton_self _)
  have hn : (0x22 : UInt8) ∉ n := hunquoted
  have hraw := textMessages_publish (quote_not_mem_escape hn) List.not_mem_nil hproperties
    (.refl _) hpayload ⟨0, 0, .bool, 0⟩
  have hescape : escape n = n := (ClientMessage.publish.inj (List.cons.inj (hraw ▸ hread)).1).1
  exact escape_eq_self_iff.mp hescape

theorem parseDataType_ne_unassigned (str : Str) : parseDataType str ≠ .unassigned := by
  have hite {c : Prop} [Decidable c] {a b : NTDataType} (ha : a ≠ .unassigned)
      (hb : b ≠ .unassigned) : (if c then a else b) ≠ .unassigned := by
    split <;> assumption
  unfold parseDataType
  repeat refine hite (by decide) ?_
  decide

/-- A client has connected to a server that was just started. -/
def connectedSample : List (Env × Event) :=
  [({}, .connect (.sample 1 "a"))]

set_option maxRecDepth 4000 in
/-- Nothing is in the way of it, and no topic has a list of its publishers. -/
theorem connectedSample_serves :
    Ends (@run .fractional {} connectedSample)
      (fun st ↦ st.Serves 1 ∧ ∀ name ∈ st.topics, ¬ascii "$pub$" <+: name) fun _ ↦ False := by
  have hdecided : Ends (@run .fractional {} connectedSample)
      (fun st ↦ st.mutexFree = true ∧ (st.remote 1).isSome ∧ ∀ name ∈ st.topics.keys,
        ((st.topics.lookup name).bind id).all (·.1.value.isValid) = true ∧
          ¬ascii "$pub$" <+: name) fun _ ↦ False := by
    decide +kernel
  have hrooted := @run_rooted .fractional {} connectedSample fun _ _ ↦
    ⟨fun _ _ _ _ ↦ trivial, fun _ _ ↦ trivial⟩
  have hcomplete := @complete_of_covered .fractional {} connectedSample fun _ _ ↦
    ⟨fun _ _ _ _ ↦ trivial, fun _ _ ↦ trivial⟩
  refine (hdecided.and (hrooted.and hcomplete)).mono (fun st hst ↦ ?_) fun _ ↦ And.left
  obtain ⟨⟨hfree, hremote, hnames⟩, hrooted, hcomplete⟩ := hst
  obtain ⟨d, hd⟩ := Option.isSome_iff_exists.mp hremote
  refine ⟨⟨hfree, hrooted, hcomplete, fun name t ht ↦ ?_, d, Instance.remote_eq_some.mp hd⟩,
    fun name hname ↦ (hnames name (AList.mem_keys.mp hname)).2⟩
  have hvalid := (hnames name (AList.mem_keys.mp (AList.mem_of_lookup ht))).1
  rw [ht] at hvalid
  exact hvalid

/-- The list of the publishers of a topic is looked up. -/
theorem updateTopicPubMetaTopic_finds [FloatCodec] {env : Env} {st : Instance} {n : Str} :
    Ends (updateTopicPubMetaTopic env st n) (fun _ ↦ st.HasTopic (topicPubName n))
      fun _ ↦ True := by
  rw [updateTopicPubMetaTopic]
  refine Ends.bind_any fun pubs ↦ ?_
  rw [storeMetaTopic]
  split
  · next t ht => exact .map (.of_forall (fun _ ↦ ⟨t, ht⟩) fun _ ↦ trivial)
  all_goals trivial

/-- The publication of a name that starts with `$` makes no other topic, so if it comes to its end
then the list of the publishers of the topic was there before. -/
theorem handlePublish_lists [FloatCodec] {env : Env} {guid : Guid} {n : Str} {pubuid : Int32}
    {type : NTDataType} {properties : TopicProperties} {st : Instance} (hmeta : n.isMeta = true) :
    Ends (handlePublish env guid n pubuid type properties st)
      (fun _ ↦ topicPubName n ∈ st.topics ∨ topicPubName n = n) fun _ ↦ True := by
  let K : Allow := { Allow.all with creates := (· = n) }
  rw [handlePublish]
  refine ((st.client_ends guid .nullDeref).mono (fun _ ↦ id) fun _ _ ↦ trivial).bind fun d hd ↦ ?_
  have hpublish := @publishOrAnswer_follows _ K env st (.inl trivial) (fun _ ↦ trivial) guid d hd n
    pubuid type properties rfl fun h ↦ by
      rw [hmeta] at h
      cases h
  refine (hpublish.mono (fun _ ↦ id) fun _ _ ↦ trivial).bind fun s ⟨hm, _⟩ ↦ ?_
  have hguid : guid ∈ s.clients :=
    hm.mem_clients.mpr (hd.elim (fun h ↦ AList.mem_of_lookup h.1) AList.mem_of_lookup)
  have hclient := @updateClientPubMetaTopic_follows _ K env s (.inl trivial) guid hguid
    (fun _ _ ↦ trivial) fun _ _ ↦ .inl trivial
  refine (hclient.mono (fun _ ↦ id) fun _ _ ↦ trivial).bind fun s' ⟨hm', _⟩ ↦ ?_
  refine updateTopicPubMetaTopic_finds.imp fun _ ⟨t, ht⟩ ↦ ?_
  have hmoves : Moves K st s' := hm.trans hm'
  exact hmoves.creates (AList.mem_of_lookup ht)

/-- A name that starts with `$` is not registered, as the list of its publishers does not exist. -/
theorem Registers.not_isMeta {n : Str} (h : Registers n) : n.isMeta = false := by
  obtain ⟨st, -, hst, hnone⟩ := connectedSample_serves.exists_ok
  have hagrees : Env.Agrees {} := fun callback hcallback ↦ by cases hcallback
  have hregistered := @h.registered .fractional {} 1 0 [] {} st hagrees hst
  cases hmeta : n.isMeta with
  | false => rfl
  | true =>
    have hlists := @handlePublish_lists .fractional {} 1 n 0 (parseDataType []) {}
      { st with mutexFree := false } hmeta
    rw [@handleText.eq_def .fractional, if_pos hst.mem,
      @handleMessages_eq .fractional] at hregistered
    change Ends (([.message 1 (.publish n 0 (parseDataType []) {}), .textEnd 1] :
      List Operation).foldlM (@opStep .fractional {}) st) _ _ at hregistered
    rw [List.foldlM_cons, @opStep.eq_def .fractional, Instance.withMutex,
      if_pos hst.free] at hregistered
    cases hx : @handlePublish .fractional {} 1 n 0 (parseDataType []) {}
        { st with mutexFree := false } with
    | error e =>
      have hop : @Operation.run .fractional {} (.message 1 (.publish n 0 (parseDataType []) {}))
          { st with mutexFree := false } = .error e := hx
      rw [hop] at hregistered
      exact hregistered.elim
    | ok s =>
      rcases hlists.of_ok hx with hmem | heq
      · exact absurd (List.prefix_append _ _) (hnone _ hmem)
      · have hlength := congrArg List.length heq
        rw [topicPubName, List.length_append] at hlength
        have hpos : 0 < (ascii "$pub$").length := by decide
        omega

theorem IsUnescaped.registers {n : Str} (h : IsUnescaped n) (hmeta : n.isMeta = false) :
    Registers n where
  read init htype hproperties hparams hpayload := by
    rw [escape_of_plain h] at hparams
    exact textMessages_publish (fun hn ↦ h _ hn (.inl rfl)) htype.1
      hproperties hparams hpayload init
  registered hagrees hst :=
    handleText_publish_ends hst (parseDataType_ne_unassigned _) hmeta hagrees

/-- A frame about names that need no escapes carries them. -/
theorem carriesNames_textFrame {topics : Topics} {batch : List TextMessage}
    (h : ∀ m ∈ batch, m.name ∈ topics ∧ IsUnescaped m.name) :
    CarriesNames topics (ClientOutput.textFrame batch) := by
  refine ⟨batch, _, rfl, isText_textFrame fun m hm ↦ (h m hm).2, ?_⟩
  rw [List.forall₂_map_right_iff, List.forall₂_same]
  exact fun m hm ↦ ⟨(h m hm).1, m.carriesName (h m hm).2⟩

/-- Names travel unchanged if nothing in them must be escaped and they do not start with `$`, and
only then. The topics of the run are those of the names and the server's own, whose names start
with `$`. -/
theorem names_unchanged_iff (N : Set Str) :
    ((∀ n ∈ N, Registers n) ∧
      ∀ [FloatCodec] start events st, run start events = .ok st →
        (∀ name ∈ st.topics, name ∈ N ∨ name.isMeta = true ∧ IsUnescaped name) →
          ∀ guid d, st.clients.lookup guid = some (.remote d) →
            ∀ frame ∈ d.textFrames, CarriesNames st.topics frame) ↔
      ∀ n ∈ N, IsUnescaped n ∧ n.isMeta = false := by
  refine ⟨fun h n hn ↦ ⟨(h.1 n hn).isUnescaped, (h.1 n hn).not_isMeta⟩, fun h ↦
    ⟨fun n hn ↦ (h n hn).1.registers (h n hn).2, ?_⟩⟩
  intro _ start events st hst htopics guid d hd frame hframe
  obtain ⟨texts, updates, hbatched, hnames⟩ := (run_mentions start events).of_ok hst guid d hd
  obtain ⟨batches, waiting, hframes, -, -, rfl⟩ := hbatched.text
  rw [hframes] at hframe
  obtain ⟨batch, hbatch, rfl⟩ := List.mem_map.mp hframe
  refine carriesNames_textFrame fun m hm ↦ ?_
  have hname : m.name ∈ st.topics :=
    hnames m (List.mem_append_left _ (List.mem_flatten.mpr ⟨batch, hbatch, hm⟩))
  exact ⟨hname, (htopics _ hname).elim (fun hN ↦ (h _ hN).1) And.right⟩

/-- A name with a backslash is registered with two. -/
theorem backslash_doubled :
    textMessages ⟨0, 0, .bool, 0⟩ ((frameValue [.publish [.name (escape (ascii "a\\b")), .pubuid 1,
        .type (ascii "int"), .properties []]]).tokens.flatMap Token.text) =
      [.publish (ascii "a\\\\b") 1 .int .DEFAULT] ∧
    ¬Registers (ascii "a\\b") := by
  refine ⟨by decide +kernel, fun h ↦ ?_⟩
  exact absurd (h.isUnescaped) (by decide +kernel)

end NetworkTables
