import PicoRadio.Library.History
import PicoRadio.NetworkTables.Operations

/-!
# One id and one type for each topic

The id and the type of a topic are read again for every message about it: the id from the client's
`topicData`, the type from the topic. What a client was told once stays true because the entry keeps
its id, and because a topic keeps its type once it has one.

A topic created with the type Unassigned has none yet. It is announced with an empty type, and takes
the type of the first value it gets. So the type of an update is compared with those announcements
before it that named a type (`TypeFits`); for a topic that was never announced without one, that is
every announcement.

## What is kept

The invariant of a client relates its history to its `topicData` and to the topics of the server. An
id in the history is the one in the entry, because entries are made once and never removed. A type
in the history is the topic's, because an assignment changes the type only of a value that has none.
-/

namespace NetworkTables

open Relation

/-! ### What a history says of a topic -/

/-- The topic a message is about and the id it carries; a properties message carries none. -/
def ClientEvent.identity : ClientEvent → Option (Str × ℤ)
  | text (.announce name id _ _ _) | text (.unannounce name id) => some (name, id)
  | update topic u => some (topic, u.id)
  | text (.properties _ _ _) | sentText _ | sentBinary _ | announcedCallback _
  | updateCallback _ _ _ | propertiesCallback _ _ => none

/-- The topic a message announces, with its type. -/
def ClientEvent.announcedType : ClientEvent → Option (Str × NTDataType)
  | text (.announce name _ type _ _) => some (name, type)
  | text (.unannounce _ _) | text (.properties _ _ _) | update _ _ | sentText _ | sentBinary _
  | announcedCallback _ | updateCallback _ _ _ | propertiesCallback _ _ => none

namespace ClientHistory

/-- The topic was announced with this type. -/
def AnnouncedAs (h : List ClientEvent) (name : Str) (type : NTDataType) : Prop :=
  ∃ e ∈ h, e.announcedType = some (name, type)

instance (h : List ClientEvent) (name : Str) (type : NTDataType) :
    Decidable (AnnouncedAs h name type) :=
  inferInstanceAs (Decidable (∃ e ∈ h, e.announcedType = some (name, type)))

theorem announcedAs_concat {h : List ClientEvent} {e : ClientEvent} {name : Str}
    {type : NTDataType} : AnnouncedAs (h ++ [e]) name type ↔
      AnnouncedAs h name type ∨ e.announcedType = some (name, type) := by
  simp [AnnouncedAs, or_and_right, exists_or]

/-- A message about a topic agrees with the announcements of the topic before it, and a value comes
after an announcement. -/
structure TypeFits (done : List ClientEvent) (e : ClientEvent) : Prop where
  announce : ∀ name type, e.announcedType = some (name, type) →
    ∀ type', AnnouncedAs done name type' → type' ≠ .unassigned → type = type'
  update : ∀ name u, e = .update name u → (∃ type, AnnouncedAs done name type) ∧
    ∀ type, AnnouncedAs done name type → type ≠ .unassigned → u.type = type.apiType

/-- A client was told one id and one type of every topic. -/
structure Consistent (h : List ClientEvent) : Prop where
  ids : ∀ e ∈ h, ∀ e' ∈ h, ∀ name id id', e.identity = some (name, id) →
    e'.identity = some (name, id') → id = id'
  fits : Always TypeFits h
  /-- The types of a topic that was never announced without one. -/
  types : ∀ name, ¬AnnouncedAs h name .unassigned → ∀ u, .update name u ∈ h →
    ∀ type, AnnouncedAs h name type → u.type = type.apiType

end ClientHistory

open ClientHistory

/-! ### The invariant of a client -/

/-- The message says what the server knows of the topic. -/
structure ClientEvent.Tells (topics : Topics) (d : ClientOutput) (e : ClientEvent) : Prop where
  id : ∀ name id, e.identity = some (name, id) →
    ∃ data, d.topicData.lookup name = some data ∧ data.id = id
  type : ∀ name type, e.announcedType = some (name, type) →
    ∃ t, topics.lookup name = some (some t) ∧ t.1.value.type = type
  value : ∀ name u, e = .update name u →
    ∃ t, topics.lookup name = some (some t) ∧ u.type = t.1.value.getAPIType

/-- Everything a client was told is still true. -/
structure ClientOutput.Told (topics : Topics) (d : ClientOutput) : Prop where
  ids : ∀ e ∈ d.history, ∀ name id, e.identity = some (name, id) →
    ∃ data, d.topicData.lookup name = some data ∧ data.id = id
  announced : ∀ name ∈ d.topicData, ∃ type, AnnouncedAs d.history name type
  types : ∀ name type, AnnouncedAs d.history name type → type ≠ .unassigned →
    ∃ t, topics.lookup name = some (some t) ∧ t.1.value.type = type
  fits : Always TypeFits d.history

namespace ClientOutput.Told

variable {topics : Topics} {d d' : ClientOutput}

theorem fresh (topics : Topics) (info : ClientInfo) :
    ({ toClientInfo := info } : ClientData).Told topics where
  ids _ he := absurd he List.not_mem_nil
  announced _ hname := absurd hname (AList.notMem_empty _)
  types := by rintro _ _ ⟨_, he, -⟩; exact absurd he List.not_mem_nil
  fits := .nil _

/-- A topic that has a type keeps it. -/
theorem of_topics (hd : d.Told topics) {topics' : Topics} (hlater : TopicsLater topics topics') :
    d.Told topics' where
  ids := hd.ids
  announced := hd.announced
  types name type hann htype := by
    obtain ⟨t, ht, rfl⟩ := hd.types name type hann htype
    obtain ⟨t', ht', htype'⟩ := hlater.type name t ht
    exact ⟨t', ht', htype' (by simpa [NTDataValue.isValid] using htype)⟩
  fits := hd.fits

/-- The client is told nothing, and knows what it knew. -/
theorem of_eq (hd : d.Told topics) (hdata : d'.topicData = d.topicData)
    (hhistory : d'.history = d.history) : d'.Told topics := by
  refine ⟨?_, ?_, ?_, ?_⟩
  · rw [hhistory, hdata]
    exact hd.ids
  · rw [hdata, hhistory]
    exact hd.announced
  · rw [hhistory]
    exact hd.types
  · rw [hhistory]
    exact hd.fits

/-- The client is told one more thing. Its entries keep their ids, and a new entry is announced. -/
theorem concat (hd : d.Told topics) {e : ClientEvent} (hhistory : d'.history = d.history ++ [e])
    (hkeeps : ∀ name data, d.topicData.lookup name = some data →
      ∃ data', d'.topicData.lookup name = some data' ∧ data'.id = data.id)
    (hnew : ∀ name ∈ d'.topicData, name ∈ d.topicData ∨
      ∃ type, e.announcedType = some (name, type))
    (he : e.Tells topics d') (hvalue : ∀ name u, e = .update name u → name ∈ d.topicData) :
    d'.Told topics := by
  have hfits : TypeFits d.history e := by
    refine ⟨fun name type htype type' hann hvalid ↦ ?_, fun name u hu ↦ ⟨?_, ?_⟩⟩
    · obtain ⟨t, ht, rfl⟩ := he.type name type htype
      obtain ⟨t', ht', rfl⟩ := hd.types name type' hann hvalid
      rw [ht] at ht'
      cases ht'
      rfl
    · exact hd.announced name (hvalue name u hu)
    · intro type hann hvalid
      obtain ⟨t, ht, htype⟩ := he.value name u hu
      obtain ⟨t', ht', rfl⟩ := hd.types name type hann hvalid
      rw [ht] at ht'
      cases ht'
      exact htype
  refine ⟨fun e' he' name id hid ↦ ?_, fun name hname ↦ ?_, fun name type hann hvalid ↦ ?_, ?_⟩
  · rw [hhistory] at he'
    rcases List.mem_append.1 he' with he' | he'
    · obtain ⟨data, hdata, rfl⟩ := hd.ids e' he' name id hid
      exact hkeeps name data hdata
    · obtain rfl := List.mem_singleton.1 he'
      exact he.id name id hid
  · rw [hhistory]
    rcases hnew name hname with hname | ⟨type, htype⟩
    · obtain ⟨type, hann⟩ := hd.announced name hname
      exact ⟨type, announcedAs_concat.2 (.inl hann)⟩
    · exact ⟨type, announcedAs_concat.2 (.inr htype)⟩
  · rw [hhistory] at hann
    rcases announcedAs_concat.1 hann with hann | htype
    · exact hd.types name type hann hvalid
    · exact he.type name type htype
  · rw [hhistory]
    exact Always.concat_iff.2 ⟨hd.fits, hfits⟩

/-- A cache is handed over, or a message without an id is put into one. -/
theorem silent (hd : d.Told topics) {e : ClientEvent} (hhistory : d'.history = d.history ++ [e])
    (hdata : d'.topicData = d.topicData) (hid : e.identity = none) (htype : e.announcedType = none)
    (hvalue : e.asUpdate = none) : d'.Told topics := by
  refine hd.concat hhistory (fun name data hlookup ↦ ⟨data, by rw [hdata, hlookup], rfl⟩)
    (fun name hname ↦ .inl (by rwa [← hdata])) ⟨?_, ?_, ?_⟩ ?_
  · rw [hid]
    rintro _ _ ⟨⟩
  · rw [htype]
    rintro _ _ ⟨⟩
  · rintro name u rfl
    cases hvalue
  · rintro name u rfl
    cases hvalue

theorem flushText {d : ClientData} (hd : d.Told topics) (n : ℕ) : (d.flushText n).Told topics := by
  rw [ClientData.flushText]
  split
  · exact hd.silent rfl rfl rfl rfl rfl
  · exact hd

theorem flushBinary {d : ClientData} (hd : d.Told topics) (n : ℕ) :
    (d.flushBinary n).Told topics := by
  rw [ClientData.flushBinary]
  split
  · exact hd.silent rfl rfl rfl rfl rfl
  · exact hd

/-- A topic is numbered and announced under its number. -/
theorem announce {d : ClientData} (hd : d.Told topics) {name : Str} {t : TopicAt name}
    (ht : topics.lookup name = some (some t)) (pubuid : Option Int32) :
    ((d.assignId t.1.name).appendText (.announce t.1.name ((d.assignId t.1.name).topicId t.1.name)
      t.1.value.type pubuid t.1.properties)).Told topics := by
  rw [t.2]
  generalize hm : TextMessage.announce name ((d.assignId name).topicId name) t.1.value.type pubuid
    t.1.properties = m
  have hhistory : ((d.assignId name).appendText m).history =
      (d.flushText m.text.length).history ++ [.text m] :=
    congrArg (· ++ [ClientEvent.text m]) (ClientData.history_flushText_assignId d name _)
  have hdata : ((d.assignId name).appendText m).topicData = (d.assignId name).topicData :=
    ClientData.topicData_appendText _ m
  subst hm
  refine (hd.flushText _).concat hhistory (fun name' data hlookup ↦ ⟨data, ?_, rfl⟩)
    (fun name' hname' ↦ ?_) ⟨fun name' id hid ↦ ?_, fun name' type htype ↦ ?_, ?_⟩ ?_
  · rw [ClientData.topicData_flushText] at hlookup
    rw [hdata]
    exact ClientData.lookup_assignId hlookup
  · rw [hdata, ClientData.mem_assignId] at hname'
    rw [ClientData.topicData_flushText]
    refine hname'.imp_right ?_
    rintro rfl
    exact ⟨_, rfl⟩
  · obtain ⟨rfl, rfl⟩ := Prod.mk.inj (Option.some.inj hid)
    rw [hdata]
    exact d.exists_lookup_assignId name
  · obtain ⟨rfl, rfl⟩ := Prod.mk.inj (Option.some.inj htype)
    exact ⟨t, ht, rfl⟩
  · rintro _ _ ⟨⟩
  · rintro _ _ ⟨⟩

/-- A value is sent under the id the topic has. -/
theorem sendTopicUpdate [FloatCodec] {d : ClientData} (hd : d.Told topics) {name : Str}
    {t : TopicAt name} (ht : topics.lookup name = some (some t)) (hname : name ∈ d.topicData)
    (time : UInt64) : (d.sendTopicUpdate t.1 time).Told topics := by
  obtain ⟨data, hdata⟩ := AList.exists_lookup_of_mem hname
  let u := d.topicUpdate t.1 time
  let d₀ : ClientData := { d with
    topicData := d.topicData.insert t.1.name { id := u.id, initialPublish := true } }
  have hid : u.id = data.id := by
    show d.topicId t.1.name = data.id
    rw [t.2, ClientData.topicId, hdata]
    rfl
  have hlookup (name' : Str) : (d.sendTopicUpdate t.1 time).topicData.lookup name' =
      if name' = name then some { id := u.id, initialPublish := true }
      else d.topicData.lookup name' := by
    rw [ClientData.topicData_sendTopicUpdate, AList.lookup_insert_ite, t.2]
    exact congrArg (fun id ↦ if name' = name then some { id, initialPublish := true }
      else d.topicData.lookup name') (congrArg d.topicId t.2).symm
  have hhistory : (d₀.flushBinary u.bytes.length).history =
      (d.flushBinary u.bytes.length).history := by
    rw [ClientData.flushBinary, ClientData.flushBinary]
    split <;> rfl
  refine (hd.flushBinary u.bytes.length).concat (e := .update t.1.name u)
    (congrArg (· ++ [ClientEvent.update t.1.name u]) hhistory) (fun name' data' hdata' ↦ ?_)
    (fun name' hname' ↦ .inl ?_) ⟨fun name' id hid ↦ ?_, ?_, fun name' u' heq ↦ ?_⟩ ?_
  · rw [ClientData.topicData_flushBinary] at hdata'
    rw [hlookup]
    obtain rfl | hne := eq_or_ne name' name
    · rw [hdata] at hdata'
      obtain rfl := Option.some.inj hdata'
      exact ⟨_, if_pos rfl, hid⟩
    · exact ⟨data', by rw [if_neg hne, hdata'], rfl⟩
  · rw [ClientData.topicData_flushBinary]
    rw [ClientData.topicData_sendTopicUpdate, AList.mem_insert, t.2] at hname'
    rcases hname' with rfl | hname'
    · exact hname
    · exact hname'
  · obtain ⟨rfl, rfl⟩ := Prod.mk.inj (Option.some.inj hid)
    rw [hlookup, if_pos t.2]
    exact ⟨_, rfl, rfl⟩
  · rintro _ _ ⟨⟩
  · obtain ⟨rfl, rfl⟩ := ClientEvent.update.inj heq
    rw [t.2]
    exact ⟨t, ht, rfl⟩
  · rintro name' u' heq
    obtain ⟨rfl, -⟩ := ClientEvent.update.inj heq
    rw [ClientData.topicData_flushBinary, t.2]
    exact hname

/-- What the invariant says of the history alone. -/
theorem consistent (hd : d.Told topics) : Consistent d.history where
  ids e he e' he' name id id' hid hid' := by
    obtain ⟨data, hdata, rfl⟩ := hd.ids e he name id hid
    obtain ⟨data', hdata', rfl⟩ := hd.ids e' he' name id' hid'
    rw [hdata] at hdata'
    cases hdata'
    rfl
  fits := hd.fits
  types name hnone u hu type hann := by
    -- the announcement before the update carries the type the topic has now
    obtain ⟨done, rest, hsplit, hfits⟩ := hd.fits.of_mem hu
    obtain ⟨⟨type', hann'⟩, htypes⟩ := hfits.update name u rfl
    have hmem : AnnouncedAs d.history name type' := by
      obtain ⟨e, he, htype⟩ := hann'
      exact ⟨e, by rw [hsplit]; exact List.mem_append_left _ he, htype⟩
    have hvalid {type : NTDataType} (hann : AnnouncedAs d.history name type) :
        type ≠ .unassigned := by
      rintro rfl
      exact hnone hann
    obtain ⟨t, ht, rfl⟩ := hd.types name type hann (hvalid hann)
    obtain ⟨t', ht', rfl⟩ := hd.types name type' hmem (hvalid hmem)
    rw [ht] at ht'
    cases ht'
    exact htypes _ hann' (hvalid hmem)

end ClientOutput.Told

section

variable [FloatCodec] {K : Allow}

theorem ClientMove.told {topics : Topics} {d d' : ClientData} (h : ClientMove K topics false d d')
    (hd : d.Told topics) : d'.Told topics := by
  cases h with
  | announce ht =>
    rw [ClientData.announceTopic]
    split
    · exact hd
    · exact hd.announce ht none
  | announceToPublisher ht pubuid => exact hd.announce ht (some pubuid)
  | properties => exact (hd.flushText _).silent rfl rfl rfl rfl rfl
  | update ht hname time => exact hd.sendTopicUpdate ht hname time
  | flushText => exact hd.flushText _
  | flushBinary => exact hd.flushBinary _
  | subscribe | unsubscribe | publish | unpublish | nullSubscription | nullPublisher =>
    exact hd.of_eq rfl rfl

/-! ### Topics -/

/-- Properties change only where they may. -/
theorem Move.properties_eq {st st' : Instance} (h : Move K st st') {name : Str}
    (hK : ¬K.configures name) {t : TopicAt name} (ht : st.topics.lookup name = some (some t)) :
    ∃ t', st'.topics.lookup name = some (some t') ∧ t'.1.properties = t.1.properties := by
  cases h with
  | remote | self => exact ⟨t, ht, rfl⟩
  | create _ hname | nullTopic _ hname =>
    refine ⟨t, (AList.lookup_insert_ne ?_).trans ht, rfl⟩
    rintro rfl
    exact hname (AList.mem_of_lookup ht)
  | properties hK' =>
    refine ⟨t, (AList.lookup_insert_ne ?_).trans ht, rfl⟩
    rintro rfl
    exact hK hK'
  | @assign _ name' t₀ _ ht₀ value htype time complete _ h =>
    rw [h.frame]
    show ∃ t', (st.topics.insert name' (some (t₀.setValue value))).lookup name = some (some t') ∧ _
    obtain rfl | hne := eq_or_ne name name'
    · rw [ht] at ht₀
      cases ht₀
      exact ⟨t.setValue value, AList.lookup_insert _, rfl⟩
    · exact ⟨t, (AList.lookup_insert_ne hne).trans ht, rfl⟩

theorem Change.topicsLater {st st' : Instance} (h : Change K st st') :
    TopicsLater st.topics st'.topics := by
  cases h with
  | move h => exact h.topicsLater
  | idle ht => rw [ht]; exact .refl _
  | join | leave => exact .refl _

theorem Changes.topicsLater {st st' : Instance} (h : Changes K st st') :
    TopicsLater st.topics st'.topics := by
  induction h with
  | refl => exact .refl _
  | tail _ h ih => exact ih.trans h.topicsLater

theorem Changes.properties_eq {st st' : Instance} (h : Changes K st st') {name : Str}
    (hK : ¬K.configures name) {t : TopicAt name} (ht : st.topics.lookup name = some (some t)) :
    ∃ t', st'.topics.lookup name = some (some t') ∧ t'.1.properties = t.1.properties := by
  induction h with
  | refl => exact ⟨t, ht, rfl⟩
  | tail _ h ih =>
    obtain ⟨t', ht', hprop⟩ := ih
    cases h with
    | move h =>
      obtain ⟨t'', ht'', hprop'⟩ := h.properties_eq hK ht'
      exact ⟨t'', ht'', hprop'.trans hprop⟩
    | idle htopics => exact ⟨t', by rw [htopics, ht'], hprop⟩
    | join | leave => exact ⟨t', ht', hprop⟩

omit [FloatCodec] in
/-- The event is a SetProperties of the topic, from a client or from the local interface. -/
def Event.Configures (name : Str) : Event → Prop
  | text _ messages =>
    ∃ persistent retained cached, .setproperties name persistent retained cached ∈ messages
  | setProperties name' _ => name = name'
  | connect _ | disconnect _ | removeConnection _ | binary _ _ | subscribe _ _ _ | unsubscribe _
  | publish _ _ _ _ | unpublish _ | updateTopic _ _ _ | flush => False

omit [FloatCodec] in
theorem Event.Has.configures {e : Event} {op : Operation} (h : e.Has op) {name : Str}
    (hop : op.Configures name) : e.Configures name := by
  cases e with
  | text guid messages =>
    rcases h with ⟨m, hm, rfl⟩ | rfl
    · cases m with
      | setproperties name' persistent retained cached =>
        obtain rfl : name = name' := hop
        exact ⟨persistent, retained, cached, hm⟩
      | subscribe | publish | unsubscribe | unpublish | unknown => exact hop.elim
    · exact hop.elim
  | setProperties =>
    subst h
    exact hop
  | connect | updateTopic =>
    obtain ⟨_, rfl⟩ := h
    exact hop.elim
  | binary =>
    obtain ⟨_, -, rfl⟩ := h
    exact hop.elim
  | removeConnection => exact h.elim
  | disconnect | subscribe | unsubscribe | publish | unpublish | flush =>
    subst h
    exact hop.elim

/-- Events that do not configure the topic leave its properties as they are. -/
theorem steps_properties_eq {st : Instance} {name : Str} {t : TopicAt name}
    (ht : st.topics.lookup name = some (some t)) {events : List (Env × Event)}
    (hevents : ∀ e ∈ events, ¬e.2.Configures name) :
    Ends (events.foldlM step st)
      (fun st' ↦ ∃ t', st'.topics.lookup name = some (some t') ∧ t'.1.properties = t.1.properties)
      fun _ ↦ True := by
  let K : Allow := { Allow.all with configures := (· ≠ name) }
  have hpermitted {env : Env} {op : Operation} (hop : ¬op.Configures name) (s : Instance) :
      op.Permitted K env s :=
    { Operation.Permitted.all env s op with
      configures := by
        rintro name' hop' rfl
        exact hop hop' }
  have hguarded : Guarded step (Event.Meets fun env s op ↦
      ∀ mutexFree, op.Permitted K env { s with mutexFree }) st events :=
    Guarded.of_forall_mem (fun e he s ↦ .of_has (fun s' op hop mutexFree ↦
      hpermitted (fun hconf ↦ hevents e he (hop.configures hconf)) _) s) st
  exact (steps_changes hguarded).imp fun s hs ↦ hs.properties_eq (fun h ↦ h rfl) ht

/-! ### Runs -/

/-- Every client with a connection was told what is still true. -/
theorem Changes.told {st st' : Instance} (h : Changes K st st')
    (hst : st.AllClients fun self topics d ↦ self = false → d.Told topics) :
    st'.AllClients fun self topics d ↦ self = false → d.Told topics :=
  h.allClients
    (fun hm hd hself ↦ by
      subst hself
      exact hm.told (hd rfl))
    (fun hlater hd hself ↦ (hd hself).of_topics hlater)
    (fun topics guid name _ ↦ .fresh topics { guid, name }) hst

/-- In every run, a client is told one id and one type of every topic; and from any moment on a
topic keeps its name, its type if it has one, and its properties until they are set. -/
theorem run_consistent (start : Env) (earlier later : List (Env × Event)) :
    Ends (run start earlier)
      (fun st ↦ (∀ guid d, st.remote guid = some d → Consistent d.history) ∧
        Ends (later.foldlM step st)
          (fun st' ↦ ∀ name t, st.topics.lookup name = some (some t) →
            ∃ t', st'.topics.lookup name = some (some t') ∧ t'.1.name = t.1.name ∧
              (t.1.value.type ≠ .unassigned → t'.1.value.type = t.1.value.type) ∧
              ((∀ e ∈ later, ¬e.2.Configures name) → t'.1.properties = t.1.properties))
          fun _ ↦ True)
      fun _ ↦ True := by
  have hguarded (st : Instance) : Guarded step
      (Event.Meets fun env st op ↦ op.Avoids True True True env st) st earlier :=
    Guarded.of_forall_mem (fun e he ↦ Event.Meets.of_forall fun _ _ ↦
      ⟨.inl trivial, .inl trivial, .inl trivial⟩) st
  refine (run_changes True True True (.inl trivial) fun st _ ↦ hguarded st).mono
    (fun st hst ↦ ⟨fun guid d hd ↦ ?_, ?_⟩) fun _ _ ↦ trivial
  · have htold := hst.told (Instance.initial_allClients fun h ↦ by cases h)
    exact (htold.1 guid d (Instance.remote_eq_some.1 hd) rfl).consistent
  · refine Ends.iff_forall.2 ⟨fun st' hst' name t ht ↦ ?_, fun _ _ ↦ trivial⟩
    have hlater : Guarded step (Event.Meets fun env s op ↦
        ∀ mutexFree, op.Permitted .all env { s with mutexFree }) st later :=
      Guarded.of_forall_mem (fun e _ ↦ .of_forall fun s op mutexFree ↦ .all _ _ op) st
    obtain ⟨t', ht', htype⟩ := ((steps_changes hlater).of_ok hst').topicsLater.type name t ht
    refine ⟨t', ht', t'.2.trans t.2.symm, fun hvalid ↦ ?_, fun hquiet ↦ ?_⟩
    · exact htype (by simpa [NTDataValue.isValid] using hvalid)
    · obtain ⟨t'', ht'', hprop⟩ := (steps_properties_eq ht hquiet).of_ok hst'
      rw [ht'] at ht''
      cases ht''
      exact hprop

end

set_option maxRecDepth 4000 in
/-- A topic is published with the type Unassigned and gets a value: a subscriber was announced the
empty type, and gets an update whose code is that of the value's type. -/
theorem publish_unassigned_retyped :
    Ends (@run .fractional {} [({}, .connect (.sample 1 "a")),
        ({}, .text 1 [.subscribe [ascii "/x"] 1 .DEFAULT]),
        ({}, .publish (ascii "/x") 2 .unassigned {}),
        ({}, .updateTopic 2 { type := .int, bits := 5 } none)])
      (fun st ↦ ∃ d ∈ st.remote 1, AnnouncedAs d.history (ascii "/x") .unassigned ∧
        ∃ u ∈ d.updates, .update (ascii "/x") u ∈ d.history ∧
          u.type ≠ NTDataType.unassigned.apiType)
      fun _ ↦ False := by
  decide +kernel

end NetworkTables
