import PicoRadio.NetworkTables.TopicIds

/-!
# Agreement on values

A client that got a value of a topic was last sent the current one. Values change in one way only:
the topic is assigned and the value is broadcast, to every client that got a value of the topic
before. A client that gets its first value gets the current one.

The invariant is checked against the moves. Where a value is assigned, the broadcast reaches every
client it has to reach, because the local client's callback never stops it.

## What makes it true

The moves know a change of a value only together with its broadcast, so there is no state in between
in which the clients disagree. A client that does not count as told of a topic agrees with anything.
The one thing that could break the agreement is a broadcast that stops half-way, and the assumption
on the callback excludes it.
-/

namespace NetworkTables

/-- The last update of the topic with this id put into the binary cache. -/
def ClientOutput.lastUpdate (d : ClientOutput) (id : ℤ) : Option ValueUpdate :=
  (d.updates.filter (·.id = id)).getLast?

theorem ClientOutput.lastUpdate_congr {d d' : ClientOutput} (h : d'.updates = d.updates) (id : ℤ) :
    d'.lastUpdate id = d.lastUpdate id := by
  rw [lastUpdate, lastUpdate, h]

theorem ClientOutput.lastUpdate_append {d d' : ClientOutput} {u : ValueUpdate}
    (h : d'.updates = d.updates ++ [u]) (id : ℤ) :
    d'.lastUpdate id = if u.id = id then some u else d.lastUpdate id := by
  rw [lastUpdate, lastUpdate, h, List.filter_append]
  by_cases hid : u.id = id <;> simp [hid]

section

variable [FloatCodec]

/-- If the client got a value of the topic, then the last one it was sent is the current one. -/
def ClientOutput.CurrentAt (topics : Topics) (d : ClientOutput) (name : Str) : Prop :=
  ∀ data t, d.topicData.lookup name = some data → data.initialPublish →
    topics.lookup name = some (some t) →
    ∃ u, d.lastUpdate data.id = some u ∧ u.type = t.1.value.getAPIType ∧ u.value = t.1.value.pack

/-- A client with a connection agrees with the server on the values it got. -/
structure ClientOutput.Current (topics : Topics) (d : ClientOutput) : Prop where
  ids : d.Unambiguous
  exists_topic : ∀ name ∈ d.topicData, ∃ t, topics.lookup name = some (some t)
  values : ∀ name, d.CurrentAt topics name

namespace ClientOutput.Current

variable {topics : Topics} {d d' : ClientOutput}

theorem fresh (topics : Topics) (info : ClientInfo) :
    ({ toClientInfo := info } : ClientData).Current topics where
  ids := ⟨fun _ _ h ↦ by simp at h, fun _ _ _ _ h ↦ by simp at h⟩
  exists_topic _ h := absurd h (AList.notMem_empty _)
  values _ _ _ h := by simp at h

/-- No update is sent, and the topics the client got a value of are those of before. -/
theorem of_quiet (h : d.Current topics) (hids : d'.Unambiguous)
    (hnames : ∀ name ∈ d'.topicData, name ∈ d.topicData ∨
      ∃ t, topics.lookup name = some (some t))
    (hupdates : d'.updates = d.updates)
    (hdata : ∀ name data, d'.topicData.lookup name = some data → data.initialPublish →
      d.topicData.lookup name = some data) : d'.Current topics where
  ids := hids
  exists_topic name hname := (hnames name hname).elim (h.exists_topic name) id
  values name data t hlookup hpublished ht := by
    rw [lastUpdate_congr hupdates]
    exact h.values name data t (hdata name data hlookup hpublished) hpublished ht

/-- Numbering a topic makes an entry without a value. -/
theorem assignId {d : ClientData} (h : d.Current topics) {name : Str} {t : TopicAt name}
    (ht : topics.lookup name = some (some t)) {d' : ClientData}
    (hdata : d'.topicData = (d.assignId name).topicData)
    (hnext : d'.nextTopicIdAssigned = (d.assignId name).nextTopicIdAssigned)
    (hupdates : d'.updates = d.updates) : d'.Current topics := by
  refine h.of_quiet (h.ids.numbered hdata hnext) (fun name' hname' ↦ ?_) hupdates
    fun name' data hlookup hpublished ↦ ?_
  · rw [hdata, ClientData.mem_assignId] at hname'
    refine hname'.imp_right ?_
    rintro rfl
    exact ⟨t, ht⟩
  · by_cases hname : name ∈ d.topicData
    · rwa [hdata, ClientData.assignId_of_mem hname] at hlookup
    · rw [hdata, ClientData.assignId_of_not_mem hname, AList.lookup_insert_ite] at hlookup
      split at hlookup
      · obtain rfl := Option.some.inj hlookup
        cases hpublished
      · exact hlookup

/-- The topics change, but no value of a topic that the client got a value of. -/
theorem of_topics (h : d.Current topics) {topics' : Topics} (hlater : TopicsLater topics topics')
    (hsame : ∀ name data t t', d.topicData.lookup name = some data → data.initialPublish →
      topics.lookup name = some (some t) → topics'.lookup name = some (some t') →
      t'.1.value = t.1.value) : d.Current topics' where
  ids := h.ids
  exists_topic name hname := by
    obtain ⟨t, ht⟩ := h.exists_topic name hname
    obtain ⟨t', ht', -⟩ := hlater.type name t ht
    exact ⟨t', ht'⟩
  values name data t' hdata hpublished ht' := by
    obtain ⟨t, ht⟩ := h.exists_topic name (AList.mem_of_lookup hdata)
    rw [hsame name data t t' hdata hpublished ht ht']
    exact h.values name data t hdata hpublished ht

/-- The client is sent the value of a topic it knows. -/
theorem send {d : ClientData} (h : d.Current topics) {topics' : Topics}
    (hlater : TopicsLater topics topics') {name : Str} (hname : name ∈ d.topicData)
    {t : TopicAt name} (ht : topics'.lookup name = some (some t))
    (hsame : ∀ name' ≠ name, topics'.lookup name' = topics.lookup name') (time : UInt64) :
    (d.sendTopicUpdate t.1 time).Current topics' := by
  obtain ⟨data, hdata⟩ := AList.exists_lookup_of_mem hname
  have hid : d.topicId t.1.name = data.id := by rw [t.2, ClientData.topicId, hdata]; rfl
  have hupdates := ClientData.updates_sendTopicUpdate d t.1 time
  have hmove : ClientMove (.slips True False True) topics' false d (d.sendTopicUpdate t.1 time) :=
    .update ht hname time
  have hids : (d.sendTopicUpdate t.1 time).Unambiguous := hmove.unambiguous id h.ids
  refine ⟨hids, fun name' hname' ↦ ?_, fun name' data' t' hdata' hpublished ht' ↦ ?_⟩
  · rw [ClientData.topicData_sendTopicUpdate, AList.mem_insert, t.2] at hname'
    rcases hname' with heq | hname'
    · subst heq
      exact ⟨t, ht⟩
    · obtain ⟨t₀, ht₀⟩ := h.exists_topic name' hname'
      obtain ⟨t', ht', -⟩ := hlater.type name' t₀ ht₀
      exact ⟨t', ht'⟩
  · rw [lastUpdate_append hupdates]
    rw [ClientData.topicData_sendTopicUpdate, AList.lookup_insert_ite, t.2] at hdata'
    obtain rfl | hne := eq_or_ne name' name
    · rw [if_pos rfl] at hdata'
      obtain rfl := Option.some.inj hdata'
      rw [ht] at ht'
      cases ht'
      exact ⟨d.topicUpdate t'.1 time, if_pos (congrArg d.topicId t'.2), rfl, rfl⟩
    · -- another topic has another id
      rw [if_neg hne] at hdata'
      have hother : (d.topicUpdate t.1 time).id ≠ data'.id := fun heq ↦
        hne (h.ids.injective _ _ _ _ hdata' hdata (heq.symm.trans hid))
      rw [if_neg hother]
      rw [hsame name' hne] at ht'
      exact h.values name' data' t' hdata' hpublished ht'

end ClientOutput.Current

/-- The values of every client with a connection are current. -/
def Instance.Current (st : Instance) : Prop :=
  ∀ guid d, st.clients.lookup guid = some (.remote d) → d.Current st.topics

variable {K : Allow}

theorem ClientMove.current {topics : Topics} {d d' : ClientData}
    (h : ClientMove K topics false d d') (hd : d.Current topics) : d'.Current topics := by
  cases h with
  | @announce _ _ name t ht =>
    obtain ⟨hdata, hnext⟩ := d.topicData_announceTopic t.1
    rw [t.2] at hdata hnext
    exact hd.assignId ht hdata hnext (by simp)
  | @announceToPublisher _ _ name t ht =>
    exact hd.assignId ht (by simp [t.2]) (by simp [t.2]) (by simp)
  | update ht hname time => exact hd.send (.refl topics) hname ht (fun _ _ ↦ rfl) time
  | properties | flushText | flushBinary =>
    exact hd.of_quiet (hd.ids.of_eq (by simp) (by simp))
      (fun name hname ↦ .inl (by simpa using hname))
      (by simp) fun name data hdata _ ↦ by simpa using hdata
  | subscribe | unsubscribe | publish | unpublish | nullSubscription | nullPublisher =>
    exact hd.of_quiet (hd.ids.of_eq rfl rfl) (fun _ ↦ .inl) rfl fun _ _ hdata _ ↦ hdata

/-- Every move keeps the values current, if broadcasts are complete. -/
theorem Move.current (hK : ¬K.partly) {st st' : Instance} (h : Move K st st') (hst : st.Current) :
    st'.Current := by
  have hlater := h.topicsLater
  intro guid d hd
  cases h with
  | remote hd₀ hm =>
    rw [AList.lookup_insert_ite] at hd
    split at hd
    · cases hd
      exact hm.current (hst _ _ hd₀)
    · exact hst guid d hd
  | self => exact hst guid d hd
  | @create name _ hname =>
    refine (hst guid d hd).of_topics hlater fun name' data t t' _ _ ht ht' ↦ ?_
    have hne : name' ≠ name := by
      rintro rfl
      exact hname (AList.mem_of_lookup ht)
    rw [Instance.topics_setTopic, AList.lookup_insert_ne hne, ht] at ht'
    cases ht'
    rfl
  | @nullTopic name _ hname =>
    refine (hst guid d hd).of_topics hlater fun name' data t t' _ _ ht ht' ↦ ?_
    have hne : name' ≠ name := by
      rintro rfl
      exact hname (AList.mem_of_lookup ht)
    rw [Instance.insertNullTopic, AList.lookup_insert_ne hne, ht] at ht'
    cases ht'
    rfl
  | @properties name t₀ _ ht₀ properties =>
    refine (hst guid d hd).of_topics hlater fun name' data t t' _ _ ht ht' ↦ ?_
    rw [Instance.topics_setTopic] at ht'
    obtain rfl | hne := eq_or_ne name' name
    · rw [ht₀] at ht
      rw [AList.lookup_insert] at ht'
      cases ht
      cases ht'
      rfl
    · rw [AList.lookup_insert_ne hne, ht] at ht'
      cases ht'
      rfl
  | @assign _ name t _ ht value htype time complete hcomplete h =>
    have htopics : st'.topics = st.topics.insert name (some (t.setValue value)) := by
      rw [h.frame]; rfl
    rw [htopics] at hlater ⊢
    obtain ⟨d₀, hd₀, ⟨hr, rfl⟩ | ⟨hr, rfl⟩⟩ := h.remote_cases hd
    · rw [(t.setValue value).2] at hr
      exact (hst guid d₀ hd₀).send hlater hr.mem (AList.lookup_insert _)
        (fun name' hne ↦ AList.lookup_insert_ne hne) time
    · -- whoever got a value of the topic before is sent this one too
      refine (hst guid d hd₀).of_topics hlater fun name' data t₁ t' hdata hpublished ht₁ ht' ↦ ?_
      obtain rfl | hne := eq_or_ne name' name
      · refine absurd ⟨data, ?_, .inl hpublished⟩ (hr (hcomplete.resolve_left hK))
        rwa [(t.setValue value).2]
      · rw [AList.lookup_insert_ne hne, ht₁] at ht'
        cases ht'
        rfl

theorem Change.current (hK : ¬K.partly) {st st' : Instance} (h : Change K st st')
    (hst : st.Current) : st'.Current := by
  intro guid d hd
  cases h with
  | move h => exact h.current hK hst guid d hd
  | idle ht hc _ =>
    rw [hc] at hd
    rw [ht]
    exact hst guid d hd
  | join guid' name =>
    rw [Instance.insertClient, AList.lookup_insert_ite] at hd
    split at hd
    · cases hd
      exact .fresh st.topics { guid := guid', name }
    · exact hst guid d hd
  | leave guid' =>
    rw [Instance.eraseClient, AList.lookup_erase_ite] at hd
    split at hd
    · cases hd
    · exact hst guid d hd

theorem Changes.current (hK : ¬K.partly) {st st' : Instance} (h : Changes K st st')
    (hst : st.Current) : st'.Current := by
  induction h with
  | refl => exact hst
  | tail _ h ih => exact h.current hK ih

/-- If the local client's callback accepts every value, then in every state a run reaches the last
update each client was sent of a topic it got a value of carries the current value. -/
theorem run_current (start : Env) (events : List (Env × Event)) (hstart : start.Accepts)
    (hevents : ∀ e ∈ events, e.1.Accepts) :
    Ends (run start events)
      (fun st ↦ ∀ guid d name data, st.clients.lookup guid = some (.remote d) →
        d.topicData.lookup name = some data → data.initialPublish →
        ∃ t u, st.topics.lookup name = some (some t) ∧ d.lastUpdate data.id = some u ∧
          u.type = t.1.value.getAPIType ∧ u.value = t.1.value.pack)
      fun _ ↦ True := by
  have hguarded (st : Instance) : Guarded step
      (Event.Meets fun env st op ↦ op.Avoids True True False env st) st events :=
    Guarded.of_forall_mem (fun e he ↦ Event.Meets.of_forall fun _ _ ↦
      ⟨.inl trivial, .inl trivial, .inr (hevents e he)⟩) st
  have hinitial : Instance.initial.Current := by
    intro guid d hd
    rw [Instance.initial, AList.lookup_insert_ite] at hd
    split at hd <;> cases hd
  refine (run_changes True True False (.inr hstart) fun st _ ↦ hguarded st).mono
    (fun st hst guid d name data hd hdata hpublished ↦ ?_) fun _ _ ↦ trivial
  have hcurrent := hst.current id hinitial guid d hd
  obtain ⟨t, ht⟩ := hcurrent.exists_topic name (AList.mem_of_lookup hdata)
  obtain ⟨u, hu⟩ := hcurrent.values name data t hdata hpublished ht
  exact ⟨t, u, ht, hu⟩

end

/-- A callback that accepts every value. -/
def Env.accepting : Env where
  topicUpdateCallback := some fun _ _ _ _ ↦ true

theorem Env.accepting_accepts : Env.accepting.Accepts := by
  rintro callback h st id time value
  obtain rfl := Option.some.inj h
  rfl

set_option maxRecDepth 4000 in
/-- A client subscribes to a topic, and its value changes twice. -/
theorem run_current_sample :
    Ends (@run .fractional .accepting [(.accepting, .connect (.sample 1 "a")),
        (.accepting, .text 1 [.subscribe [ascii "/x"] 1 .DEFAULT]),
        (.accepting, .publish (ascii "/x") 2 .int {}),
        (.accepting, .updateTopic 2 { type := .int, bits := 5 } none),
        (.accepting, .updateTopic 2 { type := .int, bits := 6 } none)])
      (fun st ↦ ∀ guid d name data, st.clients.lookup guid = some (.remote d) →
        d.topicData.lookup name = some data → data.initialPublish →
        ∃ t u, st.topics.lookup name = some (some t) ∧ d.lastUpdate data.id = some u ∧
          u.type = t.1.value.getAPIType ∧ u.value = @NTDataValue.pack .fractional t.1.value)
      fun _ ↦ True := by
  refine @run_current .fractional _ _ Env.accepting_accepts fun e he ↦ ?_
  simp only [List.mem_cons, List.not_mem_nil, or_false] at he
  rcases he with rfl | rfl | rfl | rfl | rfl <;> exact Env.accepting_accepts

end NetworkTables
