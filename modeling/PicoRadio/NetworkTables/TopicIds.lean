import PicoRadio.NetworkTables.Operations

/-!
# Topic ids

A client knows topics by ids. The three functions that announce a topic number it with the client's
counter. A local publication reads the id of its topic with the subscript operator instead, which
makes an entry with id `0` if there is none; and there is none unless the local client was just
announced the topic, or the topic existed already.

As long as every local publication is of such a topic, ids are unambiguous.
-/

namespace NetworkTables

/-- Two topics have different ids, and the next id is above all of them. -/
structure ClientOutput.Unambiguous (d : ClientOutput) : Prop where
  lt_next : ∀ name data, d.topicData.lookup name = some data → data.id < d.nextTopicIdAssigned
  injective : ∀ name name' data data', d.topicData.lookup name = some data →
    d.topicData.lookup name' = some data' → data.id = data'.id → name = name'

/-- Among some topics one has an id of its own, and the next id is above all of theirs. -/
structure ClientOutput.UnambiguousAt (d : ClientOutput) (among : Str → Prop) (name : Str) :
    Prop where
  mem : among name
  lt_next : ∀ name' data, among name' → d.topicData.lookup name' = some data →
    data.id < d.nextTopicIdAssigned
  own : ∀ name' data data', among name' → d.topicData.lookup name = some data →
    d.topicData.lookup name' = some data' → data.id = data'.id → name = name'

theorem ClientOutput.unambiguous_iff {d : ClientOutput} :
    d.Unambiguous ↔ ∀ name, d.UnambiguousAt (fun _ ↦ True) name :=
  ⟨fun h name ↦ ⟨trivial, fun name' data _ ↦ h.lt_next name' data,
    fun name' data data' _ ↦ h.injective name name' data data'⟩,
    fun h ↦ ⟨fun name data ↦ (h []).lt_next name data trivial,
      fun name name' data data' ↦ (h name).own name' data data' trivial⟩⟩

namespace ClientOutput.UnambiguousAt

variable {d d' : ClientOutput} {among : Str → Prop} {name : Str}

theorem mono (h : d.UnambiguousAt among name) {among' : Str → Prop}
    (hamong : ∀ {name'}, among' name' → among name') (hmem : among' name) :
    d.UnambiguousAt among' name :=
  ⟨hmem, fun name' data hname' ↦ h.lt_next name' data (hamong hname'),
    fun name' data data' hname' ↦ h.own name' data data' (hamong hname')⟩

/-- The property speaks of the ids and of the counter. -/
theorem of_ids (h : d.UnambiguousAt among name)
    (hids : ∀ name' data', d'.topicData.lookup name' = some data' →
      ∃ data, d.topicData.lookup name' = some data ∧ data'.id = data.id)
    (hnext : d'.nextTopicIdAssigned = d.nextTopicIdAssigned) : d'.UnambiguousAt among name where
  mem := h.mem
  lt_next name' data' hname' hdata' := by
    obtain ⟨data, hdata, hid⟩ := hids name' data' hdata'
    rw [hid, hnext]
    exact h.lt_next name' data hname' hdata
  own name' data₁' data₂' hname' hdata₁' hdata₂' hid := by
    obtain ⟨data₁, hdata₁, hid₁⟩ := hids name data₁' hdata₁'
    obtain ⟨data₂, hdata₂, hid₂⟩ := hids name' data₂' hdata₂'
    exact h.own name' data₁ data₂ hname' hdata₁ hdata₂ (hid₁.symm.trans (hid.trans hid₂))

theorem of_eq (h : d.UnambiguousAt among name) (hdata : d'.topicData = d.topicData)
    (hnext : d'.nextTopicIdAssigned = d.nextTopicIdAssigned) : d'.UnambiguousAt among name :=
  h.of_ids (fun name' data' hdata' ↦ ⟨data', by rw [← hdata, hdata'], rfl⟩) hnext

/-- The counter is above every id in use, so numbering a topic with it is safe. -/
theorem assignId {d : ClientData} (h : d.UnambiguousAt among name) (name' : Str) :
    (d.assignId name').UnambiguousAt among name := by
  by_cases hname : name' ∈ d.topicData
  · rwa [ClientData.assignId_of_mem hname]
  · rw [ClientData.assignId_of_not_mem hname]
    refine ⟨h.mem, fun name₁ data hmem hdata ↦ ?_,
      fun name₂ data₁ data₂ hmem hdata₁ hdata₂ hid ↦ ?_⟩
    · show data.id < d.nextTopicIdAssigned + 1
      rw [AList.lookup_insert_ite] at hdata
      split at hdata
      · cases hdata
        exact Int.lt_succ _
      · have hlt := h.lt_next name₁ data hmem hdata
        omega
    · rw [AList.lookup_insert_ite] at hdata₁ hdata₂
      split at hdata₁ <;> split at hdata₂
      · next heq₁ heq₂ => rw [heq₁, heq₂]
      · cases hdata₁
        have hlt := h.lt_next name₂ data₂ hmem hdata₂
        simp only at hid
        omega
      · cases hdata₂
        have hlt := h.lt_next name data₁ h.mem hdata₁
        simp only at hid
        omega
      · exact h.own name₂ data₁ data₂ hmem hdata₁ hdata₂ hid

end ClientOutput.UnambiguousAt

theorem ClientOutput.Unambiguous.of_eq {d d' : ClientOutput} (h : d.Unambiguous)
    (hdata : d'.topicData = d.topicData)
    (hnext : d'.nextTopicIdAssigned = d.nextTopicIdAssigned) : d'.Unambiguous :=
  unambiguous_iff.2 fun name ↦ (unambiguous_iff.1 h name).of_eq hdata hnext

theorem ClientOutput.Unambiguous.numbered {d : ClientData} (h : d.Unambiguous) {name : Str}
    {d' : ClientData} (hdata : d'.topicData = (d.assignId name).topicData)
    (hnext : d'.nextTopicIdAssigned = (d.assignId name).nextTopicIdAssigned) : d'.Unambiguous :=
  unambiguous_iff.2 fun name' ↦ ((unambiguous_iff.1 h name').assignId name).of_eq hdata hnext

section

variable [FloatCodec] {K : Allow}

/-- Every move of a client keeps the id of a topic its own but for the one that makes an entry
without numbering it. -/
theorem ClientMove.unambiguousAt (hK : ¬K.unnumbered) {topics : Topics} {self : Bool}
    {d d' : ClientData} (h : ClientMove K topics self d d') {among : Str → Prop} {name : Str}
    (hd : d.UnambiguousAt among name) : d'.UnambiguousAt among name := by
  cases h with
  | @announce _ _ _ t =>
    obtain ⟨hdata, hnext⟩ := d.topicData_announceTopic t.1
    exact (hd.assignId t.1.name).of_eq hdata hnext
  | @announceToPublisher _ _ _ t => exact (hd.assignId t.1.name).of_eq (by simp) (by simp)
  | @announceSelf _ _ t => exact (hd.assignId t.1.name).of_eq rfl rfl
  | @update _ _ name' t ht hname time =>
    -- a value is sent under the id the topic has
    obtain ⟨data, hdata⟩ := AList.exists_lookup_of_mem hname
    have hid : d.topicId t.1.name = data.id := by rw [t.2, ClientData.topicId, hdata]; rfl
    refine hd.of_ids (fun name₁ data' hdata' ↦ ?_) (by simp)
    rw [ClientData.topicData_sendTopicUpdate, AList.lookup_insert_ite] at hdata'
    split at hdata'
    · next heq =>
      obtain rfl := Option.some.inj hdata'
      exact ⟨data, by rw [heq, t.2, hdata], hid⟩
    · exact ⟨data', hdata', rfl⟩
  | properties | flushText | flushBinary => exact hd.of_eq (by simp) (by simp)
  | callback | subscribe | unsubscribe | publish | unpublish | nullSubscription | nullPublisher =>
    exact hd.of_eq rfl rfl
  | unnumbered hK' => exact absurd hK' hK

theorem ClientMove.unambiguous (hK : ¬K.unnumbered) {topics : Topics} {self : Bool}
    {d d' : ClientData} (h : ClientMove K topics self d d') (hd : d.Unambiguous) :
    d'.Unambiguous := by
  rw [ClientOutput.unambiguous_iff] at hd ⊢
  exact fun name ↦ h.unambiguousAt hK (hd name)

/-- The id of a topic stays its own for the local client. -/
theorem Moves.unambiguousAt (hK : ¬K.unnumbered) {st st' : Instance} (h : Moves K st st')
    {among : Str → Prop} {name : Str} (hst : st.thisClient.UnambiguousAt among name) :
    st'.thisClient.UnambiguousAt among name :=
  (h.allClients (P := fun self _ d ↦ self = true → d.UnambiguousAt among name)
    (fun hm hd hself ↦ hm.unambiguousAt hK (hd hself)) (fun _ ↦ id)
    ⟨fun _ _ _ hcontra ↦ (by cases hcontra), fun _ ↦ hst⟩).2 rfl

/-- In a run whose local publications are of topics the local client is told of, the ids of every
client are unambiguous in every state reached. -/
theorem run_unambiguous (start : Env) (events : List (Env × Event))
    (hnumbered : ∀ st, startServer start = .ok st →
      Guarded step (Event.Meets fun _ st op ↦ op.Numbered st) st events) :
    Ends (run start events) (·.AllClients fun _ _ d ↦ d.Unambiguous) fun _ ↦ True := by
  have hchanges := run_changes True False True (.inl trivial) fun st hst ↦
    (hnumbered st hst).mono fun _ _ ↦
      Event.Meets.mono fun _ _ _ h ↦ ⟨.inl trivial, .inr h, .inl trivial⟩
  have hfresh (info : ClientInfo) : ({ toClientInfo := info } : ClientData).Unambiguous :=
    ⟨fun _ _ h ↦ by simp at h, fun _ _ _ _ h ↦ by simp at h⟩
  refine hchanges.mono (fun st hst ↦ ?_) fun _ _ ↦ trivial
  exact hst.allClients (fun hm hd ↦ hm.unambiguous id hd) (fun _ hd ↦ hd)
    (fun _ guid name ↦ hfresh { guid, name }) (Instance.initial_allClients (hfresh _))

end

set_option maxRecDepth 4000 in
/-- The local client subscribes to two topics and then publishes them. -/
theorem run_unambiguous_sample :
    Ends (@run .fractional {} [({}, .subscribe [ascii "/x", ascii "/y"] 1 .DEFAULT),
        ({}, .publish (ascii "/x") 2 .int {}), ({}, .publish (ascii "/y") 3 .int {})])
      (·.AllClients fun _ _ d ↦ d.Unambiguous) fun _ ↦ True := by
  -- the subscription is there whenever one of them is published
  have hears (name : Str) (events : List (Env × Event)) (s : Instance)
      (h : Ends (@run .fractional {} events) (fun s ↦ s.clients.lookup 0 = some .self ∧
        (s.thisClient.subscriptions.lookup 1).join.any (·.isSubscribed name) = true) fun _ ↦ False)
      (hs : @run .fractional {} events = .ok s) : s.HearsOf name := by
    obtain ⟨hself, hsub⟩ := h.of_ok hs
    obtain ⟨sub, huid, hmatch⟩ := (Option.any_eq_true _ _).1 hsub
    exact ⟨⟨0, hself⟩, 1, sub, Option.join_eq_some_iff.1 huid, hmatch⟩
  refine @run_unambiguous .fractional _ _ fun st hst ↦ ⟨fun _ ↦ trivial, fun s₁ h₁ ↦
    ⟨fun _ ↦ .inr ?_, fun s₂ h₂ ↦ ⟨fun _ ↦ .inr ?_, fun _ _ ↦ trivial⟩⟩⟩
  · exact hears _ _ _ (by decide +kernel) (@run_singleton .fractional _ _ _ _ hst h₁)
  · exact hears _ _ _ (by decide +kernel)
      (@run_concat .fractional _ _ _ _ _ (@run_singleton .fractional _ _ _ _ hst h₁) h₂)

/-- Two topics are published that the local client does not subscribe to. -/
theorem publish_unsubscribed_ambiguous :
    ¬∀ (codec : FloatCodec) (start : Env) (events : List (Env × Event)),
      Ends (@run codec start events) (·.AllClients fun _ _ d ↦ d.Unambiguous) fun _ ↦ True := by
  intro h
  have hzero : Ends (@run .fractional {} [({}, .publish (ascii "/x") 1 .int {}),
        ({}, .publish (ascii "/y") 2 .int {})])
      (fun s ↦ s.thisClient.topicData.lookup (ascii "/x") = some {} ∧
        s.thisClient.topicData.lookup (ascii "/y") = some {}) fun _ ↦ False := by
    decide +kernel
  refine (h .fractional {} _).incompatible hzero (fun s hs ⟨hx, hy⟩ ↦ ?_) fun _ _ ↦ id
  have hsame := hs.2.injective _ _ _ _ hx hy rfl
  revert hsame
  decide

end NetworkTables
