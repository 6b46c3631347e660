import PicoRadio.NetworkTables.HandlerMoves

/-!
# States in which the local interface does not fail

The functions of the local interface follow the pointers of all topics and clients, and those of all
subscriptions, but not those of the publishers of the local client, unless they pack them. A state
is `Sound` if none of the pointers they follow is null, if every topic has a valid value, and if the
two records of the local client are there.

From a sound state these functions end in a sound state and in no fault. `Safely new st x final Q`
says so of a program `x`, together with what they keep (`Instance.Retains`): what the local client
asks for, its ids, and the types and properties of topics. The callbacks for announcements are
called for topics that the local client asks for, with the ids it knows.

## A condition on a state

Not every state that the server can reach is sound: the subscript operators leave null pointers
under names and ids that nothing has, and a topic that is published with a type that is none has no
valid value. So soundness is asked for where a sequence of calls begins. From there on every call
keeps it, and it need not be asked for again.

What the local client is told on the way is recorded as calls of its callbacks, in order, since a
subscriber goes by them: `Announces`, `Sends`, `TellsCached` and `TellsValues` say which topics
these calls may be about, and `Publishes` and `CatchesUp` put this together for a publication and a
subscription.
-/

namespace NetworkTables

/-- Every pointer the local interface follows, but those of the publishers it packs, is a
good one. -/
structure Instance.Sound (st : Instance) : Prop where
  topics : ∀ name ∈ st.topics, ∃ t : TopicAt name,
    st.topics.lookup name = some (some t) ∧ t.1.value.isValid
  clients : ∀ guid, st.clients.lookup guid ≠ some .null
  subscriptions : st.AllClients fun _ _ d ↦ ∀ uid, d.subscriptions.lookup uid ≠ some none
  publishers : ∀ guid d, st.clients.lookup guid = some (.remote d) →
    ∀ uid, d.publishers.lookup uid ≠ some none
  announced : ∀ name ∈ st.thisClient.topicData, name ∈ st.topics
  records : st.HasTopic serverSubName ∧ st.HasTopic serverPubName

/-- The local client has the id of the announcement for the topic. -/
def Instance.Knows (st : Instance) (t : AnnouncedTopic) : Prop :=
  ∃ data, st.thisClient.topicData.lookup t.name = some data ∧ data.id = t.id

/-- A subscription of the local client matches the topic. -/
def Instance.Listens (st : Instance) (name : Str) : Prop :=
  ∃ uid sub, st.thisClient.subscriptions.lookup uid = some (some sub) ∧ sub.isSubscribed name

/-- There is a topic of this name, and later subscribers are told of it. -/
def Instance.Cached (st : Instance) (name : Str) : Prop :=
  name ∈ st.topics ∧ ∀ t : TopicAt name, st.topics.lookup name = some (some t) →
    t.1.properties.cached = true

/-- The local client may be told of the topic: it asks for it, and the topic is new or cached. -/
def Instance.MayHear (new : Str → Prop) (st : Instance) (name : Str) : Prop :=
  st.Listens name ∧ (new name ∨ st.Cached name)

/-- What telling clients something keeps. A topic that is new has one of the names in `new`. -/
structure Instance.Retains (new : Str → Prop) (st s : Instance) : Prop where
  info : s.thisClient.toClientInfo = st.thisClient.toClientInfo
  self : ∀ guid, s.clients.lookup guid = some .self ↔ st.clients.lookup guid = some .self
  mem : ∀ guid ∈ st.clients, guid ∈ s.clients
  names : ∀ name ∈ s.topics, name ∈ st.topics ∨ new name
  types : ∀ (name : Str) (t : TopicAt name), st.topics.lookup name = some (some t) →
    ∃ t' : TopicAt name, s.topics.lookup name = some (some t') ∧
      t'.1.value.type = t.1.value.type ∧ t'.1.properties = t.1.properties
  ids : ∀ name data, st.thisClient.topicData.lookup name = some data →
    s.thisClient.topicData.lookup name = some data
  fresh : ∀ name data, s.thisClient.topicData.lookup name = some data →
    st.thisClient.topicData.lookup name = some data ∨ data.initialPublish = false
  calls : ∃ events, s.thisClient.history = st.thisClient.history ++ events ∧
    ∀ t, .announcedCallback t ∈ events → s.Knows t ∧ st.MayHear new t.name

/-- The local client has been told of the topic since the first state. -/
def Instance.Heard (st s : Instance) (name : Str) : Prop :=
  ∃ events t, s.thisClient.history = st.thisClient.history ++ events ∧
    .announcedCallback t ∈ events ∧ t.name = name

variable {new : Str → Prop} {st s s' : Instance} {name : Str}

namespace Instance

/-- A name in the map of topics leads to a topic with a valid value. -/
theorem Sound.hasTopic (h : st.Sound) (hname : name ∈ st.topics) :
    ∃ t : TopicAt name, st.topics.lookup name = some (some t) ∧ t.1.value.isValid :=
  h.topics name hname

/-- No topic is a null pointer. -/
theorem Sound.not_null (h : st.Sound) : st.topics.lookup name ≠ some none := by
  intro hnull
  obtain ⟨t, ht, -⟩ := h.topics name (AList.mem_of_lookup hnull)
  rw [ht] at hnull
  cases hnull

/-- Every value is valid. -/
theorem Sound.valid (h : st.Sound) {t : TopicAt name} (ht : st.topics.lookup name = some (some t)) :
    t.1.value.isValid := by
  obtain ⟨t', ht', hvalid⟩ := h.topics name (AList.mem_of_lookup ht)
  rw [ht] at ht'
  obtain rfl := Option.some.inj (Option.some.inj ht')
  exact hvalid

/-- The pointer of a client that is in the map leads to its data. -/
theorem Sound.exists_behind (h : st.Sound) {guid : Guid} (hguid : guid ∈ st.clients) :
    ∃ d, st.Behind guid d ∧ ∀ uid, d.subscriptions.lookup uid ≠ some none := by
  obtain ⟨p, hp⟩ := AList.exists_lookup_of_mem hguid
  cases p with
  | null => exact absurd hp (h.clients guid)
  | self => exact ⟨st.thisClient, .inl ⟨hp, rfl⟩, h.subscriptions.2⟩
  | remote d => exact ⟨d, .inr hp, h.subscriptions.1 guid d hp⟩

/-- No pointer of the map is null. -/
def hasNoNull {α : Type} (m : AList fun _ : Int32 ↦ Option α) : Bool :=
  m.entries.all fun entry ↦ entry.2.isSome

/-- It is decided entry by entry. -/
theorem hasNoNull_iff {α : Type} {m : AList fun _ : Int32 ↦ Option α} :
    hasNoNull m = true ↔ ∀ uid, m.lookup uid ≠ some none := by
  rw [hasNoNull, List.all_eq_true]
  refine ⟨fun h uid hnull ↦
    Bool.noConfusion (h _ (AList.mem_lookup_iff.1 hnull)), fun h entry hmem ↦ ?_⟩
  obtain ⟨uid, p⟩ := entry
  cases p with
  | none => exact absurd (AList.mem_lookup_iff.2 hmem) (h uid)
  | some a => rfl

/-- What a sound state says about the pointer of a client. -/
def isSoundPointer : ClientPtr → Bool
  | .null => false
  | .self => true
  | .remote d => hasNoNull d.subscriptions && hasNoNull d.publishers

/-- A state is seen to be sound by going through its maps. -/
theorem sound_iff : st.Sound ↔
    (∀ entry ∈ st.topics.entries, entry.2.any (·.1.value.isValid) = true) ∧
    (∀ entry ∈ st.clients.entries, isSoundPointer entry.2 = true) ∧
    hasNoNull st.thisClient.subscriptions = true ∧
    (∀ entry ∈ st.thisClient.topicData.entries, entry.1 ∈ st.topics) ∧
    st.HasTopic serverSubName ∧ st.HasTopic serverPubName := by
  constructor
  · intro h
    refine ⟨fun entry hentry ↦ ?_, fun entry hentry ↦ ?_, hasNoNull_iff.2 h.subscriptions.2,
      fun entry hentry ↦ h.announced _ (AList.mem_of_lookup (AList.mem_lookup_iff.2 hentry)),
      h.records⟩
    · obtain ⟨name, p⟩ := entry
      have hp : st.topics.lookup name = some p := AList.mem_lookup_iff.2 hentry
      obtain ⟨t, ht, hvalid⟩ := h.topics name (AList.mem_of_lookup hp)
      obtain rfl := Option.some.inj (hp.symm.trans ht)
      exact hvalid
    · obtain ⟨guid, p⟩ := entry
      have hp : st.clients.lookup guid = some p := AList.mem_lookup_iff.2 hentry
      cases p with
      | null => exact absurd hp (h.clients guid)
      | self => rfl
      | remote d => exact Bool.and_eq_true_iff.2 ⟨hasNoNull_iff.2 (h.subscriptions.1 guid d hp),
          hasNoNull_iff.2 (h.publishers guid d hp)⟩
  · rintro ⟨htopics, hclients, hsubs, hnames, hrecords⟩
    have hpointer (guid : Guid) (p : ClientPtr) (hp : st.clients.lookup guid = some p) :
        isSoundPointer p = true := hclients _ (AList.mem_lookup_iff.1 hp)
    have hremote (guid : Guid) (d : ClientData) (hd : st.clients.lookup guid = some (.remote d)) :
        hasNoNull d.subscriptions = true ∧ hasNoNull d.publishers = true :=
      Bool.and_eq_true_iff.1 (hpointer guid _ hd)
    refine ⟨fun name hname ↦ ?_, fun guid hnull ↦ Bool.noConfusion (hpointer guid _ hnull),
      ⟨fun guid d hd ↦ hasNoNull_iff.1 (hremote guid d hd).1, hasNoNull_iff.1 hsubs⟩,
      fun guid d hd ↦ hasNoNull_iff.1 (hremote guid d hd).2, fun name hname ↦ ?_, hrecords⟩
    · obtain ⟨p, hp⟩ := AList.exists_lookup_of_mem hname
      have hany := htopics _ (AList.mem_lookup_iff.1 hp)
      cases p with
      | none => exact Bool.noConfusion hany
      | some t => exact ⟨t, hp, hany⟩
    · obtain ⟨data, hdata⟩ := AList.exists_lookup_of_mem hname
      exact hnames _ (AList.mem_lookup_iff.1 hdata)

instance : DecidablePred Sound :=
  fun _ ↦ decidable_of_iff _ sound_iff.symm

/-- An id that is kept is known still. -/
theorem Knows.mono {t : AnnouncedTopic} (h : st.Knows t)
    (hids : ∀ name data, st.thisClient.topicData.lookup name = some data →
      s.thisClient.topicData.lookup name = some data) : s.Knows t := by
  obtain ⟨data, hdata, hid⟩ := h
  exact ⟨data, hids _ _ hdata, hid⟩

/-- Nothing happens. -/
theorem Retains.refl (new : Str → Prop) (st : Instance) : st.Retains new st where
  info := rfl
  self _ := Iff.rfl
  mem _ := id
  names _ := .inl
  types _ t ht := ⟨t, ht, rfl, rfl⟩
  ids _ _ := id
  fresh _ _ := .inl
  calls := ⟨[], (List.append_nil _).symm, fun _ ht ↦ absurd ht List.not_mem_nil⟩

/-- The local client asks for the same topics. -/
theorem Retains.listens (h : st.Retains new s) : s.Listens name ↔ st.Listens name := by
  rw [Listens, Listens, congrArg ClientInfo.subscriptions h.info]

/-- A cached topic was one before, or it is new. -/
theorem Retains.cached (h : st.Retains new s) (hs : s.Cached name) : new name ∨ st.Cached name := by
  refine (h.names name hs.1).elim (fun hmem ↦ .inr ⟨hmem, fun t ht ↦ ?_⟩) .inl
  obtain ⟨t', ht', -, hproperties⟩ := h.types name t ht
  rw [← hproperties]
  exact hs.2 t' ht'

/-- A topic the local client may be told of later is one it may be told of now. -/
theorem Retains.mayHear (h : st.Retains new s) (hs : s.MayHear new name) : st.MayHear new name :=
  ⟨h.listens.1 hs.1, hs.2.elim .inl h.cached⟩

/-- One after the other. -/
theorem Retains.trans (h : st.Retains new s) (h' : s.Retains new s') : st.Retains new s' where
  info := h'.info.trans h.info
  self guid := (h'.self guid).trans (h.self guid)
  mem guid hguid := h'.mem guid (h.mem guid hguid)
  names name hname := (h'.names name hname).elim (h.names name) .inr
  types name t ht := by
    obtain ⟨t₁, ht₁, htype₁, hproperties₁⟩ := h.types name t ht
    obtain ⟨t₂, ht₂, htype₂, hproperties₂⟩ := h'.types name t₁ ht₁
    exact ⟨t₂, ht₂, htype₂.trans htype₁, hproperties₂.trans hproperties₁⟩
  ids name data hdata := h'.ids name data (h.ids name data hdata)
  fresh name data hdata := (h'.fresh name data hdata).elim (h.fresh name data) .inr
  calls := by
    obtain ⟨events, hevents, hknows⟩ := h.calls
    obtain ⟨events', hevents', hknows'⟩ := h'.calls
    refine ⟨events ++ events', by rw [hevents', hevents, List.append_assoc], fun t ht ↦ ?_⟩
    rcases List.mem_append.1 ht with ht | ht
    · exact (hknows t ht).imp_left (·.mono h'.ids)
    · exact (hknows' t ht).imp_right h.mayHear

/-- Heard of since an earlier state. -/
theorem Heard.before (h : s.Heard s' name) (hs : st.Retains new s) : st.Heard s' name := by
  obtain ⟨events, t, hevents, ht, hname⟩ := h
  obtain ⟨before, hbefore, -⟩ := hs.calls
  refine ⟨before ++ events, t, ?_, List.mem_append.2 (.inr ht), hname⟩
  rw [hevents, hbefore, List.append_assoc]

/-- Heard of up to a later state. -/
theorem Heard.after (h : st.Heard s name) (hs : s.Retains new s') : st.Heard s' name := by
  obtain ⟨events, t, hevents, ht, hname⟩ := h
  obtain ⟨later, hlater, -⟩ := hs.calls
  refine ⟨events ++ later, t, ?_, List.mem_append.2 (.inl ht), hname⟩
  rw [hlater, hevents, List.append_assoc]

/-! ### Single changes -/

/-- Other data without null pointers are put in the place of those of a client. -/
theorem Sound.putRemote (h : st.Sound) {guid : Guid} {d d' : ClientData}
    (hd : st.clients.lookup guid = some (.remote d))
    (hsubs : ∀ uid, d'.subscriptions.lookup uid ≠ some none)
    (hpubs : ∀ uid, d'.publishers.lookup uid ≠ some none) :
    (st.setClient guid d').Sound ∧ st.Retains new (st.setClient guid d') := by
  have hlookup (guid' : Guid) : (st.clients.insert guid (.remote d')).lookup guid' =
      if guid' = guid then some (.remote d') else st.clients.lookup guid' :=
    AList.lookup_insert_ite _ _ _ _
  rw [setClient_of_remote hd]
  refine ⟨⟨h.topics, fun guid' ↦ ?_, ⟨fun guid' d₁ hd₁ ↦ ?_, h.subscriptions.2⟩,
    fun guid' d₁ hd₁ ↦ ?_, h.announced, h.records⟩, ⟨rfl, fun guid' ↦ ?_, fun guid' hguid ↦ ?_,
    fun _ ↦ .inl, fun _ t ht ↦ ⟨t, ht, rfl, rfl⟩, fun _ _ ↦ id, fun _ _ ↦ .inl,
    (Retains.refl new st).calls⟩⟩
  · rw [hlookup]
    split
    · exact fun hnull ↦ by cases hnull
    · exact h.clients guid'
  · rw [hlookup] at hd₁
    split at hd₁
    · obtain rfl := ClientPtr.remote.inj (Option.some.inj hd₁)
      exact hsubs
    · exact h.subscriptions.1 guid' d₁ hd₁
  · rw [hlookup] at hd₁
    split at hd₁
    · obtain rfl := ClientPtr.remote.inj (Option.some.inj hd₁)
      exact hpubs
    · exact h.publishers guid' d₁ hd₁
  · rw [hlookup]
    split
    · next heq =>
      rw [heq, hd]
      exact iff_of_false (fun hself ↦ by cases hself) fun hself ↦ by cases hself
    · exact Iff.rfl
  · exact (AList.mem_insert _).2 (.inr hguid)

/-- A client with a connection is told something. -/
theorem Sound.setRemote (h : st.Sound) {guid : Guid} {d d' : ClientData}
    (hd : st.clients.lookup guid = some (.remote d)) (hinfo : d'.toClientInfo = d.toClientInfo) :
    (st.setClient guid d').Sound ∧ st.Retains new (st.setClient guid d') :=
  h.putRemote hd (by rw [hinfo]; exact h.subscriptions.1 guid d hd)
    (by rw [hinfo]; exact h.publishers guid d hd)

/-- The local client is told something. -/
theorem Sound.setSelf (h : st.Sound) {d' : ClientData}
    (hinfo : d'.toClientInfo = st.thisClient.toClientInfo)
    (hnames : ∀ name ∈ d'.topicData, name ∈ st.thisClient.topicData ∨ name ∈ st.topics)
    (hids : ∀ name data, st.thisClient.topicData.lookup name = some data →
      d'.topicData.lookup name = some data)
    (hfresh : ∀ name data, d'.topicData.lookup name = some data →
      st.thisClient.topicData.lookup name = some data ∨ data.initialPublish = false)
    (hcalls : ∃ events, d'.history = st.thisClient.history ++ events ∧
      ∀ t, .announcedCallback t ∈ events →
        { st with thisClient := d' }.Knows t ∧ st.MayHear new t.name) :
    { st with thisClient := d' }.Sound ∧ st.Retains new { st with thisClient := d' } := by
  refine ⟨⟨h.topics, h.clients, ⟨h.subscriptions.1, ?_⟩, h.publishers,
    fun name hname ↦ (hnames name hname).elim (h.announced name) id, h.records⟩,
    ⟨hinfo, fun _ ↦ Iff.rfl, fun _ ↦ id, fun _ ↦ .inl, fun _ t ht ↦ ⟨t, ht, rfl, rfl⟩, hids,
      hfresh, hcalls⟩⟩
  show ∀ uid, d'.toClientInfo.subscriptions.lookup uid ≠ some none
  rw [hinfo]
  exact h.subscriptions.2

/-- A topic that is new, or one that gets another value of its type. -/
theorem Sound.setTopic (h : st.Sound) {t : TopicAt name} (hvalid : t.1.value.isValid)
    (hname : name ∈ st.topics ∨ new name)
    (htype : ∀ t₀ : TopicAt name, st.topics.lookup name = some (some t₀) →
      t.1.value.type = t₀.1.value.type ∧ t.1.properties = t₀.1.properties) :
    (st.setTopic name t).Sound ∧ st.Retains new (st.setTopic name t) := by
  have hmem (name' : Str) (hname' : name' ∈ st.topics) : name' ∈ (st.setTopic name t).topics :=
    (AList.mem_insert _).2 (.inr hname')
  -- every topic that was there is there, with its type and properties
  have htypes (name' : Str) (t' : TopicAt name') (ht' : st.topics.lookup name' = some (some t')) :
      ∃ t'' : TopicAt name', (st.setTopic name t).topics.lookup name' = some (some t'') ∧
        t''.1.value.type = t'.1.value.type ∧ t''.1.properties = t'.1.properties := by
    rw [topics_setTopic]
    by_cases heq : name' = name
    · subst heq
      exact ⟨t, AList.lookup_insert _, htype t' ht'⟩
    · exact ⟨t', by rw [AList.lookup_insert_ne heq, ht'], rfl, rfl⟩
  have hhas {name' : Str} (hhas : st.HasTopic name') : (st.setTopic name t).HasTopic name' := by
    obtain ⟨t', ht'⟩ := hhas
    obtain ⟨t'', ht'', -⟩ := htypes name' t' ht'
    exact ⟨t'', ht''⟩
  refine ⟨⟨fun name' hname' ↦ ?_, h.clients, h.subscriptions, h.publishers,
    fun name' hname' ↦ hmem name' (h.announced name' hname'), hhas h.records.1, hhas h.records.2⟩,
    ⟨rfl, fun _ ↦ Iff.rfl, fun _ ↦ id, fun name' hname' ↦ ?_, htypes, fun _ _ ↦ id,
    fun _ _ ↦ .inl, (Retains.refl new st).calls⟩⟩
  · rw [topics_setTopic]
    by_cases heq : name' = name
    · subst heq
      exact ⟨t, AList.lookup_insert _, hvalid⟩
    · rw [AList.lookup_insert_ne heq]
      exact h.topics name' (((AList.mem_insert _).1 hname').resolve_left heq)
  · rcases (AList.mem_insert _).1 hname' with rfl | hname'
    · exact hname
    · exact .inl hname'

/-- Whether the mutex is free is none of the things a call keeps or relies on. -/
theorem Sound.release (h : st.Sound) (free : Bool) :
    { st with mutexFree := free }.Sound :=
  ⟨h.topics, h.clients, h.subscriptions, h.publishers, h.announced, h.records⟩

end Instance

/-! ### Programs that do not fail -/

/-- The program ends in a sound state that keeps what the first one has. -/
def Safely {α : Type} (new : Str → Prop) (st : Instance) (x : Except Fault α) (final : α → Instance)
    (Q : α → Prop) : Prop :=
  Ends x (fun a ↦ (final a).Sound ∧ st.Retains new (final a) ∧ Q a) fun _ ↦ False

namespace Safely

variable {α β : Type} {x : Except Fault α} {final : α → Instance} {Q : α → Prop}

theorem ok {a : α} (ha : (final a).Sound ∧ st.Retains new (final a)) (hQ : Q a) :
    Safely new st (.ok a) final Q :=
  ⟨ha.1, ha.2, hQ⟩

/-- Nothing has happened. -/
theorem same {a : α} (hst : st.Sound) (ha : final a = st) (hQ : Q a) :
    Safely new st (.ok a) final Q :=
  .ok (by rw [ha]; exact ⟨hst, .refl new st⟩) hQ

theorem imp {R : α → Prop} (h : Safely new st x final Q)
    (hQ : ∀ a, st.Retains new (final a) → Q a → R a) :
    Safely new st x final R :=
  Ends.imp h fun a ha ↦ ⟨ha.1, ha.2.1, hQ a ha.2.1 ha.2.2⟩

/-- What happened before the program runs. -/
theorem after (h : st.Retains new s) (hx : Safely new s x final Q) : Safely new st x final Q :=
  Ends.imp hx fun _ ha ↦ ⟨ha.1, h.trans ha.2.1, ha.2.2⟩

theorem bind {f : α → Except Fault β} {final' : β → Instance} {R : β → Prop}
    (hx : Safely new st x final Q)
    (hf : ∀ a, (final a).Sound → st.Retains new (final a) → Q a →
      Safely new (final a) (f a) final' R) : Safely new st (x >>= f) final' R :=
  Ends.bind hx fun a ha ↦ (hf a ha.1 ha.2.1 ha.2.2).after ha.2.1

/-- A lookup. -/
theorem look {f : α → Except Fault β} {final' : β → Instance} {R : β → Prop}
    (hx : Ends x Q fun _ ↦ False) (hf : ∀ a, Q a → Safely new st (f a) final' R) :
    Safely new st (x >>= f) final' R :=
  Ends.bind hx hf

theorem map {g : α → β} {final' : β → Instance} {R : β → Prop}
    (hx : Safely new st x (fun a ↦ final' (g a)) fun a ↦ R (g a)) :
    Safely new st (g <$> x) final' R :=
  Ends.map hx

/-- A loop. -/
theorem foldlM {γ : Type} {f : α → γ → Except Fault α} {l : List γ}
    (hf : ∀ b ∈ l, ∀ a, (final a).Sound → st.Retains new (final a) → Q a →
      Safely new (final a) (f a b) final Q) {a : α} (hst : st.Sound)
        (ha : final a = st) (hQ : Q a) :
    Safely new st (l.foldlM f a) final Q :=
  Ends.foldlM (I := fun a ↦ (final a).Sound ∧ st.Retains new (final a) ∧ Q a)
    (fun b hb a ha ↦ (hf b hb a ha.1 ha.2.1 ha.2.2).after ha.2.1)
    (by rw [ha]; exact ⟨hst, .refl new st, hQ⟩)

/-- The client behind a pointer of the map. -/
theorem client (hst : st.Sound) {guid : Guid} (hguid : guid ∈ st.clients) {fault : Fault}
    {f : ClientData → Except Fault β} {final' : β → Instance} {R : β → Prop}
    (hf : ∀ d, st.Behind guid d → (∀ uid, d.subscriptions.lookup uid ≠ some none) →
      Safely new st (f d) final' R) : Safely new st (st.client guid fault >>= f) final' R := by
  obtain ⟨d, hd, hsubs⟩ := hst.exists_behind hguid
  rw [hd.client]
  exact hf d hd hsubs

/-- A search among subscriptions without null pointers. -/
theorem isSubscribed (new : Str → Prop) (final' : β → Instance) {env : Env}
    {subscriptions : AList fun _ : Int32 ↦ Option Subscription}
    (hsubs : ∀ uid, subscriptions.lookup uid ≠ some none) {requireNotTopicsOnly : Bool}
    {f : Option Subscription → Except Fault β} {R : β → Prop}
    (hf : ∀ sub : Option Subscription, (sub.isSome ↔
      ∃ uid s, subscriptions.lookup uid = some (some s) ∧ s.covers name requireNotTopicsOnly) →
      Safely new st (f sub) final' R) :
    Safely new st (NetworkTables.isSubscribed env subscriptions name requireNotTopicsOnly >>= f)
      final' R := by
  refine look (Q := fun sub ↦ sub.isSome ↔
    ∃ uid s, subscriptions.lookup uid = some (some s) ∧ s.covers name requireNotTopicsOnly) ?_ hf
  refine (isSubscribed_ends env subscriptions name requireNotTopicsOnly).mono (fun sub h ↦ ?_)
    fun _ he ↦ absurd he.2.choose_spec (hsubs _)
  cases sub with
  | none =>
    refine iff_of_false (fun hsome ↦ Bool.noConfusion hsome) ?_
    rintro ⟨uid, s, huid, hcovers⟩
    exact h.2 rfl uid s huid hcovers
  | some s =>
    obtain ⟨⟨uid, huid⟩, hcovers⟩ := h.1 s rfl
    exact iff_of_true rfl ⟨uid, s, huid, hcovers⟩

end Safely

/-! ### Announcements -/

section Announcing

variable {env : Env} {t : TopicAt name}

/-- A topic that is numbered has not got a value yet. -/
theorem ClientData.fresh_assignId {d : ClientData} {name name' : Str} {data : ClientTopicData}
    (h : (d.assignId name).topicData.lookup name' = some data) :
    d.topicData.lookup name' = some data ∨ data.initialPublish = false := by
  by_cases hname : name ∈ d.topicData
  · rw [assignId_of_mem hname] at h
    exact .inl h
  · rw [assignId_of_not_mem hname, AList.lookup_insert_ite] at h
    split at h
    · obtain rfl := Option.some.inj h
      exact .inr rfl
    · exact .inl h

/-- What the announcement of a topic to the local client does. -/
structure TellsSelf (env : Env) (st : Instance) (name : Str) (s : Instance) : Prop where
  topics : s.topics = st.topics
  topicData : ∀ name' ∈ s.thisClient.topicData, name' ∈ st.thisClient.topicData ∨ name' = name
  calls : ∃ events, s.thisClient.history = st.thisClient.history ++ events ∧
    ∀ e ∈ events, ∃ t, e = .announcedCallback t
  heard : env.topicAnnouncedCallback.isSome → st.Heard s name

/-- The local client is given an id and its callback is called. -/
theorem announceTopicSelf_sound (hst : st.Sound) (ht : st.topics.lookup name = some (some t))
    (hmay : st.MayHear new name) :
    ((announceTopicSelf env st t.1).1.Sound ∧ st.Retains new (announceTopicSelf env st t.1).1) ∧
      TellsSelf env st name (announceTopicSelf env st t.1).1 := by
  have hnumbered (name' : Str) (hname' : name' ∈ (st.thisClient.assignId t.1.name).topicData) :
      name' ∈ st.thisClient.topicData ∨ name' = name := by
    rw [← t.2]
    exact ClientData.mem_assignId.1 hname'
  have hnames (name' : Str) (hname' : name' ∈ (st.thisClient.assignId t.1.name).topicData) :
      name' ∈ st.thisClient.topicData ∨ name' ∈ st.topics :=
    (hnumbered name' hname').imp_right fun h ↦ by
      rw [h]
      exact AList.mem_of_lookup ht
  have hhistory : (st.thisClient.announceTopicSelfSync t.1).1.history = st.thisClient.history :=
    st.thisClient.history_assignId _
  obtain ⟨data, hdata, hid⟩ := st.thisClient.exists_lookup_assignId t.1.name
  rw [announceTopicSelf]
  cases hcallback : env.topicAnnouncedCallback with
  | none =>
    have hsame := hhistory.trans (List.append_nil _).symm
    exact ⟨hst.setSelf (st.thisClient.toClientInfo_assignId _) hnames
      (fun _ _ ↦ ClientData.lookup_assignId) (fun _ _ ↦ ClientData.fresh_assignId)
      ⟨[], hsame, fun _ hmem ↦ absurd hmem List.not_mem_nil⟩,
      ⟨rfl, hnumbered, ⟨[], hsame, List.forall_mem_nil _⟩, fun h ↦ by
        rw [hcallback] at h
        exact Bool.noConfusion h⟩⟩
  | some callback =>
    let a : AnnouncedTopic := (st.thisClient.announceTopicSelfSync t.1).2
    have hcalled := congrArg (· ++ [ClientEvent.announcedCallback a]) hhistory
    refine ⟨hst.setSelf (st.thisClient.toClientInfo_assignId _) hnames
      (fun _ _ ↦ ClientData.lookup_assignId) (fun _ _ ↦ ClientData.fresh_assignId)
      ⟨[.announcedCallback a], hcalled, fun a' ha' ↦ ?_⟩,
      ⟨rfl, hnumbered, ⟨[.announcedCallback a], hcalled, fun e he ↦ ⟨a, List.mem_singleton.1 he⟩⟩,
        fun _ ↦ ⟨[.announcedCallback a], a, hcalled, List.mem_singleton_self _, t.2⟩⟩⟩
    obtain rfl := ClientEvent.announcedCallback.inj (List.mem_singleton.1 ha')
    refine ⟨⟨data, hdata, hid⟩, ?_⟩
    show st.MayHear new t.1.name
    rwa [t.2]

/-- The callback for announcements, if there is one, always answers `true`. -/
def Env.Agrees (env : Env) : Prop :=
  ∀ callback, env.topicAnnouncedCallback = some callback → ∀ st t, callback st t = true

/-- What an announcement does beside keeping things; `visited` is whether the local client has been
visited. -/
structure Announces (env : Env) (name : Str) (st : Instance) (visited : Prop)
    (r : Instance × Bool) : Prop where
  topics : r.1.topics = st.topics
  silent : ¬st.Listens name → r.1.thisClient.topicData = st.thisClient.topicData
  agrees : env.Agrees → r.2 = true
  hears : visited → st.Listens name → env.topicAnnouncedCallback.isSome → st.Heard r.1 name

/-- One client is told of the topic, after others. -/
theorem announceTopicBody_safely {visited : Prop} {r : Instance × Bool} {guid : Guid}
    (hr : r.1.Sound) (hkeeps : st.Retains new r.1) (hann : Announces env name st visited r)
    (ht : st.topics.lookup name = some (some t)) (hnew : new name) (hguid : guid ∈ r.1.clients) :
    Safely new r.1 (announceTopicBody env t.1 r guid) Prod.fst
      (Announces env name st (visited ∨ st.clients.lookup guid = some .self)) := by
  have ht : r.1.topics.lookup name = some (some t) := by rwa [hann.topics]
  rw [announceTopicBody]
  refine .client hr hguid fun d hd hsubs ↦ .isSubscribed _ _ hsubs fun sub hsub ↦ ?_
  -- an answer that does not visit the local client is the answer so far
  have hothers {s : Instance} (hs : r.1.Retains new s) (htopics : s.topics = r.1.topics)
      (hthis : s.thisClient = r.1.thisClient)
      (hself : st.clients.lookup guid = some .self → ¬st.Listens name) :
      Announces env name st (visited ∨ st.clients.lookup guid = some .self) (s, r.2) := by
    refine ⟨htopics.trans hann.topics, fun hsilent ↦ ?_, hann.agrees,
      fun hvisited hsubscribed hcallback ↦ ?_⟩
    · show s.thisClient.topicData = _
      rw [hthis, hann.silent hsilent]
    · have hvisited := hvisited.resolve_right fun h ↦ hself h hsubscribed
      exact (hann.hears hvisited hsubscribed hcallback).after hs
  have hthis (hself : r.1.clients.lookup guid = some .self) : d = r.1.thisClient := by
    rcases hd with ⟨-, hd⟩ | hd
    · exact hd
    · rw [hself] at hd
      cases hd
  -- the search in the subscriptions of the local client tells whether it listens
  have hlistens (hself : r.1.clients.lookup guid = some .self) : sub.isSome ↔ st.Listens name := by
    rw [hsub, ← hkeeps.listens, hthis hself, Instance.Listens]
    simp only [Subscription.covers, t.2, Bool.not_false, Bool.true_or, Bool.true_and]
  split
  · next hnone =>
    refine .same hr rfl (hothers (.refl new _) rfl rfl fun hself hsubscribed ↦ ?_)
    have hsome := (hlistens ((hkeeps.self guid).2 hself)).2 hsubscribed
    rw [Option.isNone_iff_eq_none.1 hnone] at hsome
    exact Bool.noConfusion hsome
  · next hsome =>
    split
    · -- the local client
      next hself =>
      have hself : r.1.clients.lookup guid = some .self := by
        rwa [Instance.isSelf, decide_eq_true_iff] at hself
      have hsubscribed : st.Listens name :=
        (hlistens hself).1 (Option.isSome_iff_ne_none.2 (by simpa using hsome))
      obtain ⟨hsound, htells⟩ := @announceTopicSelf_sound new _ _ env _ hr ht
        ⟨hkeeps.listens.2 hsubscribed, .inl hnew⟩
      refine .ok hsound ⟨htells.topics.trans hann.topics,
        fun hsilent ↦ absurd hsubscribed hsilent, fun hagrees ↦ ?_,
        fun _ _ hcallback ↦ (htells.heard hcallback).before hkeeps⟩
      have hself : (announceTopicSelf env r.1 t.1).2 = true :=
        announceTopicSelf_accepted fun callback hcallback st a _ ↦ hagrees callback hcallback st a
      show (r.2 && (announceTopicSelf env r.1 t.1).2) = true
      rw [hself, hann.agrees hagrees]
      rfl
    · next hself =>
      have hremote : r.1.clients.lookup guid = some (.remote d) := by
        rcases hd with ⟨hd, -⟩ | hd
        · exact absurd (by rw [Instance.isSelf, hd]; rfl) hself
        · exact hd
      have htold :=
        @Instance.Sound.setRemote new _ hr _ _ _ hremote (d.toClientInfo_announceTopic t.1)
      refine .ok htold (hothers htold.2 (r.1.topics_setClient guid _) ?_ fun hself ↦ ?_)
      · rw [Instance.setClient_of_remote hremote]
      · rw [(hkeeps.self guid).2 hself] at hremote
        cases hremote

/-- The loop over the clients, whatever its body tells each of them. -/
theorem announceLoop_safely {body : Instance × Bool → Guid → Except Fault (Instance × Bool)}
    (hst : st.Sound)
    (hbody : ∀ visited r guid, r.1.Sound → st.Retains new r.1 → Announces env name st visited r →
      guid ∈ r.1.clients → Safely new r.1 (body r guid) Prod.fst
        (Announces env name st (visited ∨ st.clients.lookup guid = some .self))) :
    Safely new st ((env.guids.keys st.clients).foldlM body (st, true)) Prod.fst
      (Announces env name st (∃ guid, st.clients.lookup guid = some .self)) := by
  refine (Ends.foldlM_visited (I := fun done r ↦ r.1.Sound ∧ st.Retains new r.1 ∧
      Announces env name st (∃ guid ∈ done, st.clients.lookup guid = some .self) r)
    (E := fun _ ↦ False) (fun done guid rest hl r hr ↦ ?_) ?_).imp fun r hr ↦ ⟨hr.1, hr.2.1, ?_⟩
  · obtain ⟨hsound, hkeeps, hann⟩ := hr
    have hguid : guid ∈ st.clients := by
      rw [← env.guids.mem_keys, hl]
      exact List.mem_append.2 (.inr List.mem_cons_self)
    refine Ends.imp (hbody _ r guid hsound hkeeps hann (hkeeps.mem guid hguid))
      fun r' hr' ↦ ⟨hr'.1, hkeeps.trans hr'.2.1, hr'.2.2.topics, hr'.2.2.silent,
        hr'.2.2.agrees, ?_⟩
    rintro ⟨guid', hmem, hself⟩
    refine hr'.2.2.hears ?_
    rcases List.mem_append.1 hmem with hmem | hmem
    · exact .inl ⟨guid', hmem, hself⟩
    · rw [List.mem_singleton.1 hmem] at hself
      exact .inr hself
  · refine ⟨hst, .refl new st, rfl, fun _ ↦ rfl, fun _ ↦ rfl, ?_⟩
    rintro ⟨guid, hmem, -⟩
    exact absurd hmem List.not_mem_nil
  · refine ⟨hr.2.2.topics, hr.2.2.silent, hr.2.2.agrees, ?_⟩
    rintro ⟨guid, hself⟩
    exact hr.2.2.hears ⟨guid, env.guids.mem_keys.2 (AList.mem_of_lookup hself), hself⟩

/-- The announcement visits everybody, the local client among them if a pointer leads to it. -/
theorem announceTopic_safely (hst : st.Sound) (ht : st.topics.lookup name = some (some t))
    (hnew : new name) :
    Safely new st (announceTopic env st t.1) Prod.fst
      (Announces env name st (∃ guid, st.clients.lookup guid = some .self)) :=
  announceLoop_safely hst fun _ _ _ hr hkeeps hann hguid ↦
    announceTopicBody_safely hr hkeeps hann ht hnew hguid

/-- A publisher with a connection is told whether it subscribes or not. -/
theorem announceTopicToPublisher_safely {publisherGuid : Guid} {pubuid : Int32} (hst : st.Sound)
    (ht : st.topics.lookup name = some (some t)) (hnew : new name)
    (hremote : st.clients.lookup publisherGuid ≠ some .self) :
    Safely new st (announceTopicToPublisher env publisherGuid pubuid st t.1) Prod.fst
      (Announces env name st (∃ guid, st.clients.lookup guid = some .self)) := by
  refine announceLoop_safely hst fun visited r guid hr hkeeps hann hguid ↦ ?_
  rw [announceTopicToPublisherBody]
  split
  · next heq =>
    have hself : st.clients.lookup guid ≠ some .self := by rwa [heq]
    refine .client hr hguid fun d hd _ ↦ ?_
    have hd : r.1.clients.lookup guid = some (.remote d) :=
      hd.elim (fun hd ↦ absurd ((hkeeps.self guid).1 hd.1) hself) id
    have htold := @Instance.Sound.setRemote new _ hr _ _ _ hd
      (d.toClientInfo_announceTopicToPublisher t.1 pubuid)
    refine .ok htold ⟨(r.1.topics_setClient guid _).trans hann.topics, fun hsilent ↦ ?_,
      hann.agrees, fun hvisited hsub hcallback ↦ ?_⟩
    · rw [Instance.setClient_of_remote hd]
      exact hann.silent hsilent
    · exact (hann.hears (hvisited.resolve_right hself) hsub hcallback).after htold.2
  · exact announceTopicBody_safely hr hkeeps hann ht hnew hguid

/-- What the local client is told of the cached topics, of which the names in `done` have been
visited. -/
structure TellsCached (env : Env) (st : Instance) (done : List Str) (s : Instance) : Prop where
  topics : s.topics = st.topics
  topicData : ∀ name ∈ s.thisClient.topicData, name ∈ st.thisClient.topicData ∨
    st.Listens name ∧ st.Cached name
  calls : ∃ events, s.thisClient.history = st.thisClient.history ++ events ∧
    ∀ e ∈ events, ∃ t, e = .announcedCallback t
  heard : env.topicAnnouncedCallback.isSome → ∀ name ∈ done, st.Listens name → st.Cached name →
    st.Heard s name

/-- Another topic is visited, and nothing is told. -/
theorem TellsCached.skip {done : List Str} (h : TellsCached env st done s)
    (hskip : ¬(st.Listens name ∧ st.Cached name)) : TellsCached env st (done ++ [name]) s where
  topics := h.topics
  topicData := h.topicData
  calls := h.calls
  heard hsome name' hname' hlistens hcached := by
    rcases List.mem_append.1 hname' with hname' | hname'
    · exact h.heard hsome name' hname' hlistens hcached
    · rw [List.mem_singleton.1 hname'] at hlistens hcached
      exact absurd ⟨hlistens, hcached⟩ hskip

/-- The loop over all topics. -/
theorem announceCachedTopicsSelf_safely (hst : st.Sound) :
    Safely new st (announceCachedTopicsSelf env st) id
      (TellsCached env st (env.names.keys st.topics)) := by
  refine Ends.foldlM_visited (I := fun done s ↦ s.Sound ∧ st.Retains new s ∧
      TellsCached env st done s) (E := fun _ ↦ False) (fun done name' rest _ s hs ↦ ?_)
    ⟨hst, .refl new st, rfl, fun _ ↦ .inl, ⟨[], (List.append_nil _).symm, List.forall_mem_nil _⟩,
      fun _ _ hname ↦ absurd hname List.not_mem_nil⟩
  obtain ⟨hs, hkeeps, htells⟩ := hs
  split
  · next hnone =>
    refine ⟨hs, hkeeps, htells.skip fun hcached ↦ ?_⟩
    rw [htells.topics] at hnone
    exact AList.lookup_eq_none.1 hnone hcached.2.1
  · next hnull => exact absurd hnull hs.not_null
  · next t' ht' =>
    have ht₀ : st.topics.lookup name' = some (some t') := by rwa [← htells.topics]
    split
    · next hcached =>
      have hcached : st.Cached name' := by
        refine ⟨AList.mem_of_lookup ht₀, fun t₁ ht₁ ↦ ?_⟩
        obtain rfl := Option.some.inj (Option.some.inj (ht₀.symm.trans ht₁))
        exact hcached
      refine Ends.imp (Safely.isSubscribed new id hs.subscriptions.2
        (R := TellsCached env st (done ++ [name'])) fun sub hsub ↦ ?_)
        fun s' hs' ↦ ⟨hs'.1, hkeeps.trans hs'.2.1, hs'.2.2⟩
      have hlistens : sub.isSome ↔ st.Listens name' := by
        rw [hsub, ← hkeeps.listens, Instance.Listens]
        simp only [Subscription.covers, t'.2, Bool.not_false, Bool.true_or, Bool.true_and]
      split
      · next hsome =>
        have hlistens := hlistens.1 hsome
        obtain ⟨hsound, htold⟩ := @announceTopicSelf_sound new _ _ env _ hs ht'
          ⟨hkeeps.listens.2 hlistens, .inr ⟨AList.mem_of_lookup ht', fun t₁ ht₁ ↦
            hcached.2 t₁ (by rwa [← htells.topics])⟩⟩
        refine .ok hsound ⟨htold.topics.trans htells.topics, fun name hname ↦ ?_, ?_,
          fun hsome name hname hlistens' hcached' ↦ ?_⟩
        · rcases htold.topicData name hname with hname | rfl
          · exact htells.topicData name hname
          · exact .inr ⟨hlistens, hcached⟩
        · obtain ⟨events, hevents, hall⟩ := htells.calls
          obtain ⟨events', hevents', hall'⟩ := htold.calls
          exact ⟨events ++ events', by rw [hevents', hevents, List.append_assoc], fun e he ↦
            (List.mem_append.1 he).elim (hall e) (hall' e)⟩
        · rcases List.mem_append.1 hname with hname | hname
          · exact (htells.heard hsome name hname hlistens' hcached').after hsound.2
          · rw [List.mem_singleton.1 hname]
            exact (htold.heard hsome).before hkeeps
      · next hsome => exact .same hs rfl (htells.skip fun h ↦ hsome (hlistens.2 h.1))
    · next hcached =>
      exact ⟨hs, hkeeps, htells.skip fun h ↦ hcached (h.2.2 t' ht₀)⟩

end Announcing

/-! ### Values -/

section Values

variable [FloatCodec] {env : Env} {topic : Topic} {time : UInt64}

/-- The call of the callback that tells the local client a value. -/
def Instance.updateCall (st : Instance) (topic : Topic) (time : UInt64) : ClientEvent :=
  .updateCallback (st.thisClient.topicId topic.name) time
    (NTDataValue.assign { type := topic.value.getAPIType } topic.value)

omit [FloatCodec] in
/-- The call depends on the entry of the topic alone. -/
theorem Instance.updateCall_congr (h : s.thisClient.topicData = st.thisClient.topicData) :
    s.updateCall topic time = st.updateCall topic time := by
  rw [updateCall, updateCall, ClientData.topicId, ClientData.topicId, h]

omit [FloatCodec] in
/-- A callback of the local client is called. -/
theorem Instance.Sound.call (hst : st.Sound) {e : ClientEvent}
    (he : ∀ t, e ≠ .announcedCallback t) :
    { st with thisClient := st.thisClient.record e }.Sound ∧
      st.Retains new { st with thisClient := st.thisClient.record e } :=
  hst.setSelf rfl (fun _ ↦ .inl) (fun _ _ ↦ id) (fun _ _ ↦ .inl)
    ⟨[e], rfl, fun t ht ↦ absurd (List.mem_singleton.1 ht).symm (he t)⟩

/-- The calls that tell the local client a value, and nothing else. -/
structure Sends (env : Env) (topic : Topic) (time : UInt64) (st : Instance) (visited : Prop)
    (s : Instance) : Prop where
  topics : s.topics = st.topics
  topicData : s.thisClient.topicData = st.thisClient.topicData
  calls : ∃ events, s.thisClient.history = st.thisClient.history ++ events ∧
    (∀ e ∈ events, st.thisClient.Receives topic.name ∧ e = st.updateCall topic time) ∧
    (visited → st.thisClient.Receives topic.name → env.topicUpdateCallback.isSome → events ≠ [])

omit [FloatCodec] in
/-- Who receives a value depends on the entry and on the subscriptions. -/
theorem ClientData.receives_congr {d d' : ClientData} (hdata : d'.topicData = d.topicData)
    (hsubs : d'.subscriptions = d.subscriptions) : d'.Receives name ↔ d.Receives name := by
  rw [Receives, Receives, hdata, hsubs]

omit [FloatCodec] in
/-- The local client is told a value. -/
theorem sendTopicUpdateSelf_safely (hst : st.Sound) (hreceives : st.thisClient.Receives topic.name)
    (hvalid : topic.value.isValid) :
    Safely new st (sendTopicUpdateSelf env st topic time) Prod.fst fun r ↦
      Sends env topic time st True r.1 ∧ (env.Accepts → r.2 = true) := by
  rw [sendTopicUpdateSelf]
  cases hcallback : env.topicUpdateCallback with
  | none =>
    refine .same hst rfl
      ⟨⟨rfl, rfl, [], (List.append_nil _).symm, List.forall_mem_nil _, ?_⟩, fun _ ↦ rfl⟩
    intro _ _ hsome
    rw [hcallback] at hsome
    exact Bool.noConfusion hsome
  | some callback =>
    simp only [AList.subscript_of_mem hreceives.mem, if_pos hvalid]
    have hcall : ∀ t, st.updateCall topic time ≠ .announcedCallback t :=
      fun _ h ↦ ClientEvent.noConfusion h
    exact .ok (hst.call hcall) ⟨⟨rfl, rfl, [st.updateCall topic time], rfl,
      fun e he ↦ ⟨hreceives, List.mem_singleton.1 he⟩, fun _ _ _ h ↦ List.cons_ne_nil _ _ h⟩,
      fun haccepts ↦ haccepts callback hcallback _ _ _ _⟩

omit [FloatCodec] in
/-- A client that is to get the value gets it, and no other one. -/
theorem receivesUpdate_ends {d : ClientData} (hsubs : ∀ uid, d.subscriptions.lookup uid ≠ some none)
    {data : ClientTopicData} (hdata : d.topicData.lookup name = some data) :
    Ends (receivesUpdate env d name data) (fun send ↦ send = true ↔ d.Receives name)
      fun _ ↦ False := by
  rw [receivesUpdate]
  split
  · next hinitial => exact iff_of_true rfl ⟨data, hdata, .inl hinitial⟩
  · next hinitial =>
    refine .map ((isSubscribed_ends env d.subscriptions name true).mono
      (fun sub hsub ↦ ⟨fun hsome ↦ ?_, ?_⟩) fun _ he ↦ absurd he.2.choose_spec (hsubs _))
    · obtain ⟨sub', rfl⟩ := Option.isSome_iff_exists.1 hsome
      obtain ⟨⟨uid, huid⟩, hcovers⟩ := hsub.1 sub' rfl
      exact ⟨data, hdata, .inr ⟨uid, sub', huid, hcovers⟩⟩
    · rintro ⟨data', hdata', hinitial' | ⟨uid, sub', huid, hcovers⟩⟩
      · rw [hdata] at hdata'
        obtain rfl := Option.some.inj hdata'
        exact absurd hinitial' hinitial
      · refine Option.isSome_iff_ne_none.2 fun hnone ↦ ?_
        exact hsub.2 hnone uid sub' huid hcovers

/-- One client is sent the value, after others. -/
theorem sendTopicUpdateBody_safely {visited : Prop} {guid : Guid} (hs : s.Sound)
    (hkeeps : st.Retains new s) (hsends : Sends env topic time st visited s)
    (hvalid : topic.value.isValid) (hguid : guid ∈ s.clients) :
    Safely new s (sendTopicUpdateBody env topic time s guid) Prod.fst fun r ↦
      Sends env topic time st (visited ∨ st.clients.lookup guid = some .self) r.1 ∧
        (env.Accepts → r.2 = true) := by
  obtain ⟨htopics, hdata₀, events, hevents, hall, hvisited⟩ := hsends
  rw [sendTopicUpdateBody]
  refine .client hs hguid fun d hd hsubs ↦ ?_
  -- the value has not gone to the local client
  have hothers {s' : Instance} (hs' : s'.thisClient = s.thisClient)
    (htopics' : s'.topics = s.topics)
      (hself : st.clients.lookup guid = some .self → ¬st.thisClient.Receives topic.name) :
      Sends env topic time st (visited ∨ st.clients.lookup guid = some .self) s' := by
    refine ⟨htopics'.trans htopics, by rw [hs', hdata₀], events, by rw [hs', hevents], hall,
      fun hv hreceives hsome ↦ ?_⟩
    exact hvisited (hv.resolve_right fun h ↦ hself h hreceives) hreceives hsome
  have hthis (hself : st.clients.lookup guid = some .self) : d = s.thisClient := by
    have hself := (hkeeps.self guid).2 hself
    rcases hd with ⟨-, hd⟩ | hd
    · exact hd
    · rw [hself] at hd
      cases hd
  have hreceives (hself : st.clients.lookup guid = some .self)
      (h : st.thisClient.Receives topic.name) : d.Receives topic.name := by
    obtain ⟨data, hdata, h⟩ := h
    rw [hthis hself]
    refine ⟨data, hkeeps.ids _ _ hdata, h.imp_right ?_⟩
    rw [congrArg ClientInfo.subscriptions hkeeps.info]
    exact id
  split
  · next hnone =>
    refine .same hs rfl ⟨hothers rfl rfl fun hself h ↦ ?_, fun _ ↦ rfl⟩
    obtain ⟨data, hdata, -⟩ := hreceives hself h
    rw [hnone] at hdata
    cases hdata
  · next data hdata =>
    refine .look (receivesUpdate_ends hsubs hdata) fun send hsend ↦ ?_
    split
    · split
      · next hself =>
        -- the local client
        have hself : s.clients.lookup guid = some .self := by
          rwa [Instance.isSelf, decide_eq_true_iff] at hself
        have hd := hthis ((hkeeps.self guid).1 hself)
        have hreceives₁ : s.thisClient.Receives topic.name := by
          rw [← hd]
          exact hsend.1 ‹_›
        refine (sendTopicUpdateSelf_safely hs hreceives₁ hvalid).imp
          fun r _ hr ↦ ⟨⟨hr.1.topics.trans htopics, hr.1.topicData.trans hdata₀, ?_⟩, hr.2⟩
        obtain ⟨events', hevents', hall', hvisited'⟩ := hr.1.calls
        refine ⟨events ++ events', ?_, fun e he ↦ ?_, fun _ h hsome hnil ↦ ?_⟩
        · rw [hevents', hevents, List.append_assoc]
        · rcases List.mem_append.1 he with he | he
          · exact hall e he
          · refine ⟨?_, (hall' e he).2.trans (Instance.updateCall_congr hdata₀)⟩
            exact (ClientData.receives_congr hdata₀
              (congrArg ClientInfo.subscriptions hkeeps.info)).1 hreceives₁
        · rw [List.append_eq_nil_iff] at hnil
          refine hvisited' trivial ?_ hsome hnil.2
          rw [← hd]
          exact hreceives ((hkeeps.self guid).1 hself) h
      · next hself =>
        have hremote : s.clients.lookup guid = some (.remote d) := by
          rcases hd with ⟨hd, -⟩ | hd
          · exact absurd (by rw [Instance.isSelf, hd]; rfl) hself
          · exact hd
        have htold := @Instance.Sound.setRemote new _ hs _ _ _ hremote
          (d.toClientInfo_sendTopicUpdate topic time)
        refine .ok htold ⟨hothers ?_ (s.topics_setClient guid _) fun h ↦ ?_, fun _ ↦ rfl⟩
        · rw [Instance.setClient_of_remote hremote]
        · rw [(hkeeps.self guid).2 h] at hremote
          cases hremote
    · next hstop =>
      exact .same hs rfl ⟨hothers rfl rfl fun hself h ↦ hstop (hsend.2 (hreceives hself h)),
        fun _ ↦ rfl⟩

/-- The value is sent to the local client unless the broadcast stops before it. -/
theorem sendTopicUpdate_safely (hst : st.Sound) (hvalid : topic.value.isValid) :
    Safely new st (sendTopicUpdate env st topic time) Prod.fst fun r ↦
      Sends env topic time st (env.Accepts ∧ ∃ guid, st.clients.lookup guid = some .self) r.1 := by
  refine (Ends.foldUntil_visited (I := fun done s ↦ s.Sound ∧ st.Retains new s ∧
      Sends env topic time st (∃ guid ∈ done, st.clients.lookup guid = some .self) s)
    (A := env.Accepts) (E := fun _ ↦ False) (fun done guid rest hl s hs ↦ ?_) ?_).imp ?_
  · obtain ⟨hsound, hkeeps, hsends⟩ := hs
    have hguid : guid ∈ st.clients := by
      rw [← env.guids.mem_keys, hl]
      exact List.mem_append.2 (.inr List.mem_cons_self)
    refine Ends.imp (sendTopicUpdateBody_safely hsound hkeeps hsends hvalid (hkeeps.mem guid hguid))
      fun r hr ↦ ⟨⟨hr.1, hkeeps.trans hr.2.1, hr.2.2.1.topics, hr.2.2.1.topicData, ?_⟩, hr.2.2.2⟩
    obtain ⟨events, hevents, hall, hvisited⟩ := hr.2.2.1.calls
    refine ⟨events, hevents, hall, ?_⟩
    rintro ⟨guid', hmem, hself⟩
    refine hvisited ?_
    rcases List.mem_append.1 hmem with hmem | hmem
    · exact .inl ⟨guid', hmem, hself⟩
    · rw [List.mem_singleton.1 hmem] at hself
      exact .inr hself
  · refine ⟨hst, .refl new st, rfl, rfl, [], (List.append_nil _).symm, List.forall_mem_nil _, ?_⟩
    rintro ⟨guid, hmem, -⟩
    exact absurd hmem List.not_mem_nil
  · rintro r ⟨⟨done, ⟨hsound, hkeeps, hsends⟩, hdone⟩, htrue⟩
    obtain ⟨events, hevents, hall, hvisited⟩ := hsends.calls
    refine ⟨hsound, hkeeps, hsends.topics, hsends.topicData, events, hevents, hall, ?_⟩
    rintro ⟨haccepts, guid, hself⟩
    rw [hdone (htrue haccepts)] at hvisited
    exact hvisited ⟨guid, env.guids.mem_keys.2 (AList.mem_of_lookup hself), hself⟩

/-- What the local client is told of the values, when the names in `done` have been visited. -/
structure TellsValues (env : Env) (st : Instance) (done : List Str) (s : Instance) : Prop where
  topics : s.topics = st.topics
  topicData : s.thisClient.topicData = st.thisClient.topicData
  calls : ∃ events, s.thisClient.history = st.thisClient.history ++ events ∧
    (∀ e ∈ events, ∃ name, st.thisClient.Receives name ∧ ∃ (t : TopicAt name) (time : UInt64),
      st.topics.lookup name = some (some t) ∧ e = st.updateCall t.1 time) ∧
    (env.topicUpdateCallback.isSome → ∀ name ∈ done, ∀ data,
      st.thisClient.topicData.lookup name = some data → data.initialPublish = false →
      (∃ uid sub, st.thisClient.subscriptions.lookup uid = some (some sub) ∧
        sub.covers name true) →
      ∀ t : TopicAt name, st.topics.lookup name = some (some t) →
        ∃ time, st.updateCall t.1 time ∈ events)

omit [FloatCodec] in
/-- Another topic is visited, and nothing is told. -/
theorem TellsValues.skip {done : List Str} (h : TellsValues env st done s)
    (hskip : ∀ data, st.thisClient.topicData.lookup name = some data →
      data.initialPublish = false → ¬∃ uid sub,
        st.thisClient.subscriptions.lookup uid = some (some sub) ∧ sub.covers name true) :
    TellsValues env st (done ++ [name]) s := by
  obtain ⟨htopics, hdata, events, hevents, hall, hvisited⟩ := h
  refine ⟨htopics, hdata, events, hevents, hall, fun hsome name' hname' data hdata' ↦ ?_⟩
  rcases List.mem_append.1 hname' with hname' | hname'
  · exact hvisited hsome name' hname' data hdata'
  · obtain rfl := List.mem_singleton.1 hname'
    exact fun hinitial hcovers ↦ absurd hcovers (hskip data hdata' hinitial)

omit [FloatCodec] in
/-- The loop over the topics that the local client knows. -/
theorem publishInitialValuesSelf_safely (hst : st.Sound) :
    Safely new st (publishInitialValuesSelf env st) id
      (TellsValues env st (env.names.keys st.thisClient.topicData)) := by
  refine Ends.foldlM_visited (I := fun done s ↦ s.Sound ∧ st.Retains new s ∧
      TellsValues env st done s) (E := fun _ ↦ False) (fun done name' rest _ s hs ↦ ?_)
    ⟨hst, .refl new st, rfl, rfl, [], (List.append_nil _).symm, List.forall_mem_nil _,
      fun _ _ hname ↦ absurd hname List.not_mem_nil⟩
  obtain ⟨hs, hkeeps, htells⟩ := hs
  split
  · next hnone =>
    refine ⟨hs, hkeeps, htells.skip fun data hdata ↦ ?_⟩
    rw [htells.topicData, hdata] at hnone
    cases hnone
  · next data hdata =>
    have hname := AList.mem_of_lookup hdata
    have hdata₀ : st.thisClient.topicData.lookup name' = some data := by
      rwa [← htells.topicData]
    split
    · next hinitial =>
      refine ⟨hs, hkeeps, htells.skip fun data' hdata' hinitial' ↦ ?_⟩
      obtain rfl := Option.some.inj (hdata₀.symm.trans hdata')
      rw [hinitial] at hinitial'
      exact Bool.noConfusion hinitial'
    · refine Ends.imp (Safely.isSubscribed new id hs.subscriptions.2
        (R := TellsValues env st (done ++ [name'])) fun sub hsub ↦ ?_)
        fun s' hs' ↦ ⟨hs'.1, hkeeps.trans hs'.2.1, hs'.2.2⟩
      rw [congrArg ClientInfo.subscriptions hkeeps.info] at hsub
      split
      · next hnone =>
        refine .same hs rfl (htells.skip fun _ _ _ hcovers ↦ ?_)
        have hsome := hsub.2 hcovers
        rw [Option.isNone_iff_eq_none.1 hnone] at hsome
        exact Bool.noConfusion hsome
      · next hsome =>
        obtain ⟨t, ht, hvalid⟩ := hs.hasTopic (hs.announced name' hname)
        have ht₀ : st.topics.lookup name' = some (some t) := by rwa [← htells.topics]
        have hreceives : s.thisClient.Receives t.1.name := by
          rw [t.2]
          refine ⟨data, hdata, .inr ?_⟩
          rw [congrArg ClientInfo.subscriptions hkeeps.info]
          exact hsub.1 (Option.isSome_iff_ne_none.2 (by simpa using hsome))
        rw [ht]
        refine .map ((sendTopicUpdateSelf_safely hs hreceives hvalid).imp fun r _ hr ↦ ?_)
        obtain ⟨events, hevents, hall, hvisited⟩ := htells.calls
        obtain ⟨events', hevents', hall', hvisited'⟩ := hr.1.calls
        refine ⟨hr.1.topics.trans htells.topics, hr.1.topicData.trans htells.topicData,
          events ++ events', by rw [hevents', hevents, List.append_assoc], fun e he ↦ ?_, ?_⟩
        · rcases List.mem_append.1 he with he | he
          · exact hall e he
          · refine ⟨name', ?_, t, getServerTime env s, ht₀,
              (hall' e he).2.trans (Instance.updateCall_congr htells.topicData)⟩
            rw [t.2] at hreceives
            exact (ClientData.receives_congr htells.topicData
              (congrArg ClientInfo.subscriptions hkeeps.info)).1 hreceives
        · intro hsome name hname data' hdata' hinitial' hcovers t' ht'
          rcases List.mem_append.1 hname with hname | hname
          · obtain ⟨time, hmem⟩ := hvisited hsome name hname data' hdata' hinitial' hcovers t' ht'
            exact ⟨time, List.mem_append.2 (.inl hmem)⟩
          · obtain rfl := List.mem_singleton.1 hname
            obtain rfl := Option.some.inj (Option.some.inj (ht₀.symm.trans ht'))
            obtain ⟨e, he⟩ := List.exists_mem_of_ne_nil _ (hvisited' trivial hreceives hsome)
            refine ⟨getServerTime env s, List.mem_append.2 (.inr ?_)⟩
            rw [← Instance.updateCall_congr htells.topicData, ← (hall' e he).2]
            exact he

/-! ### Meta topics -/

/-- A meta topic has got a value, and the local client is told of no other one. -/
structure Stores (name : Str) (st s : Instance) : Prop where
  topics : ∀ name' ≠ name, s.topics.lookup name' = st.topics.lookup name'
  topicData : s.thisClient.topicData = st.thisClient.topicData
  calls : ∃ events, s.thisClient.history = st.thisClient.history ++ events ∧
    ∀ e ∈ events, st.thisClient.Receives name ∧
      ∃ time value, e = .updateCallback (st.thisClient.topicId name) time value

/-- A meta topic that is there gets its packed value, and it is broadcast. -/
theorem storeMetaTopic_safely (hst : st.Sound) (hname : st.HasTopic name) {packed : Bytes} :
    Safely new st (storeMetaTopic env st name packed) id (Stores name st) := by
  obtain ⟨t, ht⟩ := hname
  rw [storeMetaTopic, ht]
  have hvalid : (t.setValue { t.1.value with bin := packed }).1.value.isValid := by
    have hvalid := hst.valid ht
    exact hvalid
  have hset :=
    @Instance.Sound.setTopic new _ _ hst _ hvalid (.inl (AList.mem_of_lookup ht)) fun t₀ ht₀ ↦ by
    rw [ht] at ht₀
    obtain rfl := Option.some.inj (Option.some.inj ht₀)
    exact ⟨rfl, rfl⟩
  refine .after hset.2 (.map ((sendTopicUpdate_safely hset.1 hvalid).imp fun r _ hr ↦ ?_))
  obtain ⟨events, hevents, hall, -⟩ := hr.calls
  refine ⟨fun name' hne ↦ ?_, hr.topicData, events, hevents, fun e he ↦ ?_⟩
  · show r.1.topics.lookup name' = _
    rw [hr.topics, Instance.topics_setTopic, AList.lookup_insert_ne hne]
  · obtain ⟨hreceives, heq⟩ := hall e he
    refine ⟨by rw [← t.2]; exact hreceives, _, _, heq.trans (congrArg (fun name ↦
      ClientEvent.updateCallback (st.thisClient.topicId name) _ _) t.2)⟩

omit [FloatCodec] in
/-- Packing follows every pointer of the map, and none is null. -/
theorem packAll_safely {α : Type} (pack : α → Bytes) {m : AList fun _ : Int32 ↦ Option α}
    (hm : ∀ uid, m.lookup uid ≠ some none) :
    Ends (packAll env pack m) (fun _ ↦ True) fun _ ↦ False :=
  (packAll_ends pack m).mono (fun _ ↦ id) fun _ he ↦ absurd he.2.choose_spec (hm _)

/-- The record of the subscriptions of the local client. -/
theorem updateServerSubMetaTopic_safely (hst : st.Sound) :
    Safely new st (updateServerSubMetaTopic env st) id (Stores serverSubName st) :=
  .look (packAll_safely _ hst.subscriptions.2) fun _ _ ↦ storeMetaTopic_safely hst hst.records.1

/-- This one packs the publishers of the local client. -/
theorem updateServerPubMetaTopic_safely (hst : st.Sound)
    (hpubs : ∀ uid, st.thisClient.publishers.lookup uid ≠ some none) :
    Safely new st (updateServerPubMetaTopic env st) id (Stores serverPubName st) :=
  .look (packAll_safely _ hpubs) fun _ _ ↦ storeMetaTopic_safely hst hst.records.2

omit [FloatCodec] in
/-- The loop that collects the subscribers. -/
theorem topicSubscriptions_safely (hst : st.Sound) :
    Ends (topicSubscriptions env st name) (fun _ ↦ True) fun _ ↦ False := by
  refine Ends.foldlM (I := fun _ ↦ True) (fun guid hguid subs _ ↦ ?_) trivial
  split
  · trivial
  · obtain ⟨d, hd, hsubs⟩ := hst.exists_behind (env.guids.mem_keys.1 hguid)
    rw [hd.client, ok_bind]
    refine Ends.bind ((isSubscribed_ends env d.subscriptions name false).mono (fun _ _ ↦ trivial)
      fun _ he ↦ absurd he.2.choose_spec (hsubs _)) fun sub (_ : True) ↦ ?_
    cases sub <;> trivial

omit [FloatCodec] in
/-- The loop that collects the publishers. -/
theorem topicPublishers_safely (hst : st.Sound) :
    Ends (topicPublishers env st name) (fun _ ↦ True) fun _ ↦ False := by
  refine Ends.foldlM (I := fun _ ↦ True) (fun guid hguid pubs _ ↦ ?_) trivial
  split
  · trivial
  · next hself =>
    obtain ⟨d, hd, -⟩ := hst.exists_behind (env.guids.mem_keys.1 hguid)
    have hremote : st.clients.lookup guid = some (.remote d) := by
      rcases hd with ⟨hd, -⟩ | hd
      · exact absurd (by rw [Instance.isSelf, hd]; rfl) hself
      · exact hd
    rw [hd.client, ok_bind]
    refine Ends.foldlM (I := fun _ ↦ True) (fun uid _ pubs _ ↦ ?_) trivial
    split
    · trivial
    · next hnull => exact hst.publishers guid d hremote uid hnull
    · trivial

/-- The list of subscribers of a topic that has one. -/
theorem updateTopicSubMetaTopic_safely (hst : st.Sound) (hname : st.HasTopic (topicSubName name)) :
    Safely new st (updateTopicSubMetaTopic env st name) id (Stores (topicSubName name) st) :=
  .look (topicSubscriptions_safely hst) fun _ _ ↦ storeMetaTopic_safely hst hname

/-- The list of publishers of a topic that has one. -/
theorem updateTopicPubMetaTopic_safely (hst : st.Sound) (hname : st.HasTopic (topicPubName name)) :
    Safely new st (updateTopicPubMetaTopic env st name) id (Stores (topicPubName name) st) :=
  .look (topicPublishers_safely hst) fun _ _ ↦ storeMetaTopic_safely hst hname

/-! ### Publications -/

omit [FloatCodec] in
theorem getOrCreateTopic_sound (hst : st.Sound) {value : NTDataValue} (hvalid : value.isValid)
    (hnew : new name) (properties : TopicProperties) :
    ∃ t : TopicAt name, (getOrCreateTopic st name value properties).2 = some t ∧
      (getOrCreateTopic st name value properties).1.topics.lookup name = some (some t) ∧
      (name ∉ st.topics → t.1.value.type = value.type ∧ t.1.properties = properties) ∧
      (getOrCreateTopic st name value properties).1.Sound ∧
      st.Retains new (getOrCreateTopic st name value properties).1 := by
  have hlookup := lookup_getOrCreateTopic st name value properties
  rcases getOrCreateTopic_spec st name value properties with ⟨hp, hst'⟩ | ⟨hname, hp, hst'⟩
  · obtain ⟨t, ht, -⟩ := hst.hasTopic (AList.mem_of_lookup hp)
    have ht₂ := Option.some.inj (hp.symm.trans ht)
    rw [hst', ht₂]
    exact ⟨t, rfl, ht, fun hname ↦ absurd (AList.mem_of_lookup ht) hname, hst, .refl new st⟩
  · rw [hp] at hlookup ⊢
    refine ⟨_, rfl, hlookup, fun _ ↦ ⟨rfl, rfl⟩, ?_⟩
    rw [hst']
    refine hst.setTopic hvalid (.inr hnew) fun t₀ ht₀ ↦ absurd (AList.mem_of_lookup ht₀) hname

omit [FloatCodec] in
/-- A meta topic is made and announced. -/
theorem publishMetaTopic_safely (hst : st.Sound) (hnew : new name) :
    Safely new st (publishMetaTopic env st name) Prod.fst fun r ↦
      r.1.HasTopic name ∧ (env.Agrees → r.2 = true) ∧
        (¬st.Listens name → r.1.thisClient.topicData = st.thisClient.topicData) := by
  obtain ⟨t, ht, hlookup, -, hsound, hkeeps⟩ :=
    @getOrCreateTopic_sound _ _ _ hst metaValue rfl hnew metaProperties
  have hself := thisClient_getOrCreateTopic st name metaValue metaProperties
  simp only [publishMetaTopic, ht]
  refine .after hkeeps ((announceTopic_safely hsound hlookup hnew).imp fun r _ hr ↦
    ⟨⟨t, by rw [hr.topics, hlookup]⟩, hr.agrees, fun hsilent ↦ ?_⟩)
  rw [hr.silent (by rwa [hkeeps.listens]), hself]

omit [FloatCodec] in
/-- A topic that is there stays there. -/
theorem Instance.Retains.hasTopic (h : st.Retains new s) {name' : Str} (hname : st.HasTopic name') :
    s.HasTopic name' := by
  obtain ⟨t, ht⟩ := hname
  obtain ⟨t', ht', -⟩ := h.types name' t ht
  exact ⟨t', ht'⟩

/-- The meta topics of a topic are published and refreshed. -/
theorem publishMetaTopicsOf_safely (hst : st.Sound)
    (hnew : new (topicSubName name) ∧ new (topicPubName name)) :
    Safely new st (publishMetaTopicsOf env st name) Prod.fst fun r ↦
      (env.Agrees → r.2 = true ∧ r.1.HasTopic (topicPubName name)) ∧
        (¬st.Listens (topicSubName name) ∧ ¬st.Listens (topicPubName name) →
          r.1.thisClient.topicData = st.thisClient.topicData) := by
  rw [publishMetaTopicsOf]
  refine (publishMetaTopic_safely hst hnew.1).bind fun r hr hkeeps₁ hq ↦ ?_
  obtain ⟨hsub, hagrees, hsilent⟩ := hq
  split
  · refine (publishMetaTopic_safely hr hnew.2).bind fun r' hr' hkeeps' hq' ↦ ?_
    obtain ⟨hpub, hagrees', hsilent'⟩ := hq'
    have hsilent (h : ¬st.Listens (topicSubName name) ∧ ¬st.Listens (topicPubName name)) :
        r'.1.thisClient.topicData = st.thisClient.topicData :=
      (hsilent' (by rw [hkeeps₁.listens]; exact h.2)).trans (hsilent h.1)
    have hsub := hkeeps'.hasTopic hsub
    split
    · refine (updateTopicSubMetaTopic_safely hr' hsub).bind fun s hs hkeeps hstores ↦ ?_
      refine (updateTopicPubMetaTopic_safely hs (hkeeps.hasTopic hpub)).bind
        fun s' hs' hkeeps' hstores' ↦ .same hs' rfl
          ⟨fun _ ↦ ⟨rfl, hkeeps'.hasTopic (hkeeps.hasTopic hpub)⟩, fun h ↦ ?_⟩
      exact hstores'.topicData.trans (hstores.topicData.trans (hsilent h))
    · next hstop => exact .same hr' rfl ⟨fun h ↦ absurd (hagrees' h) hstop, hsilent⟩
  · next hstop => exact .same hr rfl ⟨fun h ↦ absurd (hagrees h) hstop, fun h ↦ hsilent h.1⟩

/-- The names of the topics that a publication makes. -/
def MadeWith (name name' : Str) : Prop :=
  name' = name ∨
    name.isMeta = false ∧ (name' = topicSubName name ∨ name' = topicPubName name)

/-- What a local publication leads to. -/
structure Publishes (env : Env) (name : Str) (type : NTDataType) (properties : TopicProperties)
    (st s : Instance) : Prop where
  topic : ∃ t : TopicAt name, s.topics.lookup name = some (some t) ∧
    (name ∉ st.topics → t.1.value.type = type ∧ t.1.properties = properties)
  hears : st.HearsOf name → env.topicAnnouncedCallback.isSome → st.Heard s name

omit [FloatCodec] in
/-- What comes after a publication keeps what it has done. -/
theorem Publishes.after {type : NTDataType} {properties : TopicProperties}
    (h : Publishes env name type properties st s) (hs : s.Retains new s') :
    Publishes env name type properties st s' := by
  obtain ⟨⟨t, ht, htype⟩, hhears⟩ := h
  obtain ⟨t', ht', htype', hproperties⟩ := hs.types name t ht
  exact ⟨⟨t', ht', fun hname ↦ ⟨htype'.trans (htype hname).1, hproperties.trans (htype hname).2⟩⟩,
    fun h hsome ↦ (hhears h hsome).after hs⟩

/-- A topic is published, however it is announced. -/
theorem publishTopicWith_safely
    {announce : Instance → Topic → Except Fault (Instance × Bool)} (hst : st.Sound)
    (hannounce : ∀ (s : Instance) (t : TopicAt name), s.Sound → st.Retains new s →
      s.topics.lookup name = some (some t) → Safely new s (announce s t.1) Prod.fst
        (Announces env name s (∃ guid, s.clients.lookup guid = some .self)))
    {value : NTDataValue} (hvalid : value.isValid) (hnew : ∀ name', MadeWith name name' → new name')
    (properties : TopicProperties) :
    Safely new st (publishTopicWith env announce st name value properties) Prod.fst
      fun r ↦ Publishes env name value.type properties st r.1 ∧
        (env.Agrees → r.2 = true ∧
          (name.isMeta = false → r.1.HasTopic (topicPubName name))) ∧
        ((∀ name', MadeWith name name' → ¬st.Listens name') →
          r.1.thisClient.topicData = st.thisClient.topicData) := by
  obtain ⟨t, ht, hlookup, htype, hsound, hkeeps⟩ :=
    getOrCreateTopic_sound hst hvalid (hnew name (.inl rfl)) properties
  have hself := thisClient_getOrCreateTopic st name value properties
  simp only [publishTopicWith, ht]
  refine .after hkeeps ((hannounce _ t hsound hkeeps hlookup).bind fun r hr hkeeps' hann ↦ ?_)
  have hsilent (h : ∀ name', MadeWith name name' → ¬st.Listens name') :
      r.1.thisClient.topicData = st.thisClient.topicData := by
    rw [hann.silent (by rw [hkeeps.listens]; exact h name (.inl rfl)), hself]
  have hpublishes : Publishes env name value.type properties st r.1 := by
    refine ⟨⟨t, by rw [hann.topics, hlookup], htype⟩, fun hhears hsome ↦ ?_⟩
    obtain ⟨⟨guid, hguid⟩, hsub⟩ := hhears
    exact (hann.hears ⟨guid, (hkeeps.self guid).2 hguid⟩ (hkeeps.listens.2 hsub) hsome).before
      hkeeps
  split
  · split
    · next hmeta =>
      exact .same hr rfl ⟨hpublishes, fun _ ↦ ⟨rfl, fun h ↦ absurd hmeta (by simp [h])⟩, hsilent⟩
    · next hmeta =>
      have hmeta : name.isMeta = false := by simpa using hmeta
      have hsub : MadeWith name (topicSubName name) := .inr ⟨hmeta, .inl rfl⟩
      have hpub : MadeWith name (topicPubName name) := .inr ⟨hmeta, .inr rfl⟩
      refine (publishMetaTopicsOf_safely hr ⟨hnew _ hsub, hnew _ hpub⟩).imp fun r' hr' hq ↦
        ⟨hpublishes.after hr', fun h ↦ ⟨(hq.1 h).1, fun _ ↦ (hq.1 h).2⟩, fun h ↦ ?_⟩
      refine (hq.2 ?_).trans (hsilent h)
      rw [hkeeps'.listens, hkeeps'.listens, hkeeps.listens, hkeeps.listens]
      exact ⟨h _ hsub, h _ hpub⟩
  · next hstop => exact .same hr rfl ⟨hpublishes, fun h ↦ absurd (hann.agrees h) hstop, hsilent⟩

/-- The topic a local publication returns is the one it has published. If the local client asks for
none of the topics it makes, it has an entry for the topic alone. -/
structure Publishes.Returned (env : Env) (name : Str) (type : NTDataType)
    (properties : TopicProperties) (st : Instance) (r : Instance × AnnouncedTopic) :
    Prop extends Publishes env name type properties st r.1 where
  known : env.Agrees → r.2.name = name ∧ r.1.Knows r.2 ∧ (name ∉ st.topics → r.2.type = type)
  silent : env.Agrees → (∀ name', MadeWith name name' → ¬st.Listens name') →
    r.1.thisClient.topicData = st.thisClient.topicData.subscript name {}

/-- A topic with its meta topics. -/
theorem publishTopicSelfSync_safely (hst : st.Sound) {value : NTDataValue}
    (hvalid : value.isValid) (hnew : ∀ name', MadeWith name name' → new name')
    (properties : TopicProperties) :
    Safely new st (publishTopicSelfSync env st name value properties) Prod.fst
      (Publishes.Returned env name value.type properties st) := by
  rw [publishTopicSelfSync]
  refine (publishTopicWith_safely hst (fun s t hs _ ht ↦ announceTopic_safely hs ht
    (hnew name (.inl rfl))) hvalid hnew properties).bind fun r hr _ hq ↦ ?_
  obtain ⟨hpublishes, hagrees, hsilent⟩ := hq
  split
  · obtain ⟨t, ht, htype⟩ := hpublishes.topic
    rw [ht]
    -- an id is read, and an entry is made if there is none
    have hlookup (name' : Str) :=
      AList.lookup_subscript r.1.thisClient.topicData name name' ({} : ClientTopicData)
    have hset := @Instance.Sound.setSelf new _ hr { r.1.thisClient with
      topicData := r.1.thisClient.topicData.subscript name {} } rfl
      (fun name' hname' ↦ (AList.mem_subscript.1 hname').imp_right fun h ↦ by
        rw [h]
        exact AList.mem_of_lookup ht)
      (fun name' data hdata ↦ by
        rw [hlookup]
        split
        · next heq =>
          rw [← heq, hdata]
          rfl
        · exact hdata)
      (fun name' data hdata ↦ by
        rw [hlookup] at hdata
        split at hdata
        · next heq =>
          rw [heq]
          cases hold : r.1.thisClient.topicData.lookup name with
          | none =>
            rw [hold] at hdata
            obtain rfl := Option.some.inj hdata
            exact .inr rfl
          | some data' =>
            rw [hold] at hdata
            exact .inl hdata
        · exact .inl hdata)
      ⟨[], (List.append_nil _).symm, fun _ hmem ↦ absurd hmem List.not_mem_nil⟩
    refine .ok hset ⟨hpublishes.after hset.2, fun _ ↦ ⟨rfl, ⟨_, ?_, rfl⟩, fun h ↦ (htype h).1⟩,
      fun _ h ↦ ?_⟩
    · show (r.1.thisClient.topicData.subscript name {}).lookup name = _
      rw [hlookup, if_pos rfl]
    · show r.1.thisClient.topicData.subscript name {} = _
      rw [hsilent h]
  · next hstop =>
    exact .same hr rfl ⟨hpublishes, fun h ↦ absurd (hagrees h).1 hstop,
      fun h ↦ absurd (hagrees h).1 hstop⟩

/-! ### The local interface -/

namespace Instance

omit [FloatCodec] in
/-- The local client subscribes to something else. -/
def withSubscriptions (st : Instance) (m : AList fun _ : Int32 ↦ Option Subscription) : Instance :=
  { st with thisClient := { st.thisClient with subscriptions := m } }

omit [FloatCodec] in
/-- The local client publishes something else. -/
def withPublishers (st : Instance) (m : AList fun _ : Int32 ↦ Option Publisher) : Instance :=
  { st with thisClient := { st.thisClient with publishers := m } }

omit [FloatCodec] in
/-- New subscriptions must not be null pointers; nothing else is asked of them. -/
theorem Sound.withSubscriptions (hst : st.Sound) {m : AList fun _ : Int32 ↦ Option Subscription}
    (hm : ∀ uid, m.lookup uid ≠ some none) : (st.withSubscriptions m).Sound :=
  ⟨hst.topics, hst.clients, ⟨hst.subscriptions.1, hm⟩, hst.publishers, hst.announced, hst.records⟩

omit [FloatCodec] in
/-- The publishers of the local client are not among the pointers of a sound state. -/
theorem Sound.withPublishers (hst : st.Sound) (m : AList fun _ : Int32 ↦ Option Publisher) :
    (st.withPublishers m).Sound :=
  ⟨hst.topics, hst.clients, hst.subscriptions, hst.publishers, hst.announced, hst.records⟩

end Instance

/-- What a new subscription tells the local client: the cached topics it asks for, the record of its
own subscriptions, and the values of the topics it has not got a value of. -/
structure CatchesUp (env : Env) (st s : Instance) : Prop where
  topics : ∀ name ≠ serverSubName, s.topics.lookup name = st.topics.lookup name
  topicData : ∀ name ∈ s.thisClient.topicData, name ∈ st.thisClient.topicData ∨
    st.Listens name ∧ st.Cached name
  heard : env.topicAnnouncedCallback.isSome → ∀ name ≠ serverSubName, st.Listens name →
    st.Cached name → st.Heard s name
  calls : ∃ events, s.thisClient.history = st.thisClient.history ++ events ∧
    (∀ id time value, .updateCallback id time value ∈ events →
      ∃ name data, s.thisClient.topicData.lookup name = some data ∧ data.id = id ∧
        s.thisClient.Receives name ∧
        (name ≠ serverSubName → ∃ t : TopicAt name, st.topics.lookup name = some (some t) ∧
          value = .assign { type := t.1.value.getAPIType } t.1.value)) ∧
    (env.topicUpdateCallback.isSome → ∀ name ≠ serverSubName, ∀ data,
      s.thisClient.topicData.lookup name = some data → data.initialPublish = false →
      (∃ uid sub, st.thisClient.subscriptions.lookup uid = some (some sub) ∧
        sub.covers name true) →
      ∀ t : TopicAt name, st.topics.lookup name = some (some t) →
        ∃ time, .updateCallback data.id time
          (.assign { type := t.1.value.getAPIType } t.1.value) ∈ events)

/-- The local client subscribes. -/
theorem localSubscribe_safely {topics : List Str} {subuid : Int32} {options : SubscriptionOptions}
    (hst : (st.withSubscriptions
      (st.thisClient.subscriptions.insert subuid (some ⟨subuid, topics, options⟩))).Sound) :
    Safely new (st.withSubscriptions
        (st.thisClient.subscriptions.insert subuid (some ⟨subuid, topics, options⟩)))
      (localSubscribe env topics subuid options st) id
      (CatchesUp env (st.withSubscriptions
        (st.thisClient.subscriptions.insert subuid (some ⟨subuid, topics, options⟩)))) := by
  generalize hbase : st.withSubscriptions
    (st.thisClient.subscriptions.insert subuid (some ⟨subuid, topics, options⟩)) = base at hst ⊢
  rw [localSubscribe]
  show Safely new base (updateServerSubMetaTopic env (st.withSubscriptions _) >>= _) _ _
  rw [hbase]
  refine (updateServerSubMetaTopic_safely hst).bind
    fun s₁ (hs₁ : s₁.Sound) (hkeeps₁ : base.Retains new s₁) hstores ↦ ?_
  refine (announceCachedTopicsSelf_safely hs₁).bind
    fun s₂ (hs₂ : s₂.Sound) (hkeeps₂ : s₁.Retains new s₂) hcached ↦ ?_
  refine (publishInitialValuesSelf_safely hs₂).imp
    fun s (hkeeps : s₂.Retains new s) (hvalues : TellsValues env s₂ _ s) ↦ ?_
  have hcached₁ {name : Str} (hne : name ≠ serverSubName) (h : base.Cached name) :
      s₁.Cached name := by
    refine ⟨?_, fun t ht ↦ h.2 t (by rwa [← hstores.topics name hne])⟩
    rw [← AList.lookup_isSome, hstores.topics name hne, AList.lookup_isSome]
    exact h.1
  have hcached₀ {name : Str} (h : s₁.Cached name) : base.Cached name := by
    refine ⟨?_, fun t ht ↦ ?_⟩
    · by_cases hne : name = serverSubName
      · obtain ⟨t, ht⟩ := hst.records.1
        rw [hne]
        exact AList.mem_of_lookup ht
      · rw [← AList.lookup_isSome, ← hstores.topics name hne, AList.lookup_isSome]
        exact h.1
    · obtain ⟨t', ht', -, hproperties⟩ := hkeeps₁.types name t ht
      rw [← hproperties]
      exact h.2 t' ht'
  have hnames (name : Str) (hname : name ∈ s₂.thisClient.topicData) :
      name ∈ base.thisClient.topicData ∨ base.Listens name ∧ base.Cached name := by
    rcases hcached.topicData name hname with hname | ⟨hlistens, hcached⟩
    · rw [hstores.topicData] at hname
      exact .inl hname
    · exact .inr ⟨hkeeps₁.listens.1 hlistens, hcached₀ hcached⟩
  have htopic {name : Str} (hne : name ≠ serverSubName) :
      s₂.topics.lookup name = base.topics.lookup name := by
    rw [hcached.topics, hstores.topics name hne]
  have hsubs : s₂.thisClient.subscriptions = base.thisClient.subscriptions :=
    congrArg ClientInfo.subscriptions (hkeeps₁.trans hkeeps₂).info
  refine ⟨fun name hne ↦ ?_, fun name hname ↦ ?_, fun hsome name hne hlistens hcached' ↦ ?_, ?_⟩
  · show s.topics.lookup name = _
    rw [hvalues.topics, htopic hne]
  · rw [show s.thisClient.topicData = _ from hvalues.topicData] at hname
    exact hnames name hname
  · have hcached' := hcached₁ hne hcached'
    have hheard := hcached.heard hsome name (env.names.mem_keys.2 hcached'.1)
      (hkeeps₁.listens.2 hlistens) hcached'
    exact (hheard.before hkeeps₁).after hkeeps
  · obtain ⟨events₁, hevents₁, hall₁⟩ := hstores.calls
    obtain ⟨events₂, hevents₂, hall₂⟩ := hcached.calls
    obtain ⟨events₃, hevents₃, hall₃, hvisited⟩ := hvalues.calls
    have hdata : s.thisClient.topicData = s₂.thisClient.topicData := hvalues.topicData
    refine ⟨events₁ ++ events₂ ++ events₃, ?_, fun id time value hmem ↦ ?_,
      fun hsome name hne data hdata' hinitial hcovers t ht ↦ ?_⟩
    · show s.thisClient.history = _
      rw [hevents₃, hevents₂, hevents₁, List.append_assoc, List.append_assoc, List.append_assoc]
    · rcases List.mem_append.1 hmem with hmem | hmem
      · rcases List.mem_append.1 hmem with hmem | hmem
        -- the record of the subscriptions
        · obtain ⟨⟨data, hdata', hreceives⟩, time', value', heq⟩ := hall₁ _ hmem
          obtain ⟨rfl, -, -⟩ := ClientEvent.updateCallback.inj heq
          have hlater := ((hkeeps₁.trans hkeeps₂).trans hkeeps).ids _ _ hdata'
          refine ⟨serverSubName, data, hlater, ?_, ⟨data, hlater, ?_⟩, fun hne ↦ absurd rfl hne⟩
          · rw [ClientData.topicId, hdata']
            rfl
          · show _ ∨ ∃ uid sub, s.thisClient.subscriptions.lookup uid = _ ∧ _
            rwa [congrArg ClientInfo.subscriptions ((hkeeps₁.trans hkeeps₂).trans hkeeps).info]
        · obtain ⟨t, heq⟩ := hall₂ _ hmem
          exact ClientEvent.noConfusion heq
      -- the values
      · obtain ⟨name, hreceives, t, time', ht, heq⟩ := hall₃ _ hmem
        obtain ⟨rfl, -, rfl⟩ := ClientEvent.updateCallback.inj heq
        obtain ⟨data, hdata'⟩ := AList.exists_lookup_of_mem hreceives.mem
        refine ⟨name, data, by rw [hdata, hdata'], ?_, (ClientData.receives_congr hdata
          (congrArg ClientInfo.subscriptions hkeeps.info)).2 hreceives,
          fun hne ↦ ⟨t, by rw [← htopic hne, ht], rfl⟩⟩
        rw [t.2, ClientData.topicId, hdata']
        rfl
    · rw [hdata] at hdata'
      obtain ⟨time, hmem⟩ := hvisited hsome name (env.names.mem_keys.2 (AList.mem_of_lookup hdata'))
        data hdata' hinitial (by rwa [hsubs]) t (by rw [htopic hne, ht])
      refine ⟨time, List.mem_append.2 (.inr ?_)⟩
      rwa [Instance.updateCall, t.2, ClientData.topicId, hdata'] at hmem

/-- A subscription that is there is erased. -/
theorem localUnsubscribe_safely {subuid : Int32} {sub : Subscription}
    (hsub : st.thisClient.subscriptions.lookup subuid = some (some sub))
    (hst : (st.withSubscriptions (st.thisClient.subscriptions.erase subuid)).Sound) :
    Safely new (st.withSubscriptions (st.thisClient.subscriptions.erase subuid))
      (localUnsubscribe env subuid st) id fun _ ↦ True := by
  rw [localUnsubscribe, hsub]
  exact (updateServerSubMetaTopic_safely hst).imp fun _ _ _ ↦ trivial

/-- A topic that exists is looked up, and one that does not is published. -/
theorem publishOrLookUp_safely (hst : st.Sound) {type : NTDataType} (htype : type ≠ .unassigned)
    (hnew : ∀ name', MadeWith name name' → new name') (properties : TopicProperties) :
    Safely new st (publishOrLookUp env name type properties st) Prod.fst fun r ↦
      r.1.HasTopic name ∧
        (name ∉ st.topics → Publishes.Returned env name type properties st r) := by
  rw [publishOrLookUp]
  split
  · next hnone =>
    refine (publishTopicSelfSync_safely hst (by simpa [NTDataValue.isValid] using htype) hnew
      properties).imp fun r _ hr ↦ ⟨?_, fun _ ↦ hr⟩
    obtain ⟨t, ht, -⟩ := hr.topic
    exact ⟨t, ht⟩
  · next hnull => exact absurd hnull hst.not_null
  · next t ht =>
    have hassign :=
      @Instance.Sound.setSelf new _ hst _ (st.thisClient.toClientInfo_assignId t.1.name)
      (fun name' hname' ↦ (ClientData.mem_assignId.1 hname').imp_right fun h ↦ by
        rw [h, t.2]
        exact AList.mem_of_lookup ht)
      (fun _ _ ↦ ClientData.lookup_assignId) (fun _ _ ↦ ClientData.fresh_assignId)
      ⟨[], (st.thisClient.history_assignId _).trans (List.append_nil _).symm,
        fun _ hmem ↦ absurd hmem List.not_mem_nil⟩
    exact .ok hassign ⟨⟨t, ht⟩, fun hname ↦ absurd (AList.mem_of_lookup ht) hname⟩

/-- The local client publishes. No publisher but the new one may be a null pointer, since the record
packs them all. -/
theorem localPublish_safely {pubuid : Int32} {type : NTDataType} {properties : TopicProperties}
    (hst : st.Sound) (htype : type ≠ .unassigned)
    (hpubs : ∀ uid ≠ pubuid, st.thisClient.publishers.lookup uid ≠ some none)
    (hnew : ∀ name', MadeWith name name' → new name') :
    Safely new (st.withPublishers (st.thisClient.publishers.insert pubuid (some ⟨pubuid, name⟩)))
      (localPublish env name pubuid type properties st) Prod.fst fun r ↦ r.1.HasTopic name ∧
        (name ∉ st.topics → Publishes.Returned env name type properties (st.withPublishers
          (st.thisClient.publishers.insert pubuid (some ⟨pubuid, name⟩))) r) := by
  have hst := hst.withPublishers
    (st.thisClient.publishers.insert pubuid (some ⟨pubuid, name⟩))
  refine (publishOrLookUp_safely hst htype hnew properties).bind fun r hr hkeeps hq ↦ ?_
  have hpubs (uid : Int32) : r.1.thisClient.publishers.lookup uid ≠ some none := by
    rw [congrArg ClientInfo.publishers hkeeps.info]
    show (st.thisClient.publishers.insert pubuid (some ⟨pubuid, name⟩)).lookup uid ≠ _
    rw [AList.lookup_insert_ite]
    split
    · exact fun h ↦ by cases h
    · next hne => exact hpubs uid hne
  refine (updateServerPubMetaTopic_safely hr hpubs).bind fun s hs hkeeps' hstores ↦ ?_
  refine .same hs rfl ⟨hkeeps'.hasTopic hq.1, fun hname ↦ ?_⟩
  obtain ⟨hpublishes, hknown, hsilent⟩ := hq.2 hname
  refine ⟨hpublishes.after hkeeps', fun hagrees ↦ ?_,
    fun hagrees h ↦ hstores.topicData.trans (hsilent hagrees h)⟩
  obtain ⟨hname, hknows, htype⟩ := hknown hagrees
  exact ⟨hname, hknows.mono hkeeps'.ids, htype⟩

/-- A publisher that is there is erased. -/
theorem localUnpublish_safely {pubuid : Int32} {pub : Publisher} (hst : st.Sound)
    (hpub : st.thisClient.publishers.lookup pubuid = some (some pub))
    (hpubs : ∀ uid, st.thisClient.publishers.lookup uid ≠ some none) :
    Safely new (st.withPublishers (st.thisClient.publishers.erase pubuid))
      (localUnpublish env pubuid st) id fun _ ↦ True := by
  rw [localUnpublish, hpub]
  refine (updateServerPubMetaTopic_safely (hst.withPublishers _) fun uid ↦ ?_).imp
    fun _ _ _ ↦ trivial
  show (st.thisClient.publishers.erase pubuid).lookup uid ≠ _
  rw [AList.lookup_erase_ite]
  split
  · exact fun h ↦ by cases h
  · exact hpubs uid

/-- A value of a publisher is assigned to its topic and sent. -/
theorem localUpdateTopic_safely {id : Int32} {pub : Publisher} {t : TopicAt pub.topic}
    {value : NTDataValue} (hst : st.Sound)
    (hpub : st.thisClient.publishers.lookup id = some (some pub))
    (ht : st.topics.lookup pub.topic = some (some t)) (hvalue : value.isValid) :
    Safely new st (localUpdateTopic env id value time st) (fun s ↦ s) fun s ↦
      Sends env (t.setValue (t.1.value.assign value)).1 time
        (st.setTopic pub.topic (t.setValue (t.1.value.assign value)))
        (env.Accepts ∧ ∃ guid, st.clients.lookup guid = some .self) s := by
  have htype := NTDataValue.type_assign (hst.valid ht) value
  have hvalid : (t.setValue (t.1.value.assign value)).1.value.isValid := by
    have h := hst.valid ht
    rw [NTDataValue.isValid] at h ⊢
    rwa [show (t.setValue (t.1.value.assign value)).1.value.type = _ from htype]
  have hset :=
    @Instance.Sound.setTopic new _ _ hst _ hvalid (.inl (AList.mem_of_lookup ht)) fun t₀ ht₀ ↦ by
    rw [ht] at ht₀
    obtain rfl := Option.some.inj (Option.some.inj ht₀)
    exact ⟨htype, rfl⟩
  rw [localUpdateTopic, hpub]
  show Safely new st (updatePublished env pub value _ st) _ _
  rw [updatePublished, ht]
  show Safely new st (if value.isValid then _ else _) _ _
  rw [if_pos hvalue]
  exact .after hset.2 (.map (sendTopicUpdate_safely hset.1 hvalid))

end Values

end NetworkTables
