import PicoRadio.NetworkTables.LocalInterface
import PicoRadio.NetworkTables.SoundStates

/-!
# The callbacks of the subscribers

The callback for announcements empties the queue of a topic and gives the topic to the subscribers
that were in it. It fails only if one of them is gone: a queue keeps the address of a subscriber
that was destroyed before its topic was announced. The callback for updates never fails. Neither
changes the instance, the ids that are handed out next, or the subscription id of a subscriber
(`World.after_ends`).

A subscriber is in one of two states: it waits for its topic, or it has the topic with an id. The
calls that tell it the topic bring it from the one to the other (`World.Waits.told`), and no other
call changes anything for it. An address that was used before may still be in the queue of another
topic, so this is said of the topics that are announced.
-/

namespace NetworkTables

variable {w w' : World} {this : ℕ} {name : Str}

namespace World

/-- The subscribers that wait for a topic. -/
def queue (w : World) (name : Str) : List ℕ :=
  (w.data.announce.lookup name).getD []

/-- Every subscriber that waits for the topic exists. -/
def LiveAt (w : World) (name : Str) : Prop :=
  ∀ this ∈ w.queue name, this ∈ w.subscribers

/-- Every subscriber that waits exists. -/
def Live (w : World) : Prop :=
  ∀ name, w.LiveAt name

/-- What the callbacks of a call keep. -/
structure Follows (w w' : World) : Prop where
  installed : w'.installed = w.installed
  nextSubscriber : w'.NEXT_SUBSCRIBER_ID = w.NEXT_SUBSCRIBER_ID
  nextPublisher : w'.NEXT_PUBLISHER_ID = w.NEXT_PUBLISHER_ID
  subuids : ∀ this, (w'.subscribers.lookup this).map NTSubscriber.subuid =
    (w.subscribers.lookup this).map NTSubscriber.subuid
  queues : ∀ name, ∀ this ∈ w'.queue name, this ∈ w.queue name

theorem Follows.refl (w : World) : w.Follows w :=
  ⟨rfl, rfl, rfl, fun _ ↦ rfl, fun _ _ ↦ id⟩

theorem Follows.trans {w'' : World} (h : w.Follows w') (h' : w'.Follows w'') : w.Follows w'' where
  installed := h'.installed.trans h.installed
  nextSubscriber := h'.nextSubscriber.trans h.nextSubscriber
  nextPublisher := h'.nextPublisher.trans h.nextPublisher
  subuids this := (h'.subuids this).trans (h.subuids this)
  queues name this hthis := h.queues name this (h'.queues name this hthis)

/-- The subscribers that exist stay the same ones. -/
theorem Follows.mem_subscribers (h : w.Follows w') : this ∈ w'.subscribers ↔
    this ∈ w.subscribers := by
  have hsubuid := congrArg Option.isSome (h.subuids this)
  rw [Option.isSome_map, Option.isSome_map, Bool.eq_iff_iff, AList.lookup_isSome,
    AList.lookup_isSome] at hsubuid
  exact hsubuid

theorem Follows.liveAt (h : w.Follows w') (hw : w.LiveAt name) : w'.LiveAt name :=
  fun this hthis ↦ h.mem_subscribers.2 (hw this (h.queues name this hthis))

theorem Follows.live (h : w.Follows w') (hw : w.Live) : w'.Live :=
  fun name ↦ h.liveAt (hw name)

theorem Follows.subscriber_subuid (h : w.Follows w') {s : NTSubscriber}
    (hs : w.subscribers.lookup this = some s) :
    ∃ s', w'.subscribers.lookup this = some s' ∧ s'.subuid = s.subuid := by
  have hsubuid := h.subuids this
  rw [hs] at hsubuid
  exact Option.map_eq_some_iff.1 hsubuid

end World

/-! ### One call -/

/-- The subscribers in the queue are given the topic, and no other one changes. -/
theorem assignTopic_ends (t : AnnouncedTopic) (queue : List ℕ)
    (subscribers : AList fun _ : ℕ ↦ NTSubscriber) :
    Ends (assignTopic t queue subscribers)
      (fun m ↦ ∀ this, m.lookup this = (subscribers.lookup this).map fun s ↦
        if this ∈ queue then { s with topic := .ofAnnounced t } else s)
      fun e ↦ e = .dangling ∧ ∃ this ∈ queue, this ∉ subscribers := by
  induction queue generalizing subscribers with
  | nil =>
    intro this
    simp
  | cons a queue ih =>
    rw [assignTopic, List.foldlM_cons]
    cases hs : subscribers.lookup a with
    | none => exact ⟨rfl, a, List.mem_cons_self, AList.lookup_eq_none.1 hs⟩
    | some s =>
      rw [ok_bind]
      have hlookup (this : ℕ) := AList.lookup_insert_ite subscribers a this
        { s with topic := NTTopic.ofAnnounced t }
      refine (ih (subscribers.insert a { s with topic := .ofAnnounced t })).mono
        (fun m hm this ↦ ?_) fun e he ↦ ?_
      · rw [hm this, hlookup this]
        by_cases heq : this = a
        · rw [if_pos heq, heq, hs, Option.map_some, Option.map_some, if_pos List.mem_cons_self]
          split <;> rfl
        · rw [if_neg heq]
          simp only [List.mem_cons, heq, false_or]
      · obtain ⟨he, this, hthis, hgone⟩ := he
        rw [AList.mem_insert, not_or] at hgone
        exact ⟨he, this, List.mem_cons_of_mem a hthis, hgone.2⟩

namespace World

/-- What an announcement does to the queues. -/
theorem queue_announced {announce : AList fun _ : Str ↦ List ℕ}
    {updates : AList fun _ : ℤ ↦ UpdateData}
    (h : w'.callbacks = some ⟨announce.insert name [], updates⟩) (name' : Str) :
    w'.queue name' = if name' = name then [] else (announce.lookup name').getD [] := by
  rw [queue, data, h, Option.getD_some, AList.lookup_insert_ite]
  split <;> rfl

theorem announced_ends (w : World) (t : AnnouncedTopic) :
    Ends (w.announced t)
      (fun w' ↦ w'.inst = w.inst ∧ w.Follows w' ∧
        (∀ this, w'.subscribers.lookup this = (w.subscribers.lookup this).map fun s ↦
          if this ∈ w.queue t.name then { s with topic := .ofAnnounced t } else s) ∧
        (∀ name, w'.queue name = if name = t.name then [] else w.queue name) ∧
        w'.data.updates = w.data.updates)
      fun e ↦ e = .dangling ∧ ¬w.LiveAt t.name := by
  refine ((assignTopic_ends t (w.queue t.name) w.subscribers).mono
    (fun m hm ↦ ?_) fun e he ↦ ?_).bind
    (Q := fun m ↦ ∀ this, m.lookup this = (w.subscribers.lookup this).map fun s ↦
      if this ∈ w.queue t.name then { s with topic := .ofAnnounced t } else s) fun m hm ↦ ?_
  · exact hm
  · obtain ⟨he, this, hthis, hgone⟩ := he
    exact ⟨he, fun hlive ↦ hgone (hlive this hthis)⟩
  · have hqueue (name : Str) :
        queue { w with
          subscribers := m
          callbacks := some { w.data with announce := w.data.announce.insert t.name [] } } name =
        if name = t.name then [] else w.queue name :=
      queue_announced rfl name
    refine ⟨rfl, ⟨rfl, rfl, rfl, fun this ↦ ?_, fun name this hthis ↦ ?_⟩, hm, hqueue, rfl⟩
    · rw [hm this, Option.map_map]
      congr 1
      funext s
      show (if this ∈ w.queue t.name then _ else s).subuid = _
      split <;> rfl
    · rw [hqueue] at hthis
      split at hthis
      · exact absurd hthis List.not_mem_nil
      · exact hthis

/-- A call fails only if it announces a topic, and a subscriber that waits for it is gone. -/
theorem callback_ends (w : World) (e : ClientEvent) :
    Ends (w.callback e) (fun w' ↦ w'.inst = w.inst ∧ w.Follows w')
      fun fault ↦ fault = .dangling ∧ ∃ t, e = .announcedCallback t ∧ ¬w.LiveAt t.name := by
  cases e with
  | announcedCallback t =>
    exact (w.announced_ends t).mono (fun w' h ↦ ⟨h.1, h.2.1⟩) fun _ h ↦ ⟨h.1, t, rfl, h.2⟩
  | updateCallback _ time value => exact ⟨rfl, rfl, rfl, rfl, fun _ ↦ rfl, fun _ _ h ↦ h⟩
  | propertiesCallback _ _ => exact ⟨rfl, .refl w⟩
  | text _ => exact ⟨rfl, .refl w⟩
  | update _ _ => exact ⟨rfl, .refl w⟩
  | sentText _ => exact ⟨rfl, .refl w⟩
  | sentBinary _ => exact ⟨rfl, .refl w⟩

/-! ### All calls of a member function -/

/-- The calls leave the instance as it is. -/
theorem after_ends (w : World) (st : Instance) :
    Ends (w.after st) (fun w' ↦ w'.inst = st ∧ w.Follows w')
      fun e ↦ e = .dangling ∧ ∃ t, .announcedCallback t ∈ w.calls st ∧ ¬w.LiveAt t.name := by
  refine Ends.foldlM (I := fun w' ↦ w'.inst = st ∧ w.Follows w') (fun e hmem s hs ↦ ?_)
    (s := { w with inst := st }) ⟨rfl, rfl, rfl, rfl, fun _ ↦ rfl, fun _ _ ↦ id⟩
  refine (s.callback_ends e).mono (fun w' h ↦ ⟨h.1.trans hs.1, hs.2.trans h.2⟩) fun _ he ↦ ?_
  obtain ⟨he, t, rfl, hlive⟩ := he
  exact ⟨he, t, hmem, fun h ↦ hlive (hs.2.liveAt h)⟩

/-- What is so whenever the instance ends well is so after the calls. -/
theorem call_ends {α : Type} {x : Except Fault (Instance × α)} {Q : Instance → α → Prop}
    (hx : Ends x (fun r ↦ Q r.1 r.2) fun _ ↦ True) :
    Ends (w.call x) (fun r ↦ Q r.1.inst r.2 ∧ w.Follows r.1) fun _ ↦ True := by
  cases x with
  | error fault => trivial
  | ok r =>
    refine .map ((w.after_ends r.1).mono (fun w' hw' ↦ ⟨?_, hw'.2⟩) fun _ _ ↦ trivial)
    rw [hw'.1]
    exact hx

theorem run_ends {x : Except Fault Instance} {Q : Instance → Prop} (hx : Ends x Q fun _ ↦ True) :
    Ends (w.run x) (fun w' ↦ Q w'.inst ∧ w.Follows w') fun _ ↦ True :=
  .map (call_ends (Q := fun st _ ↦ Q st) (.map hx))

theorem calls_of_history {s : Instance} {events : List ClientEvent} (hw : w.installed = true)
    (h : s.thisClient.history = w.inst.thisClient.history ++ events) :
    w.calls { s with mutexFree := true } = events := by
  rw [calls, if_pos hw, h, List.drop_left]

/-! ### What a subscriber is told -/

/-- The subscriber waits for the topic of this name, and for no other of those in `heard`. -/
structure Waits (w : World) (this : ℕ) (name : Str) (heard : Str → Prop) : Prop where
  topic : ∃ s, w.subscribers.lookup this = some s ∧ s.topic.name = name
  queue : this ∈ w.queue name
  others : ∀ name', heard name' → name' ≠ name → this ∉ w.queue name'

/-- The subscriber has the topic of this name, with its id. -/
def Told (w : World) (this : ℕ) (name : Str) (topicId : ℤ) : Prop :=
  ∃ s, w.subscribers.lookup this = some s ∧ s.topic.name = name ∧ s.topic.id = topicId

variable {topicId : ℤ} {heard : Str → Prop}

theorem Waits.mono {heard' : Str → Prop} (h : w.Waits this name heard)
    (hheard : ∀ {name'}, heard' name' → heard name') : w.Waits this name heard' :=
  ⟨h.topic, h.queue, fun name' hname' ↦ h.others name' (hheard hname')⟩

/-- The topic is announced. -/
theorem Waits.announced {t : AnnouncedTopic} (h : w.Waits this t.name heard) :
    Ends (w.announced t)
      (fun w' ↦ w'.Told this t.name t.id ∧ ∀ name', heard name' → this ∉ w'.queue name')
      fun _ ↦ True := by
  refine (w.announced_ends t).mono (fun w' hw' ↦ ?_) fun _ _ ↦ trivial
  obtain ⟨-, -, hlookup, hqueue, -⟩ := hw'
  obtain ⟨s, hs, -⟩ := h.topic
  refine ⟨⟨{ s with topic := .ofAnnounced t }, ?_, rfl, rfl⟩, fun name' hname' ↦ ?_⟩
  · rw [hlookup, hs, Option.map_some, if_pos h.queue]
  · rw [hqueue]
    split
    · exact List.not_mem_nil
    · next hne => exact h.others name' hname' hne

/-- Another topic is announced, or something else is told. -/
theorem Waits.callback (h : w.Waits this name heard) {e : ClientEvent}
    (he : ∀ t, e = .announcedCallback t → t.name ≠ name ∧ heard t.name) :
    Ends (w.callback e) (fun w' ↦ w'.Waits this name heard) fun _ ↦ True := by
  cases e with
  | announcedCallback t =>
    obtain ⟨hne, hheard⟩ := he t rfl
    refine (w.announced_ends t).mono (fun w' hw' ↦ ?_) fun _ _ ↦ trivial
    obtain ⟨-, -, hlookup, hqueue, -⟩ := hw'
    obtain ⟨s, hs, hname⟩ := h.topic
    refine ⟨⟨s, ?_, hname⟩, ?_, fun name' hname' hne' ↦ ?_⟩
    · rw [hlookup, hs, Option.map_some, if_neg (h.others _ hheard hne)]
    · rw [hqueue, if_neg hne.symm]
      exact h.queue
    · rw [hqueue]
      split
      · exact List.not_mem_nil
      · exact h.others name' hname' hne'
  | updateCallback _ _ _ => exact ⟨h.topic, h.queue, h.others⟩
  | propertiesCallback _ _ | text _ | update _ _ | sentText _ | sentBinary _ => exact h

/-- A subscriber that has its topic keeps it if it waits for none of those that are announced. -/
theorem Told.callback (h : w.Told this name topicId)
    (hqueue : ∀ name', heard name' → this ∉ w.queue name') {e : ClientEvent}
    (he : ∀ t, e = .announcedCallback t → heard t.name) :
    Ends (w.callback e)
      (fun w' ↦ w'.Told this name topicId ∧ ∀ name', heard name' → this ∉ w'.queue name')
      fun _ ↦ True := by
  cases e with
  | announcedCallback t =>
    refine (w.announced_ends t).mono (fun w' hw' ↦ ?_) fun _ _ ↦ trivial
    obtain ⟨-, -, hlookup, hqueue', -⟩ := hw'
    obtain ⟨s, hs, htopic⟩ := h
    refine ⟨⟨s, ?_, htopic⟩, fun name' hname' ↦ ?_⟩
    · rw [hlookup, hs, Option.map_some, if_neg (hqueue t.name (he t rfl))]
    · rw [hqueue']
      split
      · exact List.not_mem_nil
      · exact hqueue name' hname'
  | updateCallback _ _ _ => exact ⟨h, hqueue⟩
  | propertiesCallback _ _ | text _ | update _ _ | sentText _ | sentBinary _ => exact ⟨h, hqueue⟩

/-- A subscriber whose topic is not announced waits on. -/
theorem Waits.after (h : w.Waits this name heard) {st : Instance}
    (hother : ∀ t, .announcedCallback t ∈ w.calls st → t.name ≠ name ∧ heard t.name) :
    Ends (w.after st) (fun w' ↦ w'.Waits this name heard) fun _ ↦ True := by
  refine Ends.foldlM (I := fun w' ↦ Waits w' this name heard) (fun e he w' hw' ↦ ?_)
    (s := { w with inst := st }) ⟨h.topic, h.queue, h.others⟩
  refine hw'.callback fun t ht ↦ hother t ?_
  rwa [← ht]

/-- A subscriber that has its topic keeps it if nothing is announced. -/
theorem Told.after (h : w.Told this name topicId) {st : Instance}
    (hquiet : ∀ t, .announcedCallback t ∉ w.calls st) :
    Ends (w.after st) (fun w' ↦ w'.Told this name topicId) fun _ ↦ True := by
  refine (Ends.foldlM (I := fun w' ↦ Told w' this name topicId ∧
    ∀ name', False → this ∉ w'.queue name') (fun e he w' hw' ↦ ?_)
    (s := { w with inst := st }) ⟨h, fun _ ↦ False.elim⟩).imp fun _ h ↦ h.1
  refine hw'.1.callback hw'.2 fun t ht ↦ hquiet t ?_
  rwa [← ht]

/-- A subscriber that waits has its topic after the first call that announces it. -/
theorem Waits.told (h : w.Waits this name heard) {st : Instance}
    (hid : ∀ t, .announcedCallback t ∈ w.calls st →
      heard t.name ∧ (t.name = name → t.id = topicId)) :
    Ends (w.after st)
      (fun w' ↦ w'.Told this name topicId ∨
        ∀ t, .announcedCallback t ∈ w.calls st → t.name ≠ name)
      fun _ ↦ True := by
  refine (Ends.foldlM_visited (E := fun _ ↦ True) (I := fun (done : List ClientEvent) w' ↦
    (Told w' this name topicId ∧ ∀ name', heard name' → this ∉ w'.queue name') ∨
      Waits w' this name heard ∧ ∀ t, .announcedCallback t ∈ done → t.name ≠ name)
    (fun done e rest hl w' hw' ↦ ?_) (s := { w with inst := st })
    (.inr ⟨⟨h.topic, h.queue, h.others⟩, fun t ht ↦ absurd ht List.not_mem_nil⟩)).imp
    fun w' hw' ↦ hw'.imp And.left And.right
  have hmem : e ∈ w.calls st := by
    rw [hl]
    exact List.mem_append.2 (.inr List.mem_cons_self)
  have hheard (t : AnnouncedTopic) (ht : e = .announcedCallback t) : heard t.name :=
    (hid t (ht ▸ hmem)).1
  rcases hw' with ⟨htold, hqueue⟩ | ⟨hwaits, hdone⟩
  · exact (htold.callback hqueue hheard).imp fun _ ↦ .inl
  -- whether this call announces the topic
  · by_cases he : ∃ t, e = .announcedCallback t ∧ t.name = name
    · obtain ⟨t, rfl, rfl⟩ := he
      rw [← (hid t hmem).2 rfl]
      exact hwaits.announced.imp fun _ ↦ .inl
    · have he (t : AnnouncedTopic) (ht : e = .announcedCallback t) : t.name ≠ name :=
        fun hname ↦ he ⟨t, ht, hname⟩
      refine (hwaits.callback fun t ht ↦ ⟨he t ht, hheard t ht⟩).imp
        fun w'' hw'' ↦ .inr ⟨hw'', fun t ht ↦ ?_⟩
      rcases List.mem_append.1 ht with ht | ht
      · exact hdone t ht
      · exact he t (List.mem_singleton.1 ht).symm

/-- The calls that tell one value under an id, of which there is one at least, leave it as the last
update. -/
theorem updates_after (w : World) {st : Instance} {value : NTDataValue}
    (hcalls : ∀ time value', .updateCallback topicId time value' ∈ w.calls st → value' = value)
    (hsome : ∃ time value', .updateCallback topicId time value' ∈ w.calls st) :
    Ends (w.after st) (fun w' ↦ ∃ time, w'.data.updates.lookup topicId = some ⟨value, time⟩)
      fun _ ↦ True := by
  refine (Ends.foldlM_visited (E := fun _ ↦ True) (I := fun (done : List ClientEvent) w' ↦
    (∃ time value', .updateCallback topicId time value' ∈ done) →
      ∃ time, w'.data.updates.lookup topicId = some ⟨value, time⟩)
    (fun done e rest hl w' hw' ↦ ?_) (s := { w with inst := st }) ?_).imp fun w' hw' ↦ hw' hsome
  · have hmem : e ∈ w.calls st := by
      rw [hl]
      exact List.mem_append.2 (.inr List.mem_cons_self)
    -- a call that is no update under the id was not the one
    have hdone (hne : ∀ time value', e ≠ .updateCallback topicId time value')
        (h : ∃ time value', .updateCallback topicId time value' ∈ done ++ [e]) :
        ∃ time, w'.data.updates.lookup topicId = some ⟨value, time⟩ := by
      obtain ⟨time, value', h⟩ := h
      rcases List.mem_append.1 h with h | h
      · exact hw' ⟨time, value', h⟩
      · exact absurd (List.mem_singleton.1 h).symm (hne time value')
    cases e with
    | updateCallback id time value' =>
      intro h
      by_cases heq : topicId = id
      · subst heq
        rw [← hcalls time value' hmem]
        exact ⟨time, AList.lookup_insert _⟩
      · obtain ⟨time', h⟩ := hdone (fun _ _ h ↦ heq (ClientEvent.updateCallback.inj h).1.symm) h
        exact ⟨time', (AList.lookup_insert_ne heq).trans h⟩
    | announcedCallback t =>
      refine (w'.announced_ends t).mono (fun w'' hw'' h ↦ ?_) fun _ _ ↦ trivial
      rw [hw''.2.2.2.2]
      exact hdone (fun _ _ h ↦ ClientEvent.noConfusion h) h
    | propertiesCallback _ _ => exact hdone fun _ _ h ↦ ClientEvent.noConfusion h
    | text _ => exact hdone fun _ _ h ↦ ClientEvent.noConfusion h
    | update _ _ => exact hdone fun _ _ h ↦ ClientEvent.noConfusion h
    | sentText _ => exact hdone fun _ _ h ↦ ClientEvent.noConfusion h
    | sentBinary _ => exact hdone fun _ _ h ↦ ClientEvent.noConfusion h
  · rintro ⟨time, value', h⟩
    exact absurd h List.not_mem_nil

/-! ### Calls that do not fail -/

section

variable {new : Str → Prop} {base : Instance}

theorem after_live {st : Instance}
    (hw : ∀ t, .announcedCallback t ∈ w.calls st → w.LiveAt t.name) :
    Ends (w.after st) (fun w' ↦ w'.inst = st ∧ w.Follows w') fun _ ↦ False := by
  refine (w.after_ends st).mono (fun _ ↦ id) fun _ he ↦ ?_
  obtain ⟨-, t, ht, hlive⟩ := he
  exact hlive (hw t ht)

/-- The topics that are announced are topics the local client may be told of. -/
theorem mayHear_of_calls {s : Instance} (hw : w.installed = true) (h : base.Retains new s)
    (hhistory : base.thisClient.history = w.inst.thisClient.history)
    {t : AnnouncedTopic} (ht : .announcedCallback t ∈ w.calls { s with mutexFree := true }) :
    s.Knows t ∧ base.MayHear new t.name := by
  obtain ⟨events, hevents, hknows⟩ := h.calls
  rw [hhistory] at hevents
  rw [calls_of_history hw hevents] at ht
  exact hknows t ht

/-- A call of the instance that does not fail, and the callbacks it makes. -/
theorem call_released {α : Type} {x : Except Fault (Instance × α)} {Q : Instance × α → Prop}
    {R : Instance × α → World → Prop} (hx : Safely new base x Prod.fst Q)
    (hR : ∀ r, r.1.Sound → base.Retains new r.1 → Q r →
      (∀ t, .announcedCallback t ∈ w.calls { r.1 with mutexFree := true } → w.LiveAt t.name) ∧
        Ends (w.after { r.1 with mutexFree := true }) (R r) fun _ ↦ True) :
    Ends (w.call ((fun r ↦ ({ r.1 with mutexFree := true }, r.2)) <$> x))
      (fun r ↦ ∃ s, r.1.inst = { s with mutexFree := true } ∧ s.Sound ∧ base.Retains new s ∧
        Q (s, r.2) ∧ w.Follows r.1 ∧ R (s, r.2) r.1)
      fun _ ↦ False := by
  cases x with
  | error fault => exact hx.elim
  | ok r =>
    obtain ⟨hsound, hkeeps, hQ⟩ := hx
    obtain ⟨hlive, hR⟩ := hR r hsound hkeeps hQ
    refine .map (((after_live hlive).and hR).mono (fun w' hw' ↦ ?_) fun _ he ↦ he.1)
    exact ⟨r.1, hw'.1.1, hsound, hkeeps, hQ, hw'.1.2, hw'.2⟩

theorem run_released {f : Instance → Except Fault Instance} {Q : Instance → Prop}
    {R : Instance → World → Prop} (hfree : w.inst.mutexFree = true)
    (hf : Safely new base (f { w.inst with mutexFree := false }) id Q)
    (hR : ∀ s, s.Sound → base.Retains new s → Q s →
      (∀ t, .announcedCallback t ∈ w.calls { s with mutexFree := true } → w.LiveAt t.name) ∧
        Ends (w.after { s with mutexFree := true }) (R s) fun _ ↦ True) :
    Ends (w.run (w.inst.withMutex f))
      (fun w' ↦ ∃ s, w'.inst = { s with mutexFree := true } ∧ s.Sound ∧ base.Retains new s ∧
        Q s ∧ w.Follows w' ∧ R s w')
      fun _ ↦ False := by
  have hcall := call_released (w := w) (x := (·, ()) <$> f { w.inst with mutexFree := false })
    (Q := fun r ↦ Q r.1) (R := fun r ↦ R r.1) (.map hf) fun r ↦ hR r.1
  have hx : (·, ()) <$> w.inst.withMutex f =
      (fun r : Instance × Unit ↦ ({ r.1 with mutexFree := true }, r.2)) <$>
        ((·, ()) <$> f { w.inst with mutexFree := false }) := by
    rw [Instance.withMutex, if_pos hfree]
    cases f { w.inst with mutexFree := false } <;> rfl
  rw [run, hx]
  exact .map hcall

end

end World

end NetworkTables
