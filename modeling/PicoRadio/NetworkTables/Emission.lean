import PicoRadio.NetworkTables.Moves

/-!
# Programs that make moves

`Follows K st x final Q` says of a program `x` started in the state `st`: if it ends in a value,
then moves under `K` lead from `st` to the state `final` reads off the value, and the value meets
`Q`; if it ends in a fault, then the fault is one `K` admits: a null pointer is followed only if one
was stored in `st` or may be inserted, and a meta topic is missing only if that may be. The rules
are those of `Ends`, with the moves threaded through.

The functions that tell clients things make moves and leave the topics as they are.
`sendTopicUpdate` is a broadcast.

## How the rules are used

A proof about a function of the source follows its body line by line: `Follows.bind` for every arrow
of the `do` block, `Follows.client` for a pointer that is followed, `Emits.foldlM` for a loop over
clients or topics. What comes out is a list of moves, and no lemma above this module unfolds the
body again.

## Faults

Faults are not left out. A fault is admitted (`Fault.Admitted`) if it needs a null pointer and there
may be one, or if it needs a meta topic that is missing. In a state without null pointers, under a
`K` that allows none, a fault is therefore not one of a null pointer (`Fault.Admitted.not_isNull`),
which is how the theorems about runs without a null dereference come out of the same lemmas.

## Broadcasts

The loop of `sendTopicUpdate` is the one loop that stops early: at the local client, if its callback
turns the value down. `BroadcastTo` is its invariant, with the clients that were visited as a list.
A client is either in the list, and has been sent the value if it receives it, or untouched. From
this `Broadcast` follows at the end, where `complete` is whether the loop went on to the last
client.
-/

namespace NetworkTables

open Relation

/-- A null pointer was followed, or an assertion that one is not null failed on a client. -/
def Fault.isNull : Fault → Bool
  | nullDeref | clientNull => true
  | metaTopicNull _ | invalidValue | outOfRange | localDelete => false

/-- The faults a program started in `st` may end in. -/
def Fault.Admitted (K : Allow) (st : Instance) : Fault → Prop
  | nullDeref | clientNull => ¬K.nulls → ¬st.Rooted
  | metaTopicNull _ => K.missing
  | invalidValue | outOfRange | localDelete => True

/-- A null pointer is followed in a state that has one. -/
theorem Fault.Admitted.of_isNull {K : Allow} {st : Instance} {e : Fault} (he : e.isNull)
    (h : st.Rooted → False) : e.Admitted K st := by
  cases e with
  | nullDeref | clientNull => exact fun _ ↦ h
  | metaTopicNull | invalidValue | outOfRange | localDelete => cases he

/-- Where there is no null pointer, and none may come, none is followed. -/
theorem Fault.Admitted.not_isNull {K : Allow} {st : Instance} {e : Fault} (he : e.Admitted K st)
    (hK : ¬K.nulls) (hst : st.Rooted) : e.isNull = false := by
  cases e with
  | nullDeref | clientNull => exact absurd hst (he hK)
  | metaTopicNull | invalidValue | outOfRange | localDelete => rfl

/-- A fault admitted later was admitted before, if no null pointer came in between. -/
theorem Fault.Admitted.of_rooted {K : Allow} {st st' : Instance} {e : Fault}
    (he : e.Admitted K st') (h : ¬K.nulls → st.Rooted → st'.Rooted) : e.Admitted K st := by
  cases e with
  | nullDeref | clientNull => exact fun hK hst ↦ he hK (h hK hst)
  | metaTopicNull | invalidValue | outOfRange | localDelete => exact he

section Rules

variable [FloatCodec] {K : Allow} {α β : Type}

/-- The judgement of this file; see the module's description. -/
def Follows (K : Allow) (st : Instance) (x : Except Fault α) (final : α → Instance)
    (Q : α → Prop) : Prop :=
  Ends x (fun a ↦ Moves K st (final a) ∧ Q a) (·.Admitted K st)

/-- A fault admitted after some moves is admitted before them. -/
theorem Fault.Admitted.before {st st' : Instance} (h : Moves K st st') {e : Fault}
    (he : e.Admitted K st') : e.Admitted K st :=
  he.of_rooted fun hK ↦ h.rooted hK

namespace Follows

variable {st : Instance} {x : Except Fault α} {final : α → Instance} {Q : α → Prop}

/-- A program that has ended, after these moves. -/
theorem ok {a : α} (h : Moves K st (final a)) (hQ : Q a) : Follows K st (.ok a) final Q :=
  ⟨h, hQ⟩

/-- A program that has ended in a fault. -/
theorem error {e : Fault} (h : e.Admitted K st) :
    Follows K st (.error e) final Q :=
  h

theorem imp {R : α → Prop} (h : Follows K st x final Q) (hQ : ∀ a, Q a → R a) :
    Follows K st x final R :=
  Ends.imp h fun a ha ↦ ⟨ha.1, hQ a ha.2⟩

/-- Moves made before the program runs. -/
theorem after {st' : Instance} (h : Moves K st st') (hx : Follows K st' x final Q) :
    Follows K st x final Q :=
  Ends.mono hx (fun _ ha ↦ ⟨h.trans ha.1, ha.2⟩) fun _ ↦ .before h

/-- The second program starts where the first one has ended. -/
theorem bind {f : α → Except Fault β} {final' : β → Instance} {R : β → Prop}
    (hx : Follows K st x final Q)
    (hf : ∀ a, Moves K st (final a) → Q a → Follows K (final a) (f a) final' R) :
    Follows K st (x >>= f) final' R :=
  Ends.bind hx fun a ha ↦ (hf a ha.1 ha.2).after ha.1

/-- A lookup makes no move. -/
theorem look {f : α → Except Fault β} {final' : β → Instance} {R : β → Prop}
    (hx : Ends x Q (·.Admitted K st))
    (hf : ∀ a, Q a → Follows K st (f a) final' R) : Follows K st (x >>= f) final' R :=
  Ends.bind hx hf

/-- Only the value changes. -/
theorem map {g : α → β} {final' : β → Instance} {R : β → Prop}
    (hx : Follows K st x (fun a ↦ final' (g a)) fun a ↦ R (g a)) :
    Follows K st (g <$> x) final' R :=
  Ends.map hx

/-- A loop. The moves to the state before an iteration are there to use. -/
theorem foldlM {γ : Type} {f : α → γ → Except Fault α} {l : List γ}
    (hf : ∀ b ∈ l, ∀ a, Moves K st (final a) → Q a → Follows K (final a) (f a b) final Q) {a : α}
    (ha : Moves K st (final a)) (hQ : Q a) : Follows K st (l.foldlM f a) final Q :=
  Ends.foldlM (I := fun a ↦ Moves K st (final a) ∧ Q a)
    (fun b hb a ha ↦ (hf b hb a ha.1 ha.2).after ha.1) ⟨ha, hQ⟩

end Follows

/-! ### Lookups -/

omit [FloatCodec] in
/-- The data behind any pointer are without null pointers. -/
theorem Instance.Rooted.behind {st : Instance} (hst : st.Rooted) {guid : Guid} {d : ClientData}
    (hd : st.Behind guid d) : d.Rooted st.topics := by
  rcases hd with ⟨-, rfl⟩ | hd
  · exact hst.data.2
  · exact hst.data.1 guid d hd

/-- Following the pointer of a client that is in the map. -/
theorem Follows.client {st : Instance} {guid : Guid} {fault : Fault}
    {f : ClientData → Except Fault β} {final : β → Instance} {Q : β → Prop}
    (hfault : fault.isNull) (hguid : guid ∈ st.clients)
    (hf : ∀ d, st.Behind guid d → Follows K st (f d) final Q) :
    Follows K st (st.client guid fault >>= f) final Q := by
  refine .look ((st.client_ends guid fault).mono (fun _ ↦ id) ?_) hf
  rintro e ⟨rfl, hnull | hnone⟩
  · exact .of_isNull hfault fun hst ↦ hst.clients guid hnull
  · exact absurd hguid (AList.lookup_eq_none.1 hnone)

/-- Searching the subscriptions of a client. -/
theorem Follows.isSubscribed {st : Instance} {d : ClientData} (hd : st.Rooted → d.Rooted st.topics)
    {env : Env} {name : Str} {requireNotTopicsOnly : Bool}
    {f : Option Subscription → Except Fault β} {final : β → Instance} {Q : β → Prop}
    (hf : ∀ sub,
      ((∀ s, sub = some s → (∃ uid, d.subscriptions.lookup uid = some (some s)) ∧
          s.covers name requireNotTopicsOnly) ∧
        (sub = none → ∀ uid s, d.subscriptions.lookup uid = some (some s) →
          ¬s.covers name requireNotTopicsOnly)) → Follows K st (f sub) final Q) :
    Follows K st (NetworkTables.isSubscribed env d.subscriptions name requireNotTopicsOnly >>= f)
      final Q := by
  refine .look ((isSubscribed_ends env d.subscriptions name requireNotTopicsOnly).mono
    (fun _ ↦ id) ?_) hf
  rintro e ⟨rfl, uid, huid⟩
  exact fun _ hst ↦ (hd hst).subscriptions uid huid

/-- A move of a client, whichever pointer leads to it. -/
theorem Move.setClient {st : Instance} {guid : Guid} {d d' : ClientData} (hd : st.Behind guid d)
    (h : ∀ self, ClientMove K st.topics self d d') : Move K st (st.setClient guid d') := by
  rcases hd with ⟨hself, rfl⟩ | hd
  · rw [Instance.setClient_of_self hself]
    exact .self (h true)
  · rw [Instance.setClient_of_remote hd]
    exact .remote hd (h false)

end Rules

/-! ### Programs that leave the topics alone -/

section Emits

variable [FloatCodec] {K : Allow} {α : Type}

/-- The program makes moves and leaves the topics as they are. -/
abbrev Emits (K : Allow) (st : Instance) (x : Except Fault α) (final : α → Instance) : Prop :=
  Follows K st x final fun a ↦ (final a).topics = st.topics

/-- Every turn of the loop makes moves and keeps the topics. -/
theorem Emits.foldlM {γ : Type} {st : Instance} {final : α → Instance}
    {f : α → γ → Except Fault α} {l : List γ}
    (hf : ∀ b ∈ l, ∀ a, Moves K st (final a) → (final a).topics = st.topics →
      Emits K (final a) (f a b) final) {a : α} (ha : final a = st) :
    Emits K st (l.foldlM f a) final :=
  Follows.foldlM
    (fun b hb a hm htopics ↦ (hf b hb a hm htopics).imp fun _ h ↦ h.trans htopics)
    (by rw [ha]) (by rw [ha])

variable {env : Env} {st : Instance} {name : Str} {t : TopicAt name}

/-- Announcing to the local client: an id, then the callback. -/
theorem announceTopicSelf_moves (ht : st.topics.lookup name = some (some t)) :
    Moves K st (announceTopicSelf env st t.1).1 := by
  have hannounce : Move K st
      { st with thisClient := (st.thisClient.announceTopicSelfSync t.1).1 } :=
    .self (.announceSelf ht)
  unfold announceTopicSelf
  cases env.topicAnnouncedCallback with
  | none => exact .single hannounce
  -- the call goes into the history, which is a move of its own
  | some callback => exact .tail (.single hannounce) (.self (.callback _ rfl))

omit [FloatCodec] in
/-- The local client is told, and no topic changes. -/
@[simp]
theorem topics_announceTopicSelf (env : Env) (st : Instance) (topic : Topic) :
    (announceTopicSelf env st topic).1.topics = st.topics := by
  unfold announceTopicSelf
  cases env.topicAnnouncedCallback <;> rfl

omit [FloatCodec] in
@[simp]
theorem toClientInfo_announceTopicSelf (env : Env) (st : Instance) (topic : Topic) :
    (announceTopicSelf env st topic).1.thisClient.toClientInfo = st.thisClient.toClientInfo := by
  unfold announceTopicSelf
  cases env.topicAnnouncedCallback <;> simp

/-- The callback for announcements, if there is one and one of the local client's subscriptions
matches the name, answers `true` to it. -/
def Env.AcceptsTopic (env : Env) (subscriptions : AList fun _ : Int32 ↦ Option Subscription)
    (name : Str) : Prop :=
  (∃ uid sub, subscriptions.lookup uid = some (some sub) ∧ sub.isSubscribed name) →
    ∀ callback, env.topicAnnouncedCallback = some callback →
      ∀ st topic, topic.name = name → callback st topic = true

omit [FloatCodec] in
/-- The answer is that of the callback, or true without one. -/
theorem announceTopicSelf_accepted {topic : Topic}
    (h : ∀ callback, env.topicAnnouncedCallback = some callback →
      ∀ st a, a.name = topic.name → callback st a = true) :
    (announceTopicSelf env st topic).2 = true := by
  unfold announceTopicSelf
  cases hcallback : env.topicAnnouncedCallback with
  | none => rfl
  | some callback => exact h callback hcallback _ _ rfl

/-- What an announcement of a topic leaves as it is, and when it succeeds. -/
structure Announced (env : Env) (name : Str) (st : Instance) (s : Instance × Bool) : Prop where
  topics : s.1.topics = st.topics
  subscriptions : s.1.thisClient.subscriptions = st.thisClient.subscriptions
  succeeds : env.AcceptsTopic st.thisClient.subscriptions name → s.2 = true

omit [FloatCodec] in
/-- A client that is told something is no other subscriber than before. -/
theorem Announced.setClient {s : Instance × Bool} (h : Announced env name st s) {guid : Guid}
    {d d' : ClientData} (hd : s.1.Behind guid d) (hinfo : d'.toClientInfo = d.toClientInfo) :
    Announced env name st (s.1.setClient guid d', s.2) where
  topics := (s.1.topics_setClient guid d').trans h.topics
  subscriptions := by
    rw [← h.subscriptions]
    exact Instance.subscriptions_setClient hd (congrArg ClientInfo.subscriptions hinfo)
  succeeds := h.succeeds

/-- One turn: the client is told if it asks for the topic. -/
theorem announceTopicBody_follows {s : Instance × Bool} {guid : Guid}
    (ht : s.1.topics.lookup name = some (some t)) (hguid : guid ∈ s.1.clients)
    (hs : Announced env name st s) :
    Follows K s.1 (announceTopicBody env t.1 s guid) Prod.fst (Announced env name st) := by
  unfold announceTopicBody
  refine .client rfl hguid fun d hd ↦ .isSubscribed (fun hst ↦ hst.behind hd) fun sub hsub ↦ ?_
  split
  · exact .ok .refl hs
  · next hsome =>
    split
    -- the local client, whose callback decides whether the announcement succeeds
    · next hself =>
      refine .ok (announceTopicSelf_moves ht) ⟨?_, ?_, fun haccepts ↦ ?_⟩
      · exact (topics_announceTopicSelf env s.1 t.1).trans hs.topics
      · exact (congrArg ClientInfo.subscriptions
          (toClientInfo_announceTopicSelf env s.1 t.1)).trans hs.subscriptions
      · obtain ⟨sub, rfl⟩ := Option.ne_none_iff_exists'.1 (by simpa using hsome)
        obtain ⟨⟨uid, huid⟩, hcovers⟩ := hsub.1 sub rfl
        have hd : d = s.1.thisClient := by
          rcases hd with ⟨-, hd⟩ | hd
          · exact hd
          · simp [Instance.isSelf, hd] at hself
        rw [hd, hs.subscriptions] at huid
        rw [Subscription.covers, t.2] at hcovers
        have hsubscribed : sub.isSubscribed name := by simpa using hcovers
        have hself : (announceTopicSelf env s.1 t.1).2 = true :=
          announceTopicSelf_accepted fun callback hcallback st' a ha ↦
            haccepts ⟨uid, sub, huid, hsubscribed⟩ callback hcallback st' a (ha.trans t.2)
        rw [hs.succeeds haccepts, hself]
        rfl
    -- another client gets a message, which always succeeds
    · exact .ok (.single (.setClient hd fun _ ↦ .announce ht))
        (hs.setClient hd (ClientData.toClientInfo_announceTopic d t.1))

theorem announceTopic_follows (ht : st.topics.lookup name = some (some t)) :
    Follows K st (announceTopic env st t.1) Prod.fst (Announced env name st) :=
  .foldlM (fun _ hguid _ hm hs ↦ announceTopicBody_follows (by rwa [hs.topics])
    (hm.mem_clients.2 (env.guids.mem_keys.1 hguid)) hs) .refl ⟨rfl, rfl, fun _ ↦ rfl⟩

/-- One turn: the publisher is told in any case, with its uid. -/
theorem announceTopicToPublisherBody_follows {publisherGuid : Guid} {pubuid : Int32}
    {s : Instance × Bool} {guid : Guid} (ht : s.1.topics.lookup name = some (some t))
    (hguid : guid ∈ s.1.clients) (hs : Announced env name st s) :
    Follows K s.1 (announceTopicToPublisherBody env t.1 publisherGuid pubuid s guid) Prod.fst
      (Announced env name st) := by
  unfold announceTopicToPublisherBody
  split
  · exact .client rfl hguid fun d hd ↦
      .ok (.single (.setClient hd fun _ ↦ .announceToPublisher ht pubuid))
        (hs.setClient hd (ClientData.toClientInfo_announceTopicToPublisher d t.1 pubuid))
  · exact announceTopicBody_follows ht hguid hs

theorem announceTopicToPublisher_follows {publisherGuid : Guid} {pubuid : Int32}
    (ht : st.topics.lookup name = some (some t)) :
    Follows K st (announceTopicToPublisher env publisherGuid pubuid st t.1) Prod.fst
      (Announced env name st) :=
  .foldlM (fun _ hguid _ hm hs ↦ announceTopicToPublisherBody_follows (by rwa [hs.topics])
    (hm.mem_clients.2 (env.guids.mem_keys.1 hguid)) hs) .refl ⟨rfl, rfl, fun _ ↦ rfl⟩

/-- The cached topics are announced to the local client. -/
theorem announceCachedTopicsSelf_emits : Emits K st (announceCachedTopicsSelf env st) id := by
  refine .foldlM (fun name _ s _ _ ↦ ?_) rfl
  split
  · exact .ok .refl rfl
  · next hnull => exact .error fun _ hst ↦ hst.topics name hnull
  · next t ht =>
    split
    · refine .isSubscribed (fun hst ↦ hst.data.2) fun sub _ ↦ ?_
      split
      · exact .ok (announceTopicSelf_moves ht) (topics_announceTopicSelf env s t.1)
      · exact .ok .refl rfl
    · exact .ok .refl rfl

/-- The cached topics are announced to one client. -/
theorem announceCachedTopics_emits {guid : Guid} (hguid : guid ∈ st.clients) :
    Emits K st (announceCachedTopics env st guid) id := by
  unfold announceCachedTopics
  refine .client rfl hguid fun _ _ ↦ Emits.foldlM (fun name _ s hm _ ↦ ?_) rfl
  split
  · exact .ok .refl rfl
  · next hnull => exact .error fun _ hst ↦ hst.topics name hnull
  · next t ht =>
    split
    · refine .client rfl (hm.mem_clients.2 hguid) fun d hd ↦
        .isSubscribed (fun hst ↦ hst.behind hd) fun sub _ ↦ ?_
      split
      · exact .ok (.single (.setClient hd fun _ ↦ .announce ht)) (Instance.topics_setClient _ _ _)
      · exact .ok .refl rfl
    · exact .ok .refl rfl

/-- The properties are told to those who subscribe, with an acknowledgement for the updater. -/
theorem updateTopicProperties_emits {updaterGuid : Option Guid}
    (ht : st.topics.lookup name = some (some t)) :
    Emits K st (updateTopicProperties env st t.1 updaterGuid) id := by
  refine .foldlM (fun guid hguid s hm htopics ↦ ?_) rfl
  have ht : s.topics.lookup name = some (some t) := by rwa [← htopics] at ht
  refine .client (by split <;> rfl) (hm.mem_clients.2 (env.guids.mem_keys.1 hguid)) fun d hd ↦
    .isSubscribed (fun hst ↦ hst.behind hd) fun sub _ ↦ ?_
  split
  · exact .ok .refl rfl
  · split
    · unfold sendPropertyUpdateSelf
      split
      · exact .ok (.single (.self (.callback _ rfl))) rfl
      · exact .ok .refl rfl
    · exact .ok (.single (.setClient hd fun _ ↦ .properties ht _)) (Instance.topics_setClient _ _ _)

/-- The loop over the caches of all other clients. -/
theorem flushAll_emits {flush : ClientData → ClientData}
    (hflush : ∀ self topics d, ClientMove K topics self d (flush d)) :
    Emits K st (flushAll env flush st) id := by
  refine .foldlM (fun guid hguid s hm _ ↦ ?_) rfl
  split
  · exact .ok .refl rfl
  · exact .client rfl (hm.mem_clients.2 (env.guids.mem_keys.1 hguid)) fun d hd ↦
      .ok (.single (.setClient hd fun self ↦ hflush self _ d)) (Instance.topics_setClient _ _ _)

theorem flushText_emits : Emits K st (flushText env st) id :=
  flushAll_emits fun _ _ _ ↦ .flushText _

theorem flushBinary_emits : Emits K st (flushBinary env st) id :=
  flushAll_emits fun _ _ _ ↦ .flushBinary _

/-! ### Values -/

/-- The callback for value updates, if there is one, answers `true`. -/
def Env.Accepts (env : Env) : Prop :=
  ∀ callback, env.topicUpdateCallback = some callback →
    ∀ st id time value, callback st id time value = true

omit [FloatCodec] in
/-- The local client is told a value of a topic it knows by calling the callback. -/
theorem sendTopicUpdateSelf_ends {topic : Topic} {time : UInt64}
    (hname : topic.name ∈ st.thisClient.topicData) :
    Ends (sendTopicUpdateSelf env st topic time)
      (fun r ↦ (r.1 = st ∨ ∃ e : ClientEvent, e.isCallback ∧
          r.1 = { st with thisClient := st.thisClient.record e }) ∧ (env.Accepts → r.2 = true))
      (· = .invalidValue) := by
  unfold sendTopicUpdateSelf
  cases hcallback : env.topicUpdateCallback with
  | none => exact ⟨.inl rfl, fun _ ↦ rfl⟩
  | some callback =>
    simp only [AList.subscript_of_mem hname]
    split
    · exact ⟨.inr ⟨_, rfl, rfl⟩, fun haccepts ↦ haccepts callback hcallback _ _ _ _⟩
    · exact rfl

theorem publishInitialValuesSelf_emits : Emits K st (publishInitialValuesSelf env st) id := by
  refine .foldlM (fun name _ s _ _ ↦ ?_) rfl
  split
  · exact .ok .refl rfl
  · next data hdata =>
    have hname : name ∈ s.thisClient.topicData := AList.mem_of_lookup hdata
    split
    · exact .ok .refl rfl
    · refine .isSubscribed (fun hst ↦ hst.data.2) fun sub _ ↦ ?_
      split
      · exact .ok .refl rfl
      · split
        · next t ht =>
          refine .map ((sendTopicUpdateSelf_ends (by rwa [t.2])).mono ?_ ?_)
          · intro r hr
            show Moves K s r.1 ∧ r.1.topics = s.topics
            rcases hr.1 with hr | ⟨e, he, hr⟩
            · rw [hr]
              exact ⟨.refl, rfl⟩
            · rw [hr]
              exact ⟨.single (.self (.callback e he)), rfl⟩
          · rintro e rfl
            trivial
        · next hnull => exact .error fun _ hst ↦ hst.topics name hnull
        · next hnone =>
          exact .error fun _ hst ↦
            AList.lookup_eq_none.1 hnone (hst.data.2.announced name hname)

/-- A client is sent the values of topics it was not sent any value of. -/
theorem publishInitialValues_emits {guid : Guid} (hguid : guid ∈ st.clients) :
    Emits K st (publishInitialValues env st guid) id := by
  unfold publishInitialValues
  refine .client rfl hguid fun _ _ ↦ Emits.foldlM (fun name _ s hm _ ↦ ?_) rfl
  refine .client rfl (hm.mem_clients.2 hguid) fun d hd ↦ ?_
  split
  · exact .ok .refl rfl
  · next data hdata =>
    have hname : name ∈ d.topicData := AList.mem_of_lookup hdata
    split
    · exact .ok .refl rfl
    · refine .isSubscribed (fun hst ↦ hst.behind hd) fun sub _ ↦ ?_
      split
      · exact .ok .refl rfl
      · split
        · next t ht =>
          exact .ok (.single (.setClient hd fun _ ↦ .update ht hname _))
            (Instance.topics_setClient _ _ _)
        · next hnull => exact .error fun _ hst ↦ hst.topics name hnull
        · next hnone =>
          exact .error fun _ hst ↦
            AList.lookup_eq_none.1 hnone ((hst.behind hd).announced name hname)

/-! ### Broadcasts -/

omit [FloatCodec] in
/-- Whether a client receives a value is what the search for a subscription answers. -/
theorem receives_iff {d : ClientData} {data : ClientTopicData}
    (hdata : d.topicData.lookup name = some data) :
    d.Receives name ↔ data.initialPublish ∨
      ∃ uid sub, d.subscriptions.lookup uid = some (some sub) ∧ sub.covers name true := by
  unfold ClientData.Receives
  simp [hdata]

omit [FloatCodec] in
/-- The test in the body of the broadcast. -/
theorem receives_ends {d : ClientData} {data : ClientTopicData}
    (hdata : d.topicData.lookup name = some data) :
    Ends (receivesUpdate env d name data) (fun b ↦ b = true ↔ d.Receives name)
      fun e ↦ e = .nullDeref ∧ ∃ uid, d.subscriptions.lookup uid = some none := by
  rw [receives_iff hdata]
  unfold receivesUpdate
  split
  · next h => simp [h]
  · next h =>
    have hsub := isSubscribed_ends env d.subscriptions name true
    cases hx : isSubscribed env d.subscriptions name true with
    | error e => exact hsub.of_error hx
    | ok sub =>
      obtain ⟨hsome, hnone⟩ := hsub.of_ok hx
      show sub.isSome = true ↔ _
      cases sub with
      | none =>
        refine ⟨fun hcontra ↦ (by cases hcontra), ?_⟩
        rintro (hdata | ⟨uid, s, huid, hc⟩)
        · exact absurd hdata h
        · exact absurd hc (hnone rfl uid s huid)
      | some s =>
        obtain ⟨⟨uid, huid⟩, hc⟩ := hsome s rfl
        exact ⟨fun _ ↦ .inr ⟨uid, s, huid, hc⟩, fun _ ↦ rfl⟩

/-- A broadcast that has visited the clients `done` so far. -/
structure BroadcastTo (K : Allow) (topic : Topic) (time : UInt64) (st : Instance)
    (done : List Guid) (s : Instance) : Prop where
  frame : s = { st with clients := s.clients, thisClient := s.thisClient }
  self : ReflTransGen (ClientMove K st.topics true) st.thisClient s.thisClient
  other : ∀ guid, (∀ d, st.clients.lookup guid ≠ some (.remote d)) →
    s.clients.lookup guid = st.clients.lookup guid
  sent : ∀ guid ∈ done, ∀ d, st.clients.lookup guid = some (.remote d) →
    d.Receives topic.name → s.clients.lookup guid = some (.remote (d.sendTopicUpdate topic time))
  unsent : ∀ guid d, st.clients.lookup guid = some (.remote d) →
    guid ∉ done ∨ ¬d.Receives topic.name → s.clients.lookup guid = some (.remote d)

/-- Every pointer leads to what it led to before, but for the clients that were sent the value. -/
theorem BroadcastTo.behind {topic : Topic} {time : UInt64} {done : List Guid} {s : Instance}
    (h : BroadcastTo K topic time st done s) {guid : Guid} (hguid : guid ∉ done) :
    s.clients.lookup guid = st.clients.lookup guid := by
  by_cases hd : ∃ d, st.clients.lookup guid = some (.remote d)
  · obtain ⟨d, hd⟩ := hd
    rw [hd, h.unsent guid d hd (.inl hguid)]
  · exact h.other guid fun d hd' ↦ hd ⟨d, hd'⟩

/-- At the end of the loop all clients have been visited, if it did not stop. -/
theorem BroadcastTo.broadcast {topic : Topic} {time : UInt64} {done : List Guid} {s : Instance}
    (h : BroadcastTo K topic time st done s) {complete : Prop}
    (hdone : complete → ∀ guid ∈ st.clients, guid ∈ done) :
    Broadcast K topic time complete st s where
  frame := h.frame
  self := h.self
  other := h.other
  remote guid d hd := by
    by_cases hguid : guid ∈ done
    · by_cases hr : d.Receives topic.name
      · exact .inl ⟨hr, h.sent guid hguid d hd hr⟩
      · exact .inr ⟨fun _ ↦ hr, h.unsent guid d hd (.inr hr)⟩
    · refine .inr ⟨fun hc ↦ absurd (hdone hc guid (AList.mem_of_lookup hd)) hguid, ?_⟩
      exact h.unsent guid d hd (.inl hguid)

/-- One more client is visited and it gets no value. -/
theorem BroadcastTo.skip {topic : Topic} {time : UInt64} {done : List Guid} {s : Instance}
    {guid : Guid} (h : BroadcastTo K topic time st done s)
    (hskip : ∀ d, st.clients.lookup guid = some (.remote d) → ¬d.Receives topic.name) :
    BroadcastTo K topic time st (done ++ [guid]) s where
  frame := h.frame
  self := h.self
  other := h.other
  sent guid' hguid' d hd hr := by
    rcases List.mem_append.1 hguid' with hguid' | hguid'
    · exact h.sent guid' hguid' d hd hr
    · rw [List.mem_singleton.1 hguid'] at hd
      exact absurd hr (hskip d hd)
  unsent guid' d hd hr := by
    refine h.unsent guid' d hd (hr.imp_left fun hguid' hdone ↦ hguid' ?_)
    exact List.mem_append.2 (.inl hdone)

/-- One more client is visited and it is sent the value. -/
theorem BroadcastTo.send {topic : Topic} {time : UInt64} {done : List Guid} {s : Instance}
    {guid : Guid} (h : BroadcastTo K topic time st done s) (hguid : guid ∉ done) {d : ClientData}
    (hd : s.clients.lookup guid = some (.remote d)) (hr : d.Receives topic.name) :
    BroadcastTo K topic time st (done ++ [guid])
      (s.setClient guid (d.sendTopicUpdate topic time)) :=
  by
  have hd₀ : st.clients.lookup guid = some (.remote d) := by rw [← h.behind hguid, hd]
  rw [Instance.setClient_of_remote hd]
  refine ⟨by rw [h.frame], h.self, fun guid' hnot ↦ ?_, fun guid' hguid' d' hd' hr' ↦ ?_,
    fun guid' d' hd' hnot ↦ ?_⟩
  · rw [AList.lookup_insert_ite, if_neg (by rintro rfl; exact hnot d hd₀)]
    exact h.other guid' hnot
  · rw [AList.lookup_insert_ite]
    split
    · next heq =>
      rw [heq, hd₀] at hd'
      cases hd'
      rfl
    · next hne =>
      refine h.sent guid' ?_ d' hd' hr'
      exact (List.mem_append.1 hguid').resolve_right fun hlast ↦ hne (List.mem_singleton.1 hlast)
  · rw [AList.lookup_insert_ite, if_neg]
    · exact h.unsent guid' d' hd' (hnot.imp_left fun hn hdone ↦ hn (List.mem_append.2 (.inl hdone)))
    · rintro rfl
      rcases hnot with hnot | hnot
      · exact hnot (List.mem_append.2 (.inr List.mem_cons_self))
      · rw [hd₀] at hd'
        cases hd'
        exact hnot hr

/-- The local client's callback does not touch the other clients. -/
theorem BroadcastTo.callback {topic : Topic} {time : UInt64} {done : List Guid} {s : Instance}
    (h : BroadcastTo K topic time st done s) {e : ClientEvent} (he : e.isCallback) :
    BroadcastTo K topic time st done { s with thisClient := s.thisClient.record e } where
  frame := by rw [h.frame]
  self := h.self.tail (.callback e he)
  other := h.other
  sent := h.sent
  unsent := h.unsent

theorem sendTopicUpdateBody_ends {topic : Topic} {time : UInt64} {done : List Guid} {s : Instance}
    {guid : Guid} (h : BroadcastTo K topic time st done s) (hguid : guid ∉ done)
    (hmem : guid ∈ st.clients) :
    Ends (sendTopicUpdateBody env topic time s guid)
      (fun r ↦ BroadcastTo K topic time st (done ++ [guid]) r.1 ∧ (env.Accepts → r.2 = true))
      (·.Admitted K st) := by
  have hpointer := h.behind hguid
  have hrooted {d : ClientData} (hd : s.Behind guid d) (hK : ¬K.nulls) (hst : st.Rooted) :
      d.Rooted st.topics := by
    rcases hd with ⟨-, rfl⟩ | hd
    · exact ClientMove.rooted_star hK h.self hst.data.2
    · exact hst.data.1 guid d (by rw [← hpointer, hd])
  unfold sendTopicUpdateBody
  refine ((s.client_ends guid .clientNull).mono (fun _ ↦ id) ?_).bind fun d hd ↦ ?_
  · rintro e ⟨rfl, hnull | hnone⟩
    · exact fun _ hst ↦ hst.clients guid (hpointer ▸ hnull)
    · exact absurd hmem (AList.lookup_eq_none.1 (hpointer ▸ hnone))
  have hremote {d' : ClientData} (hd' : st.clients.lookup guid = some (.remote d')) : d' = d := by
    rw [← hpointer] at hd'
    rcases hd with ⟨hself, -⟩ | hd
    · rw [hd'] at hself
      cases hself
    · rw [hd'] at hd
      cases hd
      rfl
  split
  · next hnone =>
    refine ⟨h.skip fun d' hd' hr ↦ ?_, fun _ ↦ rfl⟩
    rw [hremote hd'] at hr
    exact AList.lookup_eq_none.1 hnone hr.mem
  · next data hdata =>
    refine ((receives_ends hdata).mono (fun _ ↦ id) ?_).bind fun b hb ↦ ?_
    · rintro e ⟨rfl, uid, huid⟩
      exact fun hK hst ↦ (hrooted hd hK hst).subscriptions uid huid
    split
    · next hsub =>
      split
      · next hself =>
        have hself : s.clients.lookup guid = some .self := by simpa [Instance.isSelf] using hself
        have hd : d = s.thisClient := by
          rcases hd with ⟨-, hd⟩ | hd
          · exact hd
          · rw [hself] at hd
            cases hd
        have hskip {s' : Instance} (h' : BroadcastTo K topic time st done s') :
            BroadcastTo K topic time st (done ++ [guid]) s' :=
          h'.skip fun d' hd' ↦ by
            rw [← hpointer, hself] at hd'
            cases hd'
        refine (sendTopicUpdateSelf_ends (hd ▸ AList.mem_of_lookup hdata)).mono ?_ ?_
        · rintro r ⟨hr | ⟨e, he, hr⟩, haccepts⟩
          · exact ⟨hr ▸ hskip h, haccepts⟩
          · exact ⟨hr ▸ hskip (h.callback he), haccepts⟩
        · rintro e rfl
          trivial
      · next hself =>
        have hd : s.clients.lookup guid = some (.remote d) := by
          rcases hd with ⟨hd, -⟩ | hd
          · exact absurd hd (by simpa [Instance.isSelf] using hself)
          · exact hd
        exact ⟨h.send hguid hd (hb.1 hsub), fun _ ↦ rfl⟩
    · next hsub =>
      refine ⟨h.skip fun d' hd' hr ↦ hsub (hb.2 ?_), fun _ ↦ rfl⟩
      rwa [hremote hd'] at hr

/-- A broadcast reaches every client unless the local client's callback stops it. -/
theorem sendTopicUpdate_ends (topic : Topic) (time : UInt64) :
    Ends (sendTopicUpdate env st topic time)
      (fun r ↦ Broadcast K topic time (r.2 = true) st r.1 ∧ (env.Accepts → r.2 = true))
      (·.Admitted K st) := by
  refine (Ends.foldUntil_visited (I := BroadcastTo K topic time st) (A := env.Accepts)
    (fun done guid rest hl s hs ↦ ?_) ?_).imp ?_
  · have hnodup := env.guids.nodup_keys st.clients
    rw [hl] at hnodup
    refine sendTopicUpdateBody_ends hs ?_ ?_
    · exact fun hdone ↦ List.disjoint_of_nodup_append hnodup hdone List.mem_cons_self
    · rw [← env.guids.mem_keys, hl]
      exact List.mem_append.2 (.inr List.mem_cons_self)
  · exact ⟨rfl, .refl, fun _ _ ↦ rfl, fun _ h ↦ absurd h List.not_mem_nil, fun _ _ hd _ ↦ hd⟩
  · rintro r ⟨⟨done, hs, hdone⟩, haccepts⟩
    exact ⟨hs.broadcast fun hr guid hguid ↦ by rwa [hdone hr, env.guids.mem_keys], haccepts⟩

end Emits

end NetworkTables
