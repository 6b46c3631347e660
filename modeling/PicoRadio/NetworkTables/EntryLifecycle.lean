import PicoRadio.NetworkTables.LocalRoundTrip

/-!
# The lifecycle of an entry

The destructor of an entry closes its publisher and its subscriber, and then the destructors of
these two members close them again. An instance that is asked to close an id it does not know
inserts a null pointer for it, and a publisher that was never made fails an assertion. So an entry
that has never published ends in a fault, and one that has leaves two null pointers behind.

That goes unnoticed only in two cases (`Unnoticed`): the mutex cannot be taken, so nothing is done
at all, or the two null pointers were there before. `Life` follows what an entry has changed through
any sequence of calls, `Locked` does so for an instance that cannot be called, and `Sane` and `Over`
carry what is needed for no call to fail.

## What an entry leaves behind

Every first set after the end of a publication makes a publisher with a new id (`publishersMade`),
so the ids that an entry gives up depend on all its calls. Whether the instance is what it was
before depends on the maps of the local client alone: closing an id that is there erases it, and
closing one that is not inserts a null pointer (`dropped`).

A life without a fault needs a publication, and the value that it begins with must be valid
(`FirstValid`).
-/

namespace NetworkTables

variable [FloatCodec]

/-! ### What the local client asks for -/

/-- What anybody asks for stays, and no null pointer is inserted. -/
def Allow.unasked : Allow :=
  { Allow.all with nulls := False, asks := fun _ ↦ False }

variable {env : Env} {st s : Instance} {name : Str}

/-- A move under which nobody asks for anything leaves what was asked for. -/
theorem ClientMove.info {topics : Topics} {self : Bool} {d d' : ClientData}
    (h : ClientMove .unasked topics self d d') : d'.toClientInfo = d.toClientInfo := by
  cases h with
  | announce _ => exact d.toClientInfo_announceTopic _
  | announceToPublisher _ pubuid => exact d.toClientInfo_announceTopicToPublisher _ pubuid
  | properties _ ack => exact d.toClientInfo_sendPropertyUpdate _ ack
  | update _ _ time => exact d.toClientInfo_sendTopicUpdate _ time
  | flushText n => exact d.toClientInfo_flushText n
  | flushBinary n => exact d.toClientInfo_flushBinary n
  | subscribe hK _ => exact hK.1.elim
  | unsubscribe hK _ => exact hK.elim
  | publish hK _ _ => exact hK.elim
  | unpublish hK _ => exact hK.elim
  | nullSubscription hK _ => exact hK.elim
  | nullPublisher hK _ => exact hK.elim
  | announceSelf _ => exact d.toClientInfo_assignId _
  | callback e _ => exact d.toClientInfo_record e
  | unnumbered _ _ => rfl

/-- Any number of them. -/
theorem ClientMoves.info {topics : Topics} {self : Bool} {d d' : ClientData}
    (h : Relation.ReflTransGen (ClientMove .unasked topics self) d d') :
    d'.toClientInfo = d.toClientInfo := by
  induction h with
  | refl => rfl
  | tail _ h ih => rw [h.info, ih]

/-- A move of the server. -/
theorem Move.info (h : Move .unasked st s) :
    s.thisClient.toClientInfo = st.thisClient.toClientInfo := by
  cases h with
  | self h => exact h.info
  | assign _ _ _ _ _ _ _ h => exact ClientMoves.info h.self
  | remote _ _ | create _ _ _ _ | properties _ _ _ | nullTopic _ _ => rfl

/-- Any number of moves. -/
theorem Moves.info (h : Moves .unasked st s) :
    s.thisClient.toClientInfo = st.thisClient.toClientInfo := by
  induction h with
  | refl => rfl
  | tail _ h ih => rw [h.info, ih]

/-- A program that only tells clients something, however it fails. -/
theorem Follows.info {α : Type} {x : Except Fault α} {final : α → Instance} {Q : α → Prop}
    (h : Follows .unasked st x final Q) :
    Ends x (fun a ↦ (final a).thisClient.toClientInfo = st.thisClient.toClientInfo) fun _ ↦ True :=
  h.mono (fun _ h ↦ Moves.info h.1) fun _ _ ↦ trivial

omit [FloatCodec] in
/-- `thisClient.subscriptions` and `thisClient.publishers`. -/
structure Instance.Asks (s : Instance) (subscriptions : AList fun _ : Int32 ↦ Option Subscription)
    (publishers : AList fun _ : Int32 ↦ Option Publisher) : Prop where
  subscriptions : s.thisClient.subscriptions = subscriptions
  publishers : s.thisClient.publishers = publishers

omit [FloatCodec] in
/-- The maps are read off what the local client asks for. -/
theorem Instance.Asks.of_info (h : s.thisClient.toClientInfo = st.thisClient.toClientInfo) :
    s.Asks st.thisClient.subscriptions st.thisClient.publishers :=
  ⟨congrArg ClientInfo.subscriptions h, congrArg ClientInfo.publishers h⟩

section Dropped

variable {α : Type} {m : AList fun _ : Int32 ↦ Option α} {uid uid' : Int32}

/-- What closing an id leaves: it is erased, or the subscript operator inserts a null pointer. -/
def dropped (m : AList fun _ : Int32 ↦ Option α) (uid : Int32) : AList fun _ : Int32 ↦ Option α :=
  match m.lookup uid with
  | some (some _) => m.erase uid
  | _ => m.subscript uid none

omit [FloatCodec] in
/-- An id that is there is erased. -/
theorem dropped_of_some {a : α} (h : m.lookup uid = some (some a)) :
    dropped m uid = m.erase uid := by
  rw [dropped, h]

omit [FloatCodec] in
/-- The slip: an id that is not there gets a null pointer. -/
theorem dropped_of_not (h : ∀ a, m.lookup uid = some (some a) → False) :
    dropped m uid = m.subscript uid none := by
  rw [dropped]
  split
  · next a ha => exact (h a ha).elim
  · rfl

omit [FloatCodec] in
/-- The other ids stay. -/
theorem lookup_dropped_ne (m : AList fun _ : Int32 ↦ Option α) (hne : uid' ≠ uid) :
    (dropped m uid).lookup uid' = m.lookup uid' := by
  rw [dropped]
  split
  · exact AList.lookup_erase_ne hne
  · rw [AList.lookup_subscript, if_neg hne]

omit [FloatCodec] in
/-- An id that was open is gone. -/
theorem lookup_dropped_of_some {a : α} (h : m.lookup uid = some (some a)) :
    (dropped m uid).lookup uid = none := by
  rw [dropped_of_some h, AList.lookup_erase]

omit [FloatCodec] in
/-- One that was not is null. -/
theorem lookup_dropped_of_not (h : ∀ a, m.lookup uid = some (some a) → False) :
    (dropped m uid).lookup uid = some none := by
  rw [dropped_of_not h, AList.lookup_subscript, if_pos rfl]
  cases hp : m.lookup uid with
  | none => rfl
  | some p =>
    cases p with
    | none => rfl
    | some a => exact (h a hp).elim

end Dropped

/-- A subscription adds its id. -/
theorem localSubscribe_asks (topics : List Str) (subuid : Int32) (options : SubscriptionOptions) :
    Ends (localSubscribe env topics subuid options st)
      (fun s ↦ s.Asks (st.thisClient.subscriptions.insert subuid (some ⟨subuid, topics, options⟩))
        st.thisClient.publishers) fun _ ↦ True := by
  have hfollows : Follows .unasked (st.withSubscriptions (st.thisClient.subscriptions.insert subuid
      (some ⟨subuid, topics, options⟩))) (localSubscribe env topics subuid options st) id
      fun _ ↦ True := by
    refine (updateServerSubMetaTopic_follows (.inl trivial) trivial (.inl trivial)).bind
      fun s _ _ ↦ ?_
    refine announceCachedTopicsSelf_emits.bind fun _ _ _ ↦ ?_
    exact publishInitialValuesSelf_emits.imp fun _ _ ↦ trivial
  exact hfollows.info.imp fun s hs ↦ .of_info hs

/-- A subscription that is closed drops its id. -/
theorem localUnsubscribe_asks (subuid : Int32) :
    Ends (localUnsubscribe env subuid st)
      (fun s ↦ s.Asks (dropped st.thisClient.subscriptions subuid) st.thisClient.publishers)
      fun _ ↦ True := by
  rw [localUnsubscribe]
  split
  · next sub hsub =>
    rw [dropped_of_some hsub]
    exact (updateServerSubMetaTopic_follows (.inl trivial) trivial (.inl trivial)).info.imp
      fun s hs ↦ .of_info hs
  · next hnot =>
    rw [dropped_of_not hnot]
    exact ⟨rfl, rfl⟩

/-- A publisher that is closed drops its id. -/
theorem localUnpublish_asks (pubuid : Int32) :
    Ends (localUnpublish env pubuid st)
      (fun s ↦ s.Asks st.thisClient.subscriptions (dropped st.thisClient.publishers pubuid))
      fun _ ↦ True := by
  rw [localUnpublish]
  split
  · next pub hpub =>
    rw [dropped_of_some hpub]
    exact (updateServerPubMetaTopic_follows (.inl trivial) trivial (.inl trivial)).info.imp
      fun s hs ↦ .of_info hs
  · next hnot =>
    rw [dropped_of_not hnot]
    exact ⟨rfl, rfl⟩

/-- The publication itself asks for nothing, once the publisher is in the map. -/
theorem publishOrLookUp_info (name : Str) (type : NTDataType) (properties : TopicProperties) :
    Ends (publishOrLookUp env name type properties st)
      (fun r ↦ r.1.thisClient.toClientInfo = st.thisClient.toClientInfo) fun _ ↦ True := by
  rw [publishOrLookUp]
  split
  · refine ((publishTopicSelfSync_follows (K := .unasked) (.inl trivial)
      (fun _ ↦ ⟨⟨trivial, trivial⟩, trivial, trivial⟩) (.inl trivial)).info).imp fun r hr ↦ ?_
    rw [hr, thisClient_getOrCreateTopic]
  · trivial
  · exact st.thisClient.toClientInfo_assignId _

omit [FloatCodec] in
/-- Packing follows every pointer. -/
theorem packAll_ok {α : Type} (pack : α → Bytes) (m : AList fun _ : Int32 ↦ Option α) :
    Ends (packAll env pack m) (fun _ ↦ ∀ uid, m.lookup uid ≠ some none) fun _ ↦ True := by
  refine Ends.bind (Q := fun _ ↦ ∀ uid, m.lookup uid ≠ some none) ?_ fun _ h ↦ h
  refine (Ends.foldlM_visited (I := fun done _ ↦ ∀ uid ∈ done, m.lookup uid ≠ some none)
    (E := fun _ ↦ True) (fun done uid rest _ packed hdone ↦ ?_) (List.forall_mem_nil _)).imp
    fun _ h uid hnull ↦ h uid (env.uids.mem_keys.2 (AList.mem_of_lookup hnull)) hnull
  have hvisited (hp : m.lookup uid ≠ some none) :
      ∀ uid' ∈ done ++ [uid], m.lookup uid' ≠ some none := by
    intro uid' huid'
    rcases List.mem_append.1 huid' with huid' | huid'
    · exact hdone uid' huid'
    · rwa [List.mem_singleton.1 huid']
  split
  · next hp => exact hvisited (by rw [hp]; exact fun h ↦ by cases h)
  · trivial
  · next a hp => exact hvisited (by rw [hp]; exact fun h ↦ by cases h)

/-- A publication packs all publishers of the local client. -/
theorem localPublish_asks (name : Str) (pubuid : Int32) (type : NTDataType)
    (properties : TopicProperties) :
    Ends (localPublish env name pubuid type properties st)
      (fun r ↦ r.1.Asks st.thisClient.subscriptions
          (st.thisClient.publishers.insert pubuid (some ⟨pubuid, name⟩)) ∧
        ∀ uid ≠ pubuid, st.thisClient.publishers.lookup uid ≠ some none) fun _ ↦ True := by
  let st₁ := st.withPublishers (st.thisClient.publishers.insert pubuid (some ⟨pubuid, name⟩))
  refine (@publishOrLookUp_info _ env st₁ name type properties).bind fun r hr ↦ ?_
  have hupdate := (@updateServerPubMetaTopic_follows _ _ env r.1 (.inl trivial) trivial
    (.inl trivial)).info
  have hpacked : Ends (updateServerPubMetaTopic env r.1)
      (fun _ ↦ ∀ uid, r.1.thisClient.publishers.lookup uid ≠ some none) fun _ ↦ True :=
    (packAll_ok _ _).bind fun _ h ↦ .of_forall (fun _ ↦ h) fun _ ↦ trivial
  refine Ends.bind ((hupdate.and hpacked).mono (fun _ ↦ id) fun _ _ ↦ trivial) fun s hs ↦ ?_
  have hinfo : s.thisClient.toClientInfo = st₁.thisClient.toClientInfo := hs.1.trans hr
  refine ⟨@Instance.Asks.of_info st₁ _ hinfo, fun uid hne hnull ↦ hs.2 uid ?_⟩
  rw [congrArg ClientInfo.publishers hr]
  show (st.thisClient.publishers.insert pubuid (some ⟨pubuid, name⟩)).lookup uid = _
  rw [AList.lookup_insert_ne hne, hnull]

/-- Sending a value of a publisher that is there. -/
theorem localUpdateTopic_asks {pubuid : Int32} {pub : Publisher}
    (value : NTDataValue) (time : UInt64)
    (hpub : st.thisClient.publishers.lookup pubuid = some (some pub)) :
    Ends (localUpdateTopic env pubuid value time st)
      (fun s ↦ s.Asks st.thisClient.subscriptions st.thisClient.publishers) fun _ ↦ True := by
  rw [localUpdateTopic, hpub]
  show Ends (updatePublished env pub value _ st) _ _
  by_cases hname : pub.topic ∈ st.topics
  · exact (updatePublished_follows (.inl trivial) trivial (.inl hname)).info.imp
      fun s hs ↦ .of_info hs
  · rw [updatePublished, AList.lookup_eq_none.2 hname]
    exact ⟨rfl, rfl⟩

/-! ### Lifecycles -/

/-- A call of a member function of an entry that changes something. -/
inductive EntryCall
  | set (call : SetCall) (time : Option UInt64)
  | unpublish
  | close

/-- What the call does to the world and to the entry. -/
def EntryCall.run (env : Env) (r : World × NTEntry) :
    EntryCall → Except LocalFault (World × NTEntry)
  | set call time => (fun s ↦ (s.1, s.2.1)) <$> r.2.set env call time r.1
  | unpublish => r.2.unpublish env r.1
  | close => r.2.close env r.1

/-- An entry is made, called and destroyed. -/
def NTEntry.lifecycle (env : Env) (this : ℕ) (topic : Str) (defaultValue : Option NTDataValue)
    (properties : Option TopicProperties) (calls : List (Env × EntryCall)) (final : Env)
    (w : World) : Except LocalFault World := do
  let r ← NTEntry.make env this topic defaultValue properties w
  let r ← calls.foldlM (fun r c ↦ c.2.run c.1 r) r
  r.2.destroy final r.1

omit [FloatCodec] in
/-- How many publishers the calls make: one for the first set, and one for the first set after each
end of a publication. -/
def publishersMade : Bool → List (Env × EntryCall) → ℕ
  | _, [] => 0
  | true, (_, .set _ _) :: calls => publishersMade true calls
  | false, (_, .set _ _) :: calls => publishersMade true calls + 1
  | _, (_, .unpublish) :: calls | _, (_, .close) :: calls => publishersMade false calls

/-- What the entry leaves of the first world: `made` publishers have been made. -/
structure Life (w₀ : World) (made : ℕ) (w : World) (e : NTEntry) : Prop where
  free : w.inst.mutexFree = true
  sub : ∃ s, w.subscribers.lookup e.sub = some s ∧ s.subuid = w₀.NEXT_SUBSCRIBER_ID
  next : w.NEXT_PUBLISHER_ID.toInt = w₀.NEXT_PUBLISHER_ID.toInt + made
  unmade : made = 0 → e.publishing = false ∧ e.pub.nt = false
  published : 0 < made → e.pub.nt = true ∧ e.pub.pubuid.toInt + 1 = w.NEXT_PUBLISHER_ID.toInt ∧
    ∀ uid ≠ w₀.NEXT_PUBLISHER_ID, w₀.inst.thisClient.publishers.lookup uid ≠ some none
  opened : e.publishing = true →
    ∃ pub, w.inst.thisClient.publishers.lookup e.pub.pubuid = some (some pub)
  closed : 0 < made → e.publishing = false →
    w.inst.thisClient.publishers.lookup e.pub.pubuid = none
  subscriptions : ∀ uid ≠ w₀.NEXT_SUBSCRIBER_ID,
    w.inst.thisClient.subscriptions.lookup uid = w₀.inst.thisClient.subscriptions.lookup uid
  publishers : made ≤ 1 → ∀ uid, uid ≠ w₀.NEXT_PUBLISHER_ID ∨ made = 0 →
    w.inst.thisClient.publishers.lookup uid = w₀.inst.thisClient.publishers.lookup uid

section Calls

variable {w w' w₀ : World} {made : ℕ} {e : NTEntry} {this : ℕ}

omit [FloatCodec] in
/-- What a call of the instance does to the records of the local client. -/
theorem World.run_asks {f : Instance → Except Fault Instance}
    {subscriptions : AList fun _ : Int32 ↦ Option Subscription}
    {publishers : AList fun _ : Int32 ↦ Option Publisher} (hfree : w.inst.mutexFree = true)
    (hf : Ends (f { w.inst with mutexFree := false }) (·.Asks subscriptions publishers)
      fun _ ↦ True) :
    Ends (w.run (w.inst.withMutex f))
      (fun w' ↦ (w'.inst.mutexFree = true ∧ w'.inst.Asks subscriptions publishers) ∧ w.Follows w')
      fun _ ↦ True := by
  refine World.run_ends (Q := fun st ↦ st.mutexFree = true ∧ st.Asks subscriptions publishers) ?_
  rw [Instance.withMutex, if_pos hfree]
  exact hf.bind fun s hs ↦ ⟨rfl, hs.subscriptions, hs.publishers⟩

omit [FloatCodec] in
/-- A call keeps the ids that are handed out, and the subscriber its own. -/
theorem Life.follow (h : Life w₀ made w e) (hfollows : w.Follows w')
    (hfree : w'.inst.mutexFree = true) {publishing : Bool} (hunmade : made = 0 → publishing = false)
    (hopened : publishing = true →
      ∃ pub, w'.inst.thisClient.publishers.lookup e.pub.pubuid = some (some pub))
    (hclosed : 0 < made → publishing = false →
      w'.inst.thisClient.publishers.lookup e.pub.pubuid = none)
    (hsubs : ∀ uid ≠ w₀.NEXT_SUBSCRIBER_ID,
      w'.inst.thisClient.subscriptions.lookup uid = w.inst.thisClient.subscriptions.lookup uid)
    (hpubs : made ≤ 1 → ∀ uid, uid ≠ w₀.NEXT_PUBLISHER_ID ∨ made = 0 →
      w'.inst.thisClient.publishers.lookup uid = w.inst.thisClient.publishers.lookup uid) :
    Life w₀ made w' { e with publishing } where
  free := hfree
  sub := by
    obtain ⟨s, hs, hsubuid⟩ := h.sub
    obtain ⟨s', hs', hsubuid'⟩ := hfollows.subscriber_subuid hs
    exact ⟨s', hs', hsubuid'.trans hsubuid⟩
  next := by rw [hfollows.nextPublisher, h.next]
  unmade hmade := ⟨hunmade hmade, (h.unmade hmade).2⟩
  published hmade := by
    rw [hfollows.nextPublisher]
    exact h.published hmade
  opened := hopened
  closed := hclosed
  subscriptions uid hne := (hsubs uid hne).trans (h.subscriptions uid hne)
  publishers hle uid huid := (hpubs hle uid huid).trans (h.publishers hle uid huid)

/-- A value is set, or the test fails: what the local client asks for stays. -/
theorem Life.setIf (h : Life w₀ made w e) (hopen : e.publishing = true) (test : Bool)
    (value : NTDataValue) (time : Option UInt64) :
    Ends (NTPublisher.setIf env e.pub test value time w) (fun r ↦ Life w₀ made r.1 e)
      fun _ ↦ True := by
  rw [NTPublisher.setIf]
  split
  · trivial
  · split
    · exact h
    · obtain ⟨pub, hpub⟩ := h.opened hopen
      refine .map ((World.run_asks h.free (localUpdateTopic_asks value _ hpub)).imp fun w' hw' ↦ ?_)
      obtain ⟨⟨hfree, hsubs, hpubs⟩, hfollows⟩ := hw'
      refine h.follow hfollows hfree (fun hmade ↦ (h.unmade hmade).1) ?_ ?_ ?_ ?_
      · rw [hpubs]
        exact h.opened
      · rw [hpubs]
        exact h.closed
      · rw [hsubs]
        exact fun _ _ ↦ rfl
      · rw [hpubs]
        exact fun _ _ _ ↦ rfl

/-- The setters of a publisher. The test fails for a value that is not valid. -/
theorem SetCall.publisher_eq (call : SetCall) (env : Env) (pub : NTPublisher) (time : Option UInt64)
    (w : World) : ∃ test, call.publisher env pub time w =
        NTPublisher.setIf env pub test call.value time w ∧
      (pub.topic.type ≠ .unassigned → test = true → call.value.isValid) := by
  cases call with
  | set value =>
    refine ⟨_, rfl, fun htype htest ↦ ?_⟩
    rw [decide_eq_true_iff] at htest
    refine decide_eq_true fun hvalue ↦ htype ?_
    have hvalue : value.type = .unassigned := hvalue
    rw [htest, NTDataValue.getAPIType, hvalue]
    rfl
  | _ => exact ⟨_, rfl, fun _ _ ↦ rfl⟩

/-- Any of the setters of the publisher. -/
theorem Life.set_publisher (h : Life w₀ made w e) (hopen : e.publishing = true) (call : SetCall)
    (time : Option UInt64) :
    Ends (call.publisher env e.pub time w) (fun r ↦ Life w₀ made r.1 e) fun _ ↦ True := by
  obtain ⟨test, htest, -⟩ := call.publisher_eq env e.pub time w
  rw [htest]
  exact h.setIf hopen test _ time

omit [FloatCodec] in
/-- The next id, unless it overflows. -/
theorem toInt_succ {id : Int32} (h : id ≠ Int32.maxValue) : (id + 1).toInt = id.toInt + 1 := by
  have hlt : id.toInt < 2 ^ 31 - 1 := by
    refine lt_of_le_of_ne id.toInt_le fun heq ↦ h (Int32.toInt.inj ?_)
    exact heq
  have hge := id.le_toInt
  rw [Int32.toInt_add]
  show (id.toInt + 1).bmod _ = _
  refine Int.bmod_eq_of_le ?_ ?_
  · omega
  · omega

/-- A publisher is made in the place of the one before. -/
theorem Life.publish (h : Life w₀ made w e)
    (hmax : w.NEXT_PUBLISHER_ID ≠ Int32.maxValue) (name : Str)
    (type : NTDataType) (properties : TopicProperties) :
    Ends (World.call { w with NEXT_PUBLISHER_ID := w.NEXT_PUBLISHER_ID + 1 }
        (NetworkTables.publish (w.env env) name w.NEXT_PUBLISHER_ID type properties w.inst))
      (fun r ↦ Life w₀ (made + 1) r.1 { e with
        publishing := true
        pub := ⟨true, .ofAnnounced r.2, w.NEXT_PUBLISHER_ID⟩ }) fun _ ↦ True := by
  let w₁ : World := { w with NEXT_PUBLISHER_ID := w.NEXT_PUBLISHER_ID + 1 }
  let publishers := w.inst.thisClient.publishers.insert w.NEXT_PUBLISHER_ID
    (some ⟨w.NEXT_PUBLISHER_ID, name⟩)
  have hpublish : Ends
      (NetworkTables.publish (w.env env) name w.NEXT_PUBLISHER_ID type properties w.inst)
      (fun r ↦ r.1.mutexFree = true ∧ r.1.Asks w.inst.thisClient.subscriptions publishers ∧
        ∀ uid ≠ w.NEXT_PUBLISHER_ID, w.inst.thisClient.publishers.lookup uid ≠ some none)
      fun _ ↦ True := by
    rw [publish_of_free h.free]
    refine .map ((localPublish_asks name w.NEXT_PUBLISHER_ID type properties).imp fun r hr ↦ ?_)
    exact ⟨rfl, ⟨hr.1.subscriptions, hr.1.publishers⟩, hr.2⟩
  refine (World.call_ends (w := w₁) (Q := fun st _ ↦ st.mutexFree = true ∧
    st.Asks w.inst.thisClient.subscriptions publishers ∧
    ∀ uid ≠ w.NEXT_PUBLISHER_ID, w.inst.thisClient.publishers.lookup uid ≠ some none)
    hpublish).imp fun r hr ↦ ?_
  obtain ⟨⟨hfree, ⟨hsubs, hpubs⟩, hnull⟩, hfollows⟩ := hr
  have hnext : r.1.NEXT_PUBLISHER_ID.toInt = w.NEXT_PUBLISHER_ID.toInt + 1 := by
    rw [hfollows.nextPublisher]
    exact toInt_succ hmax
  have hfirst (hmade : made = 0) : w.NEXT_PUBLISHER_ID = w₀.NEXT_PUBLISHER_ID := by
    refine Int32.toInt.inj ?_
    rw [h.next, hmade]
    exact add_zero _
  refine ⟨hfree, ?_, ?_, fun hmade ↦ absurd hmade (Nat.succ_ne_zero _),
    fun _ ↦ ⟨rfl, hnext.symm, fun uid hne ↦ ?_⟩, fun _ ↦ ⟨⟨w.NEXT_PUBLISHER_ID, name⟩, ?_⟩,
    fun _ hpublishing ↦ Bool.noConfusion hpublishing, fun uid hne ↦ ?_, fun hle uid huid ↦ ?_⟩
  · obtain ⟨s, hs, hsubuid⟩ := h.sub
    obtain ⟨s', hs', hsubuid'⟩ := hfollows.subscriber_subuid (w := w₁) hs
    exact ⟨s', hs', hsubuid'.trans hsubuid⟩
  · rw [hnext, h.next]
    push_cast
    exact add_assoc _ _ _
  -- the first publication packs all the publishers that were there before
  · rcases Nat.eq_zero_or_pos made with hmade | hmade
    · rw [← h.publishers (by omega) uid (.inr hmade)]
      exact hnull uid (by rwa [hfirst hmade])
    · exact (h.published hmade).2.2 uid hne
  · rw [hpubs]
    exact AList.lookup_insert _
  · rw [hsubs]
    exact h.subscriptions uid hne
  · have hmade : made = 0 := by omega
    have hne : uid ≠ w.NEXT_PUBLISHER_ID := by
      rw [hfirst hmade]
      exact huid.resolve_right (Nat.succ_ne_zero _)
    rw [hpubs, AList.lookup_insert_ne hne]
    exact h.publishers (by omega) uid (.inr hmade)

/-- One more publisher, with the next id. -/
theorem Life.make_publisher (h : Life w₀ made w e) (name : Str) (value : NTDataValue)
    (time : Option UInt64) (properties : TopicProperties) :
    Ends (NTPublisher.make env name value time properties w)
      (fun r ↦ Life w₀ (made + 1) r.1 { e with publishing := true, pub := r.2 }) fun _ ↦ True := by
  rw [NTPublisher.make]
  by_cases hmax : w.NEXT_PUBLISHER_ID = Int32.maxValue
  · rw [World.nextId, if_pos hmax]
    trivial
  · rw [World.nextId_of_ne hmax, ok_bind]
    refine Ends.bind (h.publish hmax name value.type properties) fun r hr ↦ ?_
    exact (hr.set_publisher rfl (.set value) time).bind fun s hs ↦ hs

omit [FloatCodec] in
/-- The first publisher has the id that was next. -/
theorem Life.pubuid_eq (h : Life w₀ 1 w e) : e.pub.pubuid = w₀.NEXT_PUBLISHER_ID := by
  have hpubuid := (h.published Nat.one_pos).2.1
  have hnext := h.next
  push_cast at hnext
  exact Int32.toInt.inj (by omega)

/-- The end of a publication leaves the subscriptions as they are. -/
theorem Life.unpublish (h : Life w₀ made w e) :
    Ends (e.unpublish env w)
      (fun r ↦ Life w₀ made r.1 r.2 ∧ r.2 = { e with publishing := false } ∧
        r.1.inst.thisClient.subscriptions = w.inst.thisClient.subscriptions) fun _ ↦ True := by
  rw [NTEntry.unpublish]
  split
  · next hopen =>
    obtain ⟨pub, hpub⟩ := h.opened hopen
    rw [NTPublisher.close]
    split
    · trivial
    · refine Ends.bind (World.run_asks h.free (localUnpublish_asks e.pub.pubuid)) fun w' hw' ↦ ?_
      obtain ⟨⟨hfree, hsubs, hpubs⟩, hfollows⟩ := hw'
      refine ⟨h.follow hfollows hfree (fun _ ↦ rfl) (fun hf ↦ Bool.noConfusion hf) ?_ ?_ ?_, rfl,
        hsubs⟩
      · rw [hpubs]
        exact fun _ _ ↦ lookup_dropped_of_some hpub
      · rw [hsubs]
        exact fun _ _ ↦ rfl
      · rw [hpubs]
        intro hle uid huid
        have hmade : made ≠ 0 := fun hmade ↦ by
          rw [(h.unmade hmade).1] at hopen
          exact Bool.noConfusion hopen
        obtain rfl : made = 1 := by omega
        refine lookup_dropped_ne _ ?_
        rw [h.pubuid_eq]
        exact huid.resolve_right hmade
  · next hclosed =>
    have hclosed : e.publishing = false := by simpa using hclosed
    exact ⟨h, by rw [← hclosed], rfl⟩

/-- Closing the subscriber drops the id it has had from the beginning. -/
theorem Life.close_sub (h : Life w₀ made w e) :
    Ends (NTSubscriber.close env e.sub w)
      (fun w' ↦ Life w₀ made w' e ∧ w'.inst.thisClient.subscriptions =
        dropped w.inst.thisClient.subscriptions w₀.NEXT_SUBSCRIBER_ID) fun _ ↦ True := by
  obtain ⟨s, hs, hsubuid⟩ := h.sub
  rw [NTSubscriber.close, World.subscriber, hs, ok_bind, hsubuid]
  refine (World.run_asks h.free (localUnsubscribe_asks w₀.NEXT_SUBSCRIBER_ID)).imp fun w' hw' ↦ ?_
  obtain ⟨⟨hfree, hsubs, hpubs⟩, hfollows⟩ := hw'
  refine ⟨h.follow hfollows hfree (fun hmade ↦ (h.unmade hmade).1) ?_ ?_ ?_ ?_, hsubs⟩
  · rw [hpubs]
    exact h.opened
  · rw [hpubs]
    exact h.closed
  · rw [hsubs]
    exact fun uid hne ↦ lookup_dropped_ne _ hne
  · rw [hpubs]
    exact fun _ _ _ ↦ rfl

/-- Closing the entry drops the id of its subscriber and ends its publication. -/
theorem Life.close (h : Life w₀ made w e) :
    Ends (e.close env w)
      (fun r ↦ Life w₀ made r.1 r.2 ∧ r.2 = { e with publishing := false } ∧
        r.1.inst.thisClient.subscriptions =
          dropped w.inst.thisClient.subscriptions w₀.NEXT_SUBSCRIBER_ID) fun _ ↦ True := by
  rw [NTEntry.close]
  refine h.unpublish.bind fun r hr ↦ ?_
  obtain ⟨hlife, he, hsubs⟩ := hr
  refine hlife.close_sub.bind fun w' hw' ↦ ⟨hw'.1, he, ?_⟩
  rw [hw'.2, hsubs]

/-- The members are closed once more: null pointers are left behind. -/
theorem Life.destroy (h : Life w₀ made w e) :
    Ends (e.destroy env w)
      (fun w' ↦ 0 < made ∧
        w'.inst.thisClient.subscriptions.lookup w₀.NEXT_SUBSCRIBER_ID = some none ∧
        w'.inst.thisClient.publishers.lookup e.pub.pubuid = some none ∧
        (∀ uid ≠ w₀.NEXT_SUBSCRIBER_ID, w'.inst.thisClient.subscriptions.lookup uid =
          w₀.inst.thisClient.subscriptions.lookup uid) ∧
        (made = 1 → ∀ uid ≠ w₀.NEXT_PUBLISHER_ID, w'.inst.thisClient.publishers.lookup uid =
          w₀.inst.thisClient.publishers.lookup uid)) fun _ ↦ True := by
  rw [NTEntry.destroy]
  refine h.close.bind fun r hr ↦ ?_
  obtain ⟨hlife, he, hsubs⟩ := hr
  rw [he] at hlife ⊢
  rw [NTPublisher.close]
  split
  · trivial
  · next hnt =>
    have hmade : 0 < made := Nat.pos_of_ne_zero fun hmade ↦ hnt (by rw [(h.unmade hmade).2]; rfl)
    refine Ends.bind (World.run_asks hlife.free (localUnpublish_asks e.pub.pubuid)) fun w' hw' ↦ ?_
    obtain ⟨⟨hfree, hsubs', hpubs'⟩, hfollows⟩ := hw'
    obtain ⟨s, hs, hsubuid⟩ := hlife.sub
    obtain ⟨s', hs', hsubuid'⟩ := hfollows.subscriber_subuid hs
    rw [NTSubscriber.destroy, NTSubscriber.close, World.subscriber, hs', ok_bind,
      hsubuid'.trans hsubuid]
    refine Ends.bind (World.run_asks hfree (localUnsubscribe_asks w₀.NEXT_SUBSCRIBER_ID))
      fun w'' hw'' ↦ ?_
    obtain ⟨⟨-, hsubs'', hpubs''⟩, -⟩ := hw''
    refine ⟨hmade, ?_, ?_, fun uid hne ↦ ?_, fun hone uid hne ↦ ?_⟩
    -- closed before, the subscriber is not there
    · show w''.inst.thisClient.subscriptions.lookup _ = _
      rw [hsubs'', hsubs', hsubs]
      refine lookup_dropped_of_not fun a ha ↦ ?_
      by_cases hopen : ∃ a, w.inst.thisClient.subscriptions.lookup
        w₀.NEXT_SUBSCRIBER_ID = some (some a)
      · obtain ⟨a, ha'⟩ := hopen
        rw [lookup_dropped_of_some ha'] at ha
        cases ha
      · rw [lookup_dropped_of_not fun a ha ↦ hopen ⟨a, ha⟩] at ha
        cases ha
    -- and neither is the publisher
    · show w''.inst.thisClient.publishers.lookup _ = _
      rw [hpubs'', hpubs']
      refine lookup_dropped_of_not fun a ha ↦ ?_
      rw [hlife.closed hmade rfl] at ha
      cases ha
    · show w''.inst.thisClient.subscriptions.lookup _ = _
      rw [hsubs'', lookup_dropped_ne _ hne, hsubs']
      exact hlife.subscriptions uid hne
    · show w''.inst.thisClient.publishers.lookup _ = _
      subst hone
      rw [hpubs'', hpubs', lookup_dropped_ne _ (by rwa [hlife.pubuid_eq])]
      exact hlife.publishers le_rfl uid (.inl hne)

/-- A setter makes a publisher if there is none. -/
theorem Life.set (h : Life w₀ made w e) (call : SetCall) (time : Option UInt64) :
    Ends (e.set env call time w)
      (fun r ↦ Life w₀ (if e.publishing then made else made + 1) r.1 r.2.1 ∧
        r.2.1.publishing = true) fun _ ↦ True := by
  rw [NTEntry.set]
  split
  · next hopen => exact (h.set_publisher hopen call time).bind fun r hr ↦ ⟨hr, hopen⟩
  · refine Ends.bind_any fun s ↦ ?_
    exact (h.make_publisher s.topic.name call.value time e.pubProperties).bind fun r hr ↦ ⟨hr, rfl⟩

omit [FloatCodec] in
/-- A call that ends the publication. -/
theorem publishersMade_cons {c : EntryCall} (hc : c = .unpublish ∨ c = .close) (publishing : Bool)
    (env : Env) (calls : List (Env × EntryCall)) :
    publishersMade publishing ((env, c) :: calls) = publishersMade false calls := by
  rcases hc with rfl | rfl <;> cases publishing <;> rfl

omit [FloatCodec] in
/-- A setter makes a publisher if there is none. -/
theorem publishersMade_set (env : Env) (call : SetCall) (time : Option UInt64) (publishing : Bool)
    (calls : List (Env × EntryCall)) (made : ℕ) :
    made + publishersMade publishing ((env, .set call time) :: calls) =
      (if publishing then made else made + 1) + publishersMade true calls := by
  cases publishing with
  | true => rfl
  | false =>
    show made + (publishersMade true calls + 1) = made + 1 + publishersMade true calls
    omega

/-- The publishers that a sequence of calls makes are counted. -/
theorem Life.calls (calls : List (Env × EntryCall)) (h : Life w₀ made w e) :
    Ends (calls.foldlM (fun r c ↦ c.2.run c.1 r) (w, e))
      (fun r ↦ Life w₀ (made + publishersMade e.publishing calls) r.1 r.2) fun _ ↦ True := by
  induction calls generalizing made w e with
  | nil => exact h
  | cons c calls ih =>
    rw [List.foldlM_cons]
    obtain ⟨env, call⟩ := c
    cases call with
    | set call time =>
      refine Ends.bind (Q := fun r : World × NTEntry ↦
        Life w₀ (if e.publishing then made else made + 1) r.1 r.2 ∧ r.2.publishing = true)
        (.map (h.set call time)) fun r hr ↦ ?_
      have hcalls := ih hr.1
      rw [hr.2, ← publishersMade_set env call time] at hcalls
      exact hcalls
    | unpublish =>
      refine Ends.bind h.unpublish fun r hr ↦ ?_
      have hcalls := ih hr.1
      have hclosed : r.2.publishing = false := by rw [hr.2.1]
      rw [hclosed] at hcalls
      rw [publishersMade_cons (.inl rfl)]
      exact hcalls
    | close =>
      refine Ends.bind h.close fun r hr ↦ ?_
      have hcalls := ih hr.1
      have hclosed : r.2.publishing = false := by rw [hr.2.1]
      rw [hclosed] at hcalls
      rw [publishersMade_cons (.inr rfl)]
      exact hcalls

/-- The subscriber is made first. -/
theorem NTSubscriber.make_life (hfree : w.inst.mutexFree = true) (topic : Str)
    (pubProperties : TopicProperties) :
    Ends (NTSubscriber.make env this topic w)
      (fun w' ↦ Life w 0 w' ⟨false, pubProperties, this, .none⟩ ∧
        ∃ sub, w'.inst.thisClient.subscriptions.lookup w.NEXT_SUBSCRIBER_ID = some (some sub))
      fun _ ↦ True := by
  rw [NTSubscriber.make]
  refine .bind_any fun next ↦ ?_
  let w₁ : World := { register this topic w with
    NEXT_SUBSCRIBER_ID := next
    subscribers := w.subscribers.insert this ⟨{ name := topic }, w.NEXT_SUBSCRIBER_ID⟩ }
  refine (World.run_asks (w := w₁) hfree
    (localSubscribe_asks [topic] w.NEXT_SUBSCRIBER_ID .DEFAULT)).imp fun w' hw' ↦ ?_
  obtain ⟨⟨hfree', hsubs, hpubs⟩, hfollows⟩ := hw'
  refine ⟨⟨hfree', ?_, ?_, fun _ ↦ ⟨rfl, rfl⟩, fun h ↦ absurd h (Nat.lt_irrefl 0),
    fun h ↦ Bool.noConfusion h, fun h ↦ absurd h (Nat.lt_irrefl 0), fun uid hne ↦ ?_,
    fun _ uid _ ↦ ?_⟩, ⟨w.NEXT_SUBSCRIBER_ID, [topic], .DEFAULT⟩, ?_⟩
  · exact hfollows.subscriber_subuid (w := w₁) (AList.lookup_insert _)
  · rw [hfollows.nextPublisher]
    exact (add_zero _).symm
  · rw [hsubs]
    exact AList.lookup_insert_ne hne
  · rw [hpubs]
    rfl
  · rw [hsubs]
    exact AList.lookup_insert _

/-- The constructor makes a subscriber, and a publisher if there is a default value. -/
theorem NTEntry.make_life (hfree : w.inst.mutexFree = true) (topic : Str)
    (defaultValue : Option NTDataValue) (properties : Option TopicProperties) :
    Ends (NTEntry.make env this topic defaultValue properties w)
      (fun r ↦ Life w (if defaultValue.isSome then 1 else 0) r.1 r.2 ∧
        r.2.publishing = defaultValue.isSome) fun _ ↦ True := by
  rw [NTEntry.make]
  refine (NTSubscriber.make_life hfree topic (properties.getD .DEFAULT)).bind fun w' hw' ↦ ?_
  cases defaultValue with
  | none => exact ⟨hw'.1, rfl⟩
  | some value =>
    exact (hw'.1.make_publisher topic value none _).bind fun r hr ↦ ⟨hr, rfl⟩

/-- The number of publishers an entry makes in its life. -/
def publishersOf (defaultValue : Option NTDataValue) (calls : List (Env × EntryCall)) : ℕ :=
  (if defaultValue.isSome then 1 else 0) + publishersMade defaultValue.isSome calls

/-- What a life leaves behind. -/
theorem NTEntry.lifecycle_leaves (hfree : w.inst.mutexFree = true) (topic : Str)
    (defaultValue : Option NTDataValue) (properties : Option TopicProperties)
    (calls : List (Env × EntryCall)) (final : Env) :
    Ends (NTEntry.lifecycle env this topic defaultValue properties calls final w)
      (fun w' ↦ 0 < publishersOf defaultValue calls ∧
        w.NEXT_PUBLISHER_ID.toInt + publishersOf defaultValue calls ≤ Int32.maxValue.toInt ∧
        w'.inst.thisClient.subscriptions.lookup w.NEXT_SUBSCRIBER_ID = some none ∧
        (∃ uid, w'.inst.thisClient.publishers.lookup uid = some none ∧
          (publishersOf defaultValue calls = 1 ↔ uid = w.NEXT_PUBLISHER_ID) ∧
          ∀ uid ≠ w.NEXT_PUBLISHER_ID, w.inst.thisClient.publishers.lookup uid ≠ some none) ∧
        (∀ uid ≠ w.NEXT_SUBSCRIBER_ID, w'.inst.thisClient.subscriptions.lookup uid =
          w.inst.thisClient.subscriptions.lookup uid) ∧
        (publishersOf defaultValue calls = 1 → ∀ uid ≠ w.NEXT_PUBLISHER_ID,
          w'.inst.thisClient.publishers.lookup uid = w.inst.thisClient.publishers.lookup uid))
      fun _ ↦ True := by
  rw [NTEntry.lifecycle]
  refine (NTEntry.make_life hfree topic defaultValue properties).bind fun r hr ↦ ?_
  have hcalls := hr.1.calls calls
  rw [hr.2] at hcalls
  refine Ends.bind hcalls fun r' hlife ↦ ?_
  refine hlife.destroy.imp fun w' hw' ↦ ?_
  obtain ⟨hpos, hsub, hpub, hsubs, hpubs⟩ := hw'
  refine ⟨hpos, ?_, hsub, ⟨r'.2.pub.pubuid, hpub, ⟨fun hone ↦ ?_, fun huid ↦ ?_⟩,
    (hlife.published hpos).2.2⟩, hsubs, hpubs⟩
  · rw [publishersOf, ← hlife.next]
    exact Int32.toInt_le _
  · have hlife : Life w (publishersOf defaultValue calls) r'.1 r'.2 := hlife
    rw [hone] at hlife
    exact hlife.pubuid_eq
  · have hpubuid := (hlife.published hpos).2.1
    have hnext := hlife.next
    rw [huid] at hpubuid
    rw [publishersOf]
    omega

/-! ### Without the mutex -/

/-- The mutex cannot be taken, so nothing happens to the instance. -/
structure Locked (w₀ : World) (made : ℕ) (w : World) (e : NTEntry) : Prop where
  locked : w₀.inst.mutexFree = false
  inst : w.inst = w₀.inst
  sub : e.sub ∈ w.subscribers
  next : w.NEXT_PUBLISHER_ID.toInt = w₀.NEXT_PUBLISHER_ID.toInt + made
  nt : e.pub.nt = true ↔ 0 < made
  publishing : e.publishing = true → 0 < made

omit [FloatCodec] in
/-- Nothing has been called. -/
theorem World.call_same {α : Type} (w : World) (a : α) : w.call (.ok (w.inst, a)) = .ok (w, a) := by
  have hcalls : w.calls w.inst = [] := by
    rw [calls]
    split
    · exact List.drop_length
    · rfl
  rw [call, after, hcalls]
  rfl

omit [FloatCodec] in
/-- Without the mutex a function of the instance returns at once. -/
theorem World.run_locked (h : w.inst.mutexFree = false) (f : Instance → Except Fault Instance) :
    w.run (w.inst.withMutex f) = .ok w := by
  have hskip : w.inst.withMutex f = .ok w.inst := by
    rw [Instance.withMutex, h]
    rfl
  rw [run, hskip]
  show Prod.fst <$> w.call (.ok (w.inst, ())) = _
  rw [call_same]
  rfl

namespace Locked

omit [FloatCodec] in
/-- The mutex is taken. -/
theorem mutexFree (h : Locked w₀ made w e) : w.inst.mutexFree = false := by
  rw [h.inst, h.locked]

/-- Nothing is set. -/
theorem setIf (h : Locked w₀ made w e) (hopen : e.publishing = true) (test : Bool)
    (value : NTDataValue) (time : Option UInt64) :
    Ends (NTPublisher.setIf env e.pub test value time w) (fun r ↦ r.1 = w) fun _ ↦ False := by
  rw [NTPublisher.setIf, h.nt.2 (h.publishing hopen)]
  split
  · next hnt => exact Bool.noConfusion hnt
  · split
    · rfl
    · rw [updateTopic, World.run_locked h.mutexFree]
      rfl

/-- The id after the last one is the only thing that can go wrong. -/
theorem make_publisher (h : Locked w₀ made w e) (name : Str) (value : NTDataValue)
    (time : Option UInt64) (properties : TopicProperties) :
    Ends (NTPublisher.make env name value time properties w)
      (fun r ↦ Locked w₀ (made + 1) r.1 { e with publishing := true, pub := r.2 })
      fun _ ↦ ¬w₀.NEXT_PUBLISHER_ID.toInt + (made + 1) ≤ Int32.maxValue.toInt := by
  rw [NTPublisher.make, World.nextId]
  split
  · next hmax =>
    have hnext := h.next
    rw [hmax] at hnext
    show ¬_
    omega
  · next hmax =>
    rw [ok_bind]
    let w₁ : World := { w with NEXT_PUBLISHER_ID := w.NEXT_PUBLISHER_ID + 1 }
    have hpublish : publish (w₁.env env) name w.NEXT_PUBLISHER_ID value.type properties w₁.inst =
        .ok (w₁.inst, .failed properties) := by
      rw [publish, show w₁.inst.mutexFree = false from h.mutexFree]
      rfl
    show Ends (w₁.call (publish (w₁.env env) name _ _ _ w₁.inst) >>= _) _ _
    rw [hpublish, World.call_same, ok_bind]
    have hlocked : Locked w₀ (made + 1) w₁ { e with
        publishing := true
        pub := ⟨true, .ofAnnounced (.failed properties), w.NEXT_PUBLISHER_ID⟩ } := by
      refine ⟨h.locked, h.inst, h.sub, ?_, iff_of_true rfl (Nat.succ_pos made), fun _ ↦
        Nat.succ_pos made⟩
      show (w.NEXT_PUBLISHER_ID + 1).toInt = _
      rw [toInt_succ hmax, h.next]
      push_cast
      exact add_assoc _ _ _
    refine Ends.bind ((hlocked.setIf rfl _ value time).mono (fun _ ↦ id) fun _ ↦ False.elim)
      fun s hs ↦ ?_
    rw [hs]
    exact hlocked

/-- The entry forgets its publisher, and the instance does not. -/
theorem unpublish (h : Locked w₀ made w e) :
    e.unpublish env w = .ok (w, { e with publishing := false }) := by
  rw [NTEntry.unpublish]
  split
  · next hopen =>
    rw [NTPublisher.close, h.nt.2 (h.publishing hopen)]
    show w.run _ >>= _ = _
    rw [World.run_locked h.mutexFree, ok_bind]
  · next hclosed =>
    have hclosed : e.publishing = false := by simpa using hclosed
    rw [← hclosed]

/-- The subscriber is not closed. -/
theorem close_sub (h : Locked w₀ made w e) : NTSubscriber.close env e.sub w = .ok w := by
  obtain ⟨s, hs⟩ := AList.exists_lookup_of_mem h.sub
  rw [NTSubscriber.close, World.subscriber, hs, ok_bind, World.run_locked h.mutexFree]

/-- Nothing is closed, but the entry takes its publication for ended. -/
theorem close (h : Locked w₀ made w e) :
    e.close env w = .ok (w, { e with publishing := false }) := by
  have hsub : NTSubscriber.close env e.sub w = .ok w := h.close_sub
  rw [NTEntry.close, h.unpublish, ok_bind]
  show NTSubscriber.close env e.sub w >>= _ = _
  rw [hsub, ok_bind]

omit [FloatCodec] in
/-- What the entry says of itself does not matter to the instance. -/
theorem end_publication (h : Locked w₀ made w e) :
    Locked w₀ made w { e with publishing := false } :=
  ⟨h.locked, h.inst, h.sub, h.next, h.nt, fun hf ↦ Bool.noConfusion hf⟩

theorem set (h : Locked w₀ made w e) (call : SetCall) (time : Option UInt64) :
    Ends (e.set env call time w)
      (fun r ↦ Locked w₀ (if e.publishing then made else made + 1) r.1 r.2.1 ∧
        r.2.1.publishing = true)
      fun _ ↦ ¬w₀.NEXT_PUBLISHER_ID.toInt + ((if e.publishing then made else made + 1 : ℕ) : ℤ) ≤
        Int32.maxValue.toInt := by
  rw [NTEntry.set]
  split
  · next hopen =>
    obtain ⟨test, htest, -⟩ := call.publisher_eq env e.pub time w
    rw [htest]
    refine Ends.bind ((h.setIf hopen test call.value time).mono (fun _ ↦ id) fun _ ↦ False.elim)
      fun r hr ↦ ?_
    rw [hr]
    exact ⟨h, hopen⟩
  · obtain ⟨s, hs⟩ := AList.exists_lookup_of_mem h.sub
    rw [World.subscriber, hs, ok_bind]
    refine ((h.make_publisher s.topic.name call.value time e.pubProperties).mono (fun _ ↦ id)
      fun _ he ↦ ?_).bind fun r hr ↦ ⟨hr, rfl⟩
    push_cast
    exact he

/-- A whole sequence of calls: the ids go on being counted. -/
theorem calls (calls : List (Env × EntryCall)) (h : Locked w₀ made w e) :
    Ends (calls.foldlM (fun r c ↦ c.2.run c.1 r) (w, e))
      (fun r ↦ Locked w₀ (made + publishersMade e.publishing calls) r.1 r.2)
      fun _ ↦ ¬w₀.NEXT_PUBLISHER_ID.toInt + ((made + publishersMade e.publishing calls : ℕ) : ℤ) ≤
        Int32.maxValue.toInt := by
  induction calls generalizing made w e with
  | nil => exact h
  | cons c calls ih =>
    rw [List.foldlM_cons]
    obtain ⟨env, call⟩ := c
    cases call with
    | set call time =>
      rw [publishersMade_set env call time]
      refine Ends.bind (Q := fun r : World × NTEntry ↦
        Locked w₀ (if e.publishing then made else made + 1) r.1 r.2 ∧ r.2.publishing = true)
        (.map ((h.set call time).mono (fun _ ↦ id) fun _ he ↦ ?_)) fun r hr ↦ ?_
      · push_cast at he ⊢
        omega
      · have hcalls := ih hr.1
        rw [hr.2] at hcalls
        exact hcalls
    | unpublish =>
      rw [publishersMade_cons (.inl rfl)]
      show Ends (e.unpublish env w >>= _) _ _
      rw [h.unpublish, ok_bind]
      exact ih h.end_publication
    | close =>
      rw [publishersMade_cons (.inr rfl)]
      show Ends (e.close env w >>= _) _ _
      rw [h.close, ok_bind]
      exact ih h.end_publication

/-- The assertion in the destructor of a publisher that was never made is what remains. -/
theorem destroy (h : Locked w₀ made w e) :
    Ends (e.destroy env w)
      (fun w' ↦ w'.inst = w₀.inst ∧ 0 < made ∧
        w₀.NEXT_PUBLISHER_ID.toInt + made ≤ Int32.maxValue.toInt) fun _ ↦ ¬0 < made := by
  rw [NTEntry.destroy, h.close, ok_bind, NTPublisher.close]
  cases hnt : e.pub.nt with
  | false =>
    show ¬0 < made
    rw [← h.nt, hnt]
    exact Bool.noConfusion
  | true =>
    have hsub : NTSubscriber.close env e.sub w = .ok w := h.close_sub
    show Ends (w.run _ >>= _) _ _
    rw [World.run_locked h.mutexFree, ok_bind, NTSubscriber.destroy]
    show Ends (NTSubscriber.close env e.sub w >>= _) _ _
    rw [hsub, ok_bind]
    refine ⟨h.inst, h.nt.1 hnt, ?_⟩
    rw [← h.next]
    exact Int32.toInt_le _

end Locked

/-- A subscriber is made without the mutex. -/
theorem NTSubscriber.make_locked (hlocked : w.inst.mutexFree = false) (topic : Str)
    (pubProperties : TopicProperties) :
    Ends (NTSubscriber.make env this topic w)
      (fun w' ↦ Locked w 0 w' ⟨false, pubProperties, this, .none⟩)
      fun _ ↦ w.NEXT_SUBSCRIBER_ID = Int32.maxValue := by
  rw [NTSubscriber.make, World.nextId]
  split
  · next hmax => exact hmax
  · rw [ok_bind]
    let w₁ : World := { register this topic w with
      NEXT_SUBSCRIBER_ID := w.NEXT_SUBSCRIBER_ID + 1
      subscribers := w.subscribers.insert this ⟨{ name := topic }, w.NEXT_SUBSCRIBER_ID⟩ }
    show Ends (w₁.run (w₁.inst.withMutex _)) _ _
    rw [World.run_locked (w := w₁) hlocked]
    exact ⟨hlocked, rfl, (AList.mem_insert _).2 (.inl rfl), (add_zero _).symm,
      iff_of_false (fun h ↦ Bool.noConfusion h) (Nat.lt_irrefl 0), fun h ↦ Bool.noConfusion h⟩

/-- Without the mutex an entry leaves no trace. -/
theorem NTEntry.lifecycle_locked (hlocked : w.inst.mutexFree = false) (topic : Str)
    (defaultValue : Option NTDataValue) (properties : Option TopicProperties)
    (calls : List (Env × EntryCall)) (final : Env) :
    Ends (NTEntry.lifecycle env this topic defaultValue properties calls final w)
      (fun w' ↦ w'.inst = w.inst ∧ 0 < publishersOf defaultValue calls ∧
        w.NEXT_PUBLISHER_ID.toInt + publishersOf defaultValue calls ≤ Int32.maxValue.toInt)
      fun _ ↦ ¬(w.NEXT_SUBSCRIBER_ID ≠ Int32.maxValue ∧ 0 < publishersOf defaultValue calls ∧
        w.NEXT_PUBLISHER_ID.toInt + publishersOf defaultValue calls ≤ Int32.maxValue.toInt) := by
  rw [NTEntry.lifecycle]
  have hmake : Ends (NTEntry.make env this topic defaultValue properties w)
      (fun r ↦ Locked w (if defaultValue.isSome then 1 else 0) r.1 r.2 ∧
        r.2.publishing = defaultValue.isSome)
      fun _ ↦ ¬(w.NEXT_SUBSCRIBER_ID ≠ Int32.maxValue ∧ w.NEXT_PUBLISHER_ID.toInt +
        ((if defaultValue.isSome then 1 else 0 : ℕ) : ℤ) ≤ Int32.maxValue.toInt) := by
    rw [NTEntry.make]
    refine ((NTSubscriber.make_locked hlocked topic (properties.getD .DEFAULT)).mono (fun _ ↦ id)
      fun _ hmax h ↦ h.1 hmax).bind fun w' hw' ↦ ?_
    cases defaultValue with
    | none => exact ⟨hw', rfl⟩
    | some value =>
      refine ((hw'.make_publisher topic value none _).mono (fun _ ↦ id) fun _ he h ↦ he ?_).bind
        fun r hr ↦ ⟨hr, rfl⟩
      exact h.2
  refine (hmake.mono (fun _ ↦ id) fun _ he h ↦ he ⟨h.1, ?_⟩).bind fun r hr ↦ ?_
  · have hcount := h.2.2
    rw [publishersOf] at hcount
    push_cast at hcount ⊢
    omega
  · have hcalls := hr.1.calls calls
    rw [hr.2] at hcalls
    refine Ends.bind (hcalls.mono (fun _ ↦ id) fun _ he h ↦ he h.2.2) fun r' hr' ↦ ?_
    exact hr'.destroy.mono (fun _ ↦ id) fun _ he h ↦ he h.2.1

/-! ### Lives without a fault -/

omit [FloatCodec] in
/-- From a sound state a publication returns a topic with a type. -/
theorem Instance.Sound.typedAs (hst : st.Sound) {type : NTDataType} (htype : type ≠ .unassigned)
    {t : AnnouncedTopic} (ht : TypedAs st name type t) : t.type ≠ .unassigned := by
  rcases ht with heq | hbool | ⟨topic, htopic, heq⟩
  · rwa [heq]
  · rw [hbool]
    exact fun h ↦ NTDataType.noConfusion h
  · rw [heq]
    simpa [NTDataValue.isValid] using hst.valid htopic

omit [FloatCodec] in
/-- No callback of a call fails, and nothing more is said of them. -/
theorem World.Live.silent (hlive : w.Live) {st : Instance} :
    (∀ t, .announcedCallback t ∈ w.calls st → w.LiveAt t.name) ∧
      Ends (w.after st) (fun _ ↦ True) fun _ ↦ True :=
  ⟨fun t _ ↦ hlive t.name, .of_forall (fun _ ↦ trivial) fun _ ↦ trivial⟩

omit [FloatCodec] in
/-- A call of the instance that does not fail. -/
theorem World.run_total {f : Instance → Except Fault Instance} (hlive : w.Live)
    (hf : Ends (f { w.inst with mutexFree := false }) (fun _ ↦ True) fun _ ↦ False) :
    Ends (w.run (w.inst.withMutex f)) (fun w' ↦ w'.Live) fun _ ↦ False := by
  have hrun (st : Instance) : Ends (w.run (.ok st)) (fun w' ↦ w'.Live) fun _ ↦ False :=
    .map (.map ((after_live fun t _ ↦ hlive t.name).imp fun w' hw' ↦ hw'.2.live hlive))
  rw [Instance.withMutex]
  split
  · cases hx : f { w.inst with mutexFree := false } with
    | error fault =>
      rw [hx] at hf
      exact hf.elim
    | ok s => exact hrun { s with mutexFree := true }
  · exact hrun w.inst

/-- An entry that publishes on an instance that can be called. -/
structure Sane (w : World) (e : NTEntry) : Prop where
  live : w.Live
  sound : w.inst.Sound
  topic : ∃ pub : Publisher, w.inst.thisClient.publishers.lookup e.pub.pubuid = some (some pub) ∧
    w.inst.HasTopic pub.topic
  type : e.pub.topic.type ≠ .unassigned

/-- On an instance that can be called a setter does not fail. -/
theorem Sane.setIf (h : Sane w e) (hlife : Life w₀ made w e) (hopen : e.publishing = true)
    {test : Bool} {value : NTDataValue} (hvalue : test = true → value.isValid)
    (time : Option UInt64) :
    Ends (NTPublisher.setIf env e.pub test value time w) (fun r ↦ Sane r.1 e) fun _ ↦ False := by
  have hmade : 0 < made := Nat.pos_of_ne_zero fun hmade ↦ by
    rw [(hlife.unmade hmade).1] at hopen
    exact Bool.noConfusion hopen
  rw [NTPublisher.setIf, (hlife.published hmade).1]
  split
  · next hnt => exact Bool.noConfusion hnt
  · split
    · exact h
    · next htest =>
      obtain ⟨pub, hpub, t, ht⟩ := h.topic
      have hupdate := @localUpdateTopic_safely (fun _ ↦ False) { w.inst with mutexFree := false } _
        (w.env env) (time.getD (getServerTime (w.env env) w.inst)) _ _ t value
        (h.sound.release false) hpub ht (hvalue (by simpa using htest))
      refine .map ((World.run_released (R := fun _ _ ↦ True) hlife.free hupdate
        fun _ _ _ _ ↦ h.live.silent).imp fun w' hw' ↦ ?_)
      obtain ⟨s, hinst, hs, hkeeps, -, hfollows, -⟩ := hw'
      obtain ⟨t', ht', -⟩ := hkeeps.types pub.topic t ht
      refine ⟨hfollows.live h.live, ?_, ⟨pub, ?_, t', ?_⟩, h.type⟩
      · rw [hinst]
        exact hs.release true
      · rw [hinst]
        show s.thisClient.publishers.lookup _ = _
        rw [congrArg ClientInfo.publishers hkeeps.info]
        exact hpub
      · rwa [hinst]

omit [FloatCodec] in
/-- The publishers are not null while the entry has its first publisher. -/
theorem Life.publishers_ne (h : Life w₀ 1 w e) (hopen : e.publishing = true)
    (hpubs : ∀ uid ≠ w₀.NEXT_PUBLISHER_ID, w₀.inst.thisClient.publishers.lookup uid ≠ some none)
    (uid : Int32) : w.inst.thisClient.publishers.lookup uid ≠ some none := by
  by_cases hne : uid = w₀.NEXT_PUBLISHER_ID
  · obtain ⟨pub, hpub⟩ := h.opened hopen
    rw [hne, ← h.pubuid_eq, hpub]
    exact fun h ↦ by cases h
  · rw [h.publishers le_rfl uid (.inl hne)]
    exact hpubs uid hne

/-- The first publisher of an entry. -/
theorem Life.make_sane (h : Life w₀ 0 w e) (hlive : w.Live) (hsound : w.inst.Sound)
    (hpubs : ∀ uid ≠ w₀.NEXT_PUBLISHER_ID, w₀.inst.thisClient.publishers.lookup uid ≠ some none)
    (hmax : w₀.NEXT_PUBLISHER_ID ≠ Int32.maxValue) {value : NTDataValue} (hvalid : value.isValid)
    (name : Str) (time : Option UInt64) (properties : TopicProperties) :
    Ends (NTPublisher.make env name value time properties w)
      (fun r ↦ Sane r.1 { e with publishing := true, pub := r.2 } ∧
        Life w₀ 1 r.1 { e with publishing := true, pub := r.2 }) fun _ ↦ False := by
  have hnext : w.NEXT_PUBLISHER_ID = w₀.NEXT_PUBLISHER_ID :=
    Int32.toInt.inj (h.next.trans (add_zero _))
  have hpubs (uid : Int32) (hne : uid ≠ w.NEXT_PUBLISHER_ID) :
      w.inst.thisClient.publishers.lookup uid ≠ some none := by
    rw [h.publishers (Nat.zero_le 1) uid (.inr rfl)]
    exact hpubs uid (by rwa [← hnext])
  have htype : value.type ≠ .unassigned := by simpa [NTDataValue.isValid] using hvalid
  refine Ends.mono (Q := fun r ↦ Sane r.1 { e with publishing := true, pub := r.2 } ∧
    Life w₀ 1 r.1 { e with publishing := true, pub := r.2 }) (E := fun _ ↦ False ∧ True)
    (.and ?_ (h.make_publisher name value time properties)) (fun _ ↦ id) fun _ ↦ And.left
  rw [NTPublisher.make, World.nextId_of_ne (by rwa [hnext]), ok_bind]
  let w₁ : World := { w with NEXT_PUBLISHER_ID := w.NEXT_PUBLISHER_ID + 1 }
  have hpublish : Ends
      (w₁.call (NetworkTables.publish (w.env env) name w.NEXT_PUBLISHER_ID value.type properties
        w.inst))
      (fun r ↦ Sane r.1 { e with
        publishing := true
        pub := ⟨true, .ofAnnounced r.2, w.NEXT_PUBLISHER_ID⟩ }) fun _ ↦ False := by
    have hsafely := @localPublish_safely (fun _ ↦ True) _ name _ (w.env env) w.NEXT_PUBLISHER_ID _
      properties (hsound.release false) htype hpubs fun _ _ ↦ trivial
    have hreturns := World.call_ends (w := w₁) (Q := fun _ t ↦ TypedAs w.inst name value.type t)
      (@publish_type name _ (w.env env) w.inst properties w.NEXT_PUBLISHER_ID _ htype)
    have hcall := World.call_released (w := w₁) (R := fun _ _ ↦ True) hsafely
      fun _ _ _ _ ↦ World.Live.silent (w := w₁) hlive
    rw [← publish_of_free h.free] at hcall
    refine (hcall.and hreturns).mono (fun r hr ↦ ?_) fun _ he ↦ he.1
    obtain ⟨⟨s, hinst, hs, hkeeps, ⟨hname, -⟩, hfollows, -⟩, hreturns, -⟩ := hr
    refine ⟨hfollows.live hlive, ?_, ⟨⟨w.NEXT_PUBLISHER_ID, name⟩, ?_, ?_⟩,
      hsound.typedAs htype hreturns⟩
    · rw [hinst]
      exact hs.release true
    · rw [hinst]
      show s.thisClient.publishers.lookup _ = _
      rw [congrArg ClientInfo.publishers hkeeps.info]
      exact AList.lookup_insert _
    · rw [hinst]
      exact hname
  have hlife := @Life.publish _ env _ _ _ _ h (by rwa [hnext]) name value.type properties
  refine Ends.bind ((hpublish.and hlife).mono (fun _ ↦ id) fun _ he ↦ he.1) fun r hr ↦ ?_
  exact (hr.1.setIf hr.2 rfl (fun _ ↦ hvalid) time).bind fun s hs ↦ hs

/-- The subscriber is closed. -/
theorem Life.close_sub_total (h : Life w₀ made w e) (hlive : w.Live)
    (hsound : (∃ sub, w.inst.thisClient.subscriptions.lookup w₀.NEXT_SUBSCRIBER_ID =
      some (some sub)) → w.inst.Sound) :
    Ends (NTSubscriber.close env e.sub w)
      (fun w' ↦ w'.Live ∧ ((∃ sub, w.inst.thisClient.subscriptions.lookup w₀.NEXT_SUBSCRIBER_ID =
        some (some sub)) → w'.inst.Sound)) fun _ ↦ False := by
  obtain ⟨s, hs, hsubuid⟩ := h.sub
  rw [NTSubscriber.close, World.subscriber, hs, ok_bind, hsubuid]
  by_cases hopen : ∃ sub, w.inst.thisClient.subscriptions.lookup w₀.NEXT_SUBSCRIBER_ID =
    some (some sub)
  · obtain ⟨sub, hsub⟩ := hopen
    have hsound := hsound ⟨sub, hsub⟩
    have herased : (Instance.withSubscriptions { w.inst with mutexFree := false }
        (w.inst.thisClient.subscriptions.erase w₀.NEXT_SUBSCRIBER_ID)).Sound := by
      refine (hsound.release false).withSubscriptions fun uid ↦ ?_
      rw [AList.lookup_erase_ite]
      split
      · exact fun h ↦ by cases h
      · exact hsound.subscriptions.2 uid
    have hsafely := @localUnsubscribe_safely (fun _ ↦ False) { w.inst with mutexFree := false } _
      (w.env env) _ _ hsub herased
    refine (World.run_released (R := fun _ _ ↦ True) h.free hsafely
      fun _ _ _ _ ↦ hlive.silent).imp fun w' hw' ↦ ?_
    obtain ⟨s', hinst, hs', -, -, hfollows, -⟩ := hw'
    refine ⟨hfollows.live hlive, fun _ ↦ ?_⟩
    rw [hinst]
    exact hs'.release true
  · refine (World.run_total hlive ?_).imp fun w' hw' ↦ ⟨hw', fun h ↦ absurd h hopen⟩
    rw [localUnsubscribe]
    split
    · next sub hsub => exact absurd ⟨sub, hsub⟩ hopen
    · trivial

omit [FloatCodec] in
/-- All that is left to do for an entry is to close it. -/
structure Over (w₀ w : World) : Prop where
  live : w.Live
  sound : (∃ sub, w.inst.thisClient.subscriptions.lookup w₀.NEXT_SUBSCRIBER_ID = some (some sub)) →
    w.inst.Sound

omit [FloatCodec] in
/-- An entry that publishes can be closed. -/
theorem Sane.over (h : Sane w e) : Over w₀ w :=
  ⟨h.live, fun _ ↦ h.sound⟩

/-- After closing the subscriber there is no subscription under its id. -/
theorem Over.close_sub (hover : Over w₀ w) (h : Life w₀ made w e) :
    Ends (NTSubscriber.close env e.sub w)
      (fun w' ↦ Over w₀ w' ∧ Life w₀ made w' e ∧ ∀ sub,
        w'.inst.thisClient.subscriptions.lookup w₀.NEXT_SUBSCRIBER_ID = some (some sub) → False)
      fun _ ↦ False := by
  refine ((h.close_sub_total hover.live hover.sound).and h.close_sub).mono (fun w' hw' ↦ ?_)
    fun _ he ↦ he.1
  obtain ⟨⟨hlive, -⟩, hlife, hsubs⟩ := hw'
  have hclosed (sub : Subscription)
      (hsub : w'.inst.thisClient.subscriptions.lookup w₀.NEXT_SUBSCRIBER_ID = some (some sub)) :
      False := by
    rw [hsubs] at hsub
    by_cases hopen : ∃ a, w.inst.thisClient.subscriptions.lookup
      w₀.NEXT_SUBSCRIBER_ID = some (some a)
    · obtain ⟨a, ha⟩ := hopen
      rw [lookup_dropped_of_some ha] at hsub
      cases hsub
    · rw [lookup_dropped_of_not fun a ha ↦ hopen ⟨a, ha⟩] at hsub
      cases hsub
  refine ⟨⟨hlive, ?_⟩, hlife, hclosed⟩
  rintro ⟨sub, hsub⟩
  exact (hclosed sub hsub).elim

/-- A publication is ended. -/
theorem Over.unpublish (hover : Over w₀ w) (h : Life w₀ 1 w e)
    (hsane : e.publishing = true → Sane w e)
    (hpubs : ∀ uid ≠ w₀.NEXT_PUBLISHER_ID, w₀.inst.thisClient.publishers.lookup uid ≠ some none) :
    Ends (e.unpublish env w)
      (fun r ↦ Over w₀ r.1 ∧ Life w₀ 1 r.1 r.2 ∧ r.2 = { e with publishing := false })
      fun _ ↦ False := by
  refine Ends.mono (Q := fun r ↦ Over w₀ r.1 ∧ Life w₀ 1 r.1 r.2 ∧
      r.2 = { e with publishing := false } ∧ _) (E := fun _ ↦ False ∧ True)
    (.and ?_ h.unpublish) (fun r hr ↦ ⟨hr.1, hr.2.1, hr.2.2.1⟩) fun _ ↦ And.left
  rw [NTEntry.unpublish]
  split
  · next hopen =>
    have hsane := hsane hopen
    obtain ⟨pub, hpub⟩ := h.opened hopen
    rw [NTPublisher.close, (h.published Nat.one_pos).1]
    have hsafely := @localUnpublish_safely (fun _ ↦ False) { w.inst with mutexFree := false } _
      (w.env env) _ _ (hsane.sound.release false) hpub
      (h.publishers_ne hopen hpubs)
    refine Ends.bind (World.run_released (R := fun _ _ ↦ True) h.free hsafely
      fun _ _ _ _ ↦ hover.live.silent) fun w' hw' ↦ ?_
    obtain ⟨s', hinst, hs', -, -, hfollows, -⟩ := hw'
    refine ⟨hfollows.live hover.live, fun _ ↦ ?_⟩
    rw [hinst]
    exact hs'.release true
  · exact hover

/-- Closing the entry does not fail, and there is no subscription under its id afterwards. -/
theorem Over.close (hover : Over w₀ w) (h : Life w₀ 1 w e) (hsane : e.publishing = true → Sane w e)
    (hpubs : ∀ uid ≠ w₀.NEXT_PUBLISHER_ID, w₀.inst.thisClient.publishers.lookup uid ≠ some none) :
    Ends (e.close env w)
      (fun r ↦ Over w₀ r.1 ∧ Life w₀ 1 r.1 r.2 ∧ r.2 = { e with publishing := false } ∧ ∀ sub,
        r.1.inst.thisClient.subscriptions.lookup w₀.NEXT_SUBSCRIBER_ID = some (some sub) → False)
      fun _ ↦ False := by
  rw [NTEntry.close]
  refine (hover.unpublish h hsane hpubs).bind fun r hr ↦ ?_
  obtain ⟨hover', hlife, he⟩ := hr
  exact (hover'.close_sub hlife).bind fun w' hw' ↦ ⟨hw'.1, hw'.2.1, he, hw'.2.2⟩

/-- An entry that has made one publisher is destroyed without a fault. -/
theorem Over.destroy (hover : Over w₀ w) (h : Life w₀ 1 w e)
    (hsane : e.publishing = true → Sane w e)
    (hpubs : ∀ uid ≠ w₀.NEXT_PUBLISHER_ID, w₀.inst.thisClient.publishers.lookup uid ≠ some none) :
    Ends (e.destroy env w) (fun _ ↦ True) fun _ ↦ False := by
  rw [NTEntry.destroy]
  refine (hover.close h hsane hpubs).bind fun r hr ↦ ?_
  obtain ⟨hover', hlife, he, hclosed⟩ := hr
  rw [NTPublisher.close, (hlife.published Nat.one_pos).1]
  have hgone : r.1.inst.thisClient.publishers.lookup r.2.pub.pubuid = none :=
    hlife.closed Nat.one_pos (by rw [he])
  -- closed again, the publisher is not there
  have htotal := World.run_total (w := r.1) (f := localUnpublish (r.1.env env) r.2.pub.pubuid)
    hover'.live (by
      rw [localUnpublish]
      split
      · next pub hpub =>
        rw [hgone] at hpub
        cases hpub
      · trivial)
  have hasks := World.run_asks hlife.free (@localUnpublish_asks _ (r.1.env env) _ r.2.pub.pubuid)
  refine Ends.bind ((htotal.and hasks).mono (fun _ ↦ id) fun _ he ↦ he.1) fun w' hw' ↦ ?_
  obtain ⟨hlive, ⟨hfree, hsubs, -⟩, hfollows⟩ := hw'
  obtain ⟨s, hs, hsubuid⟩ := hlife.sub
  obtain ⟨s', hs', hsubuid'⟩ := hfollows.subscriber_subuid hs
  rw [NTSubscriber.destroy, NTSubscriber.close, World.subscriber, hs', ok_bind,
    hsubuid'.trans hsubuid]
  refine Ends.bind (World.run_total hlive ?_) fun w'' _ ↦ trivial
  rw [localUnsubscribe]
  split
  · next sub hsub =>
    refine (hclosed sub ?_).elim
    rw [← hsubs]
    exact hsub
  · trivial

/-- The calls after the first publisher is made, if they make no other. -/
theorem Over.calls (hpubs : ∀ uid ≠ w₀.NEXT_PUBLISHER_ID,
      w₀.inst.thisClient.publishers.lookup uid ≠ some none) (calls : List (Env × EntryCall))
    (hover : Over w₀ w) (h : Life w₀ 1 w e) (hsane : e.publishing = true → Sane w e)
    (hcount : publishersMade e.publishing calls = 0) :
    Ends (calls.foldlM (fun r c ↦ c.2.run c.1 r) (w, e))
      (fun r ↦ Over w₀ r.1 ∧ Life w₀ 1 r.1 r.2 ∧ (r.2.publishing = true → Sane r.1 r.2))
      fun _ ↦ False := by
  induction calls generalizing w e with
  | nil => exact ⟨hover, h, hsane⟩
  | cons c calls ih =>
    rw [List.foldlM_cons]
    obtain ⟨env, call⟩ := c
    have hclosed {e' : NTEntry} (he : e' = { e with publishing := false }) :
        e'.publishing = false := by rw [he]
    cases call with
    | set call time =>
      cases hopen : e.publishing with
      | false =>
        rw [hopen] at hcount
        exact absurd hcount (Nat.succ_ne_zero _)
      | true =>
        rw [hopen] at hcount
        obtain ⟨test, htest, hvalid⟩ := call.publisher_eq env e.pub time w
        have hset :=
          (@Sane.setIf _ env _ _ _ _ (hsane hopen) h hopen _ _ (hvalid (hsane hopen).type) time).and
          (@Life.setIf _ env _ _ _ _ h hopen test call.value time)
        rw [← htest] at hset
        refine Ends.bind (Q := fun r : World × NTEntry ↦ Sane r.1 r.2 ∧ Life w₀ 1 r.1 r.2 ∧
          r.2.publishing = true) (.map ?_) fun r hr ↦ ?_
        · rw [NTEntry.set, if_pos hopen]
          exact (hset.mono (fun _ ↦ id) fun _ he ↦ he.1).bind fun r hr ↦ ⟨hr.1, hr.2, hopen⟩
        · exact ih hr.1.over hr.2.1 (fun _ ↦ hr.1) (by rw [hr.2.2]; exact hcount)
    | unpublish =>
      rw [publishersMade_cons (.inl rfl)] at hcount
      refine Ends.bind (hover.unpublish h hsane hpubs) fun r hr ↦ ?_
      have hstop := hclosed hr.2.2
      exact ih hr.1 hr.2.1 (fun hopen ↦ by rw [hstop] at hopen; exact Bool.noConfusion hopen)
        (by rw [hstop]; exact hcount)
    | close =>
      rw [publishersMade_cons (.inr rfl)] at hcount
      refine Ends.bind (hover.close h hsane hpubs) fun r hr ↦ ?_
      have hstop := hclosed hr.2.2.1
      exact ih hr.1 hr.2.1 (fun hopen ↦ by rw [hstop] at hopen; exact Bool.noConfusion hopen)
        (by rw [hstop]; exact hcount)

omit [FloatCodec] in
/-- How often the entry is closed before its first setter. -/
def closesBefore : List (Env × EntryCall) → ℕ
  | [] => 0
  | (_, .set _ _) :: _ => 0
  | (_, .unpublish) :: calls => closesBefore calls
  | (_, .close) :: calls => closesBefore calls + 1

omit [FloatCodec] in
/-- The value of the first setter. -/
def firstSet : List (Env × EntryCall) → Option NTDataValue
  | [] => none
  | (_, .set call _) :: _ => some call.value
  | (_, .unpublish) :: calls | (_, .close) :: calls => firstSet calls

/-- The calls of an entry that is made without a default value. -/
theorem Life.calls_unmade
    (hpubs : ∀ uid ≠ w₀.NEXT_PUBLISHER_ID, w₀.inst.thisClient.publishers.lookup uid ≠ some none)
    (hmax : w₀.NEXT_PUBLISHER_ID ≠ Int32.maxValue) (calls : List (Env × EntryCall))
    (h : Life w₀ 0 w e) (hlive : w.Live) (hsound : w.inst.Sound)
    (hclosed : closesBefore calls = 0 ∨ closesBefore calls ≤ 1 ∧
      ∃ sub, w.inst.thisClient.subscriptions.lookup w₀.NEXT_SUBSCRIBER_ID = some (some sub))
    (hvalid : ∀ value, firstSet calls = some value → value.isValid)
    (hcount : publishersMade false calls = 1) :
    Ends (calls.foldlM (fun r c ↦ c.2.run c.1 r) (w, e))
      (fun r ↦ Over w₀ r.1 ∧ Life w₀ 1 r.1 r.2 ∧ (r.2.publishing = true → Sane r.1 r.2))
      fun _ ↦ False := by
  have hstop := (h.unmade rfl).1
  have hunpublish (env : Env) : e.unpublish env w = .ok (w, e) := by
    rw [NTEntry.unpublish, hstop]
    rfl
  induction calls generalizing w with
  | nil => exact absurd hcount Nat.zero_ne_one
  | cons c calls ih =>
    rw [List.foldlM_cons]
    obtain ⟨env, call⟩ := c
    cases call with
    | set call time =>
      have hcount : publishersMade true calls = 0 := Nat.succ.inj hcount
      obtain ⟨s, hs, -⟩ := h.sub
      refine Ends.bind (Q := fun r : World × NTEntry ↦ Sane r.1 r.2 ∧ Life w₀ 1 r.1 r.2 ∧
        r.2.publishing = true) (.map ?_) fun r hr ↦ ?_
      · rw [NTEntry.set, hstop]
        show Ends (w.subscriber e.sub >>= _) _ _
        rw [World.subscriber, hs, ok_bind]
        exact (h.make_sane hlive hsound hpubs hmax (hvalid _ rfl) s.topic.name time
          e.pubProperties).bind fun r hr ↦ ⟨hr.1, hr.2, rfl⟩
      · exact hr.1.over.calls hpubs calls hr.2.1 (fun _ ↦ hr.1) (by rw [hr.2.2]; exact hcount)
    | unpublish =>
      show Ends (e.unpublish env w >>= _) _ _
      rw [hunpublish, ok_bind]
      exact ih h hlive hsound hclosed hvalid hcount hunpublish
    | close =>
      have hclosed : closesBefore calls = 0 ∧
          ∃ sub, w.inst.thisClient.subscriptions.lookup w₀.NEXT_SUBSCRIBER_ID
            = some (some sub) := by
        rcases hclosed with hclosed | ⟨hle, hopen⟩
        · exact absurd hclosed (Nat.succ_ne_zero _)
        · exact ⟨Nat.le_zero.1 (Nat.le_of_succ_le_succ hle), hopen⟩
      have hclose : Ends (e.close env w)
          (fun r ↦ r.1.Live ∧ r.1.inst.Sound ∧ Life w₀ 0 r.1 e ∧ r.2 = e) fun _ ↦ False := by
        rw [NTEntry.close, hunpublish, ok_bind]
        refine Ends.bind (((h.close_sub_total hlive fun _ ↦ hsound).and h.close_sub).mono
          (fun _ ↦ id) fun _ he ↦ he.1) fun w' hw' ↦ ?_
        exact ⟨hw'.1.1, hw'.1.2 hclosed.2, hw'.2.1, rfl⟩
      show Ends (e.close env w >>= _) _ _
      refine hclose.bind fun r hr ↦ ?_
      obtain ⟨hlive', hsound', hlife, he⟩ := hr
      have hpair : r = (r.1, e) := Prod.ext rfl he
      rw [hpair]
      refine ih hlife hlive' hsound' (.inl hclosed.1) hvalid hcount fun env ↦ ?_
      rw [NTEntry.unpublish, hstop]
      rfl

/-! ### What an entry leaves behind -/

/-- No assertion fails, and the maps are what they were. -/
def NTEntry.Clean (env : Env) (this : ℕ) (topic : Str) (defaultValue : Option NTDataValue)
    (properties : Option TopicProperties) (calls : List (Env × EntryCall)) (final : Env)
    (w : World) : Prop :=
  Ends (NTEntry.lifecycle env this topic defaultValue properties calls final w)
    (fun w' ↦ (∀ uid, w'.inst.thisClient.subscriptions.lookup uid =
        w.inst.thisClient.subscriptions.lookup uid) ∧
      ∀ uid, w'.inst.thisClient.publishers.lookup uid = w.inst.thisClient.publishers.lookup uid)
    fun _ ↦ False

/-- The two ids that come next have null pointers already. -/
def World.Planted (w : World) : Prop :=
  w.inst.thisClient.subscriptions.lookup w.NEXT_SUBSCRIBER_ID = some none ∧
    w.inst.thisClient.publishers.lookup w.NEXT_PUBLISHER_ID = some none

/-- The entry publishes, and it is not noticed that it is closed twice. -/
structure Unnoticed (defaultValue : Option NTDataValue) (calls : List (Env × EntryCall))
    (w : World) : Prop where
  subscriberId : w.NEXT_SUBSCRIBER_ID ≠ Int32.maxValue
  publishes : 0 < publishersOf defaultValue calls
  publisherIds : w.NEXT_PUBLISHER_ID.toInt + publishersOf defaultValue calls ≤ Int32.maxValue.toInt
  unnoticed : w.inst.mutexFree = false ∨ w.Planted ∧ publishersOf defaultValue calls = 1

variable {topic : Str} {defaultValue : Option NTDataValue} {properties : Option TopicProperties}
  {calls : List (Env × EntryCall)} {final : Env}

/-- A clean life is one whose traces were there before. -/
theorem NTEntry.Clean.unnoticed
    (h : NTEntry.Clean env this topic defaultValue properties calls final w) :
    Unnoticed defaultValue calls w := by
  have hid : w.NEXT_SUBSCRIBER_ID ≠ Int32.maxValue := by
    intro hmax
    have hmake : NTEntry.make env this topic defaultValue properties w = .error .overflow := by
      rw [NTEntry.make, NTSubscriber.make, World.nextId, if_pos hmax]
      rfl
    rw [Clean, lifecycle, hmake] at h
    exact h
  cases hfree : w.inst.mutexFree with
  | false =>
    have hboth := (NTEntry.lifecycle_locked hfree topic defaultValue properties calls final).and h
    cases hx : NTEntry.lifecycle env this topic defaultValue properties calls final w with
    | error e =>
      rw [hx] at hboth
      exact hboth.2.elim
    | ok w' =>
      rw [hx] at hboth
      exact ⟨hid, hboth.1.2.1, hboth.1.2.2, .inl hfree⟩
  | true =>
    have hboth := (NTEntry.lifecycle_leaves hfree topic defaultValue properties calls final).and h
    cases hx : NTEntry.lifecycle env this topic defaultValue properties calls final w with
    | error e =>
      rw [hx] at hboth
      exact hboth.2.elim
    | ok w' =>
      rw [hx] at hboth
      obtain ⟨⟨hpos, hle, hsub, ⟨uid, huid, hone, hnull⟩, -⟩, hsubs, hpubs⟩ := hboth
      rw [hsubs] at hsub
      rw [hpubs] at huid
      -- the first publication has packed the publisher, if it is not its own
      have hfirst : uid = w.NEXT_PUBLISHER_ID := by
        by_contra hne
        exact hnull uid hne huid
      refine ⟨hid, hpos, hle, .inr ⟨⟨hsub, ?_⟩, hone.2 hfirst⟩⟩
      rwa [← hfirst]

/-- A default value, or else the value of the first setter, is valid. -/
def FirstValid (defaultValue : Option NTDataValue) (calls : List (Env × EntryCall)) : Prop :=
  match defaultValue with
  | some value => value.isValid
  | none => (∀ value, firstSet calls = some value → value.isValid) ∧ closesBefore calls ≤ 1

/-- With one publisher nothing fails. -/
theorem NTEntry.lifecycle_total (hw : w.Healthy this) (hfirst : FirstValid defaultValue calls)
    (hcount : publishersOf defaultValue calls = 1) :
    Ends (NTEntry.lifecycle env this topic defaultValue properties calls final w) (fun _ ↦ True)
      fun _ ↦ False := by
  have hsubscribe := ((NTSubscriber.make_healthy (hw.healthyFor topic)).and
    (@NTSubscriber.make_life _ env _ this hw.free topic
      (properties.getD .DEFAULT))).mono (fun _ ↦ id) fun _ he ↦ he.1
  -- the entry is made
  have hmade : Ends
      (NTEntry.make env this topic defaultValue properties w >>= fun r ↦
        calls.foldlM (fun r c ↦ c.2.run c.1 r) r)
      (fun r ↦ Over w r.1 ∧ Life w 1 r.1 r.2 ∧ (r.2.publishing = true → Sane r.1 r.2))
      fun _ ↦ False := by
    rw [NTEntry.make, bind_assoc]
    refine hsubscribe.bind fun w' hw' ↦ ?_
    obtain ⟨⟨hgood, -⟩, hlife, hopen⟩ := hw'
    cases defaultValue with
    | none =>
      obtain ⟨hvalid, hcloses⟩ := hfirst
      have hcount : publishersMade false calls = 1 := by
        rw [publishersOf] at hcount
        exact (Nat.zero_add _).symm.trans hcount
      exact hlife.calls_unmade hw.publishers hw.publisherId calls (hgood.live hw.live) hgood.sound
        (.inr ⟨hcloses, hopen⟩) hvalid hcount
    | some value =>
      have hcount : publishersMade true calls = 0 := by
        have hcount : 1 + publishersMade true calls = 1 := hcount
        omega
      have hmake :=
        @Life.make_sane _ env _ _ _ hlife (hgood.live hw.live) hgood.sound hw.publishers
        hw.publisherId _ hfirst topic none (properties.getD .DEFAULT)
      refine Ends.bind (Q := fun r : World × NTEntry ↦ Sane r.1 r.2 ∧ Life w 1 r.1 r.2 ∧
        r.2.publishing = true) (hmake.bind fun r hr ↦ ⟨hr.1, hr.2, rfl⟩) fun r hr ↦ ?_
      exact hr.1.over.calls hw.publishers calls hr.2.1 (fun _ ↦ hr.1) (by rw [hr.2.2]; exact hcount)
  rw [lifecycle, ← bind_assoc]
  exact hmade.bind fun r hr ↦ hr.1.destroy hr.2.1 hr.2.2 hw.publishers

/-- The condition is enough where nothing else fails. -/
theorem NTEntry.clean_of_unnoticed (h : Unnoticed defaultValue calls w)
    (hhealthy : w.inst.mutexFree = true → w.Healthy this ∧ FirstValid defaultValue calls) :
    NTEntry.Clean env this topic defaultValue properties calls final w := by
  cases hfree : w.inst.mutexFree with
  | false =>
    refine (NTEntry.lifecycle_locked hfree topic defaultValue properties calls final).mono
      (fun w' hw' ↦ ?_) fun _ he ↦ he ⟨h.subscriberId, h.publishes, h.publisherIds⟩
    rw [hw'.1]
    exact ⟨fun _ ↦ rfl, fun _ ↦ rfl⟩
  | true =>
    obtain ⟨⟨hsub, hpub⟩, hone⟩ := h.unnoticed.resolve_left fun hf ↦ by
      rw [hf] at hfree
      exact Bool.noConfusion hfree
    obtain ⟨hw, hfirst⟩ := hhealthy hfree
    refine ((NTEntry.lifecycle_total hw hfirst hone).and
      (NTEntry.lifecycle_leaves hfree topic defaultValue properties calls final)).mono
      (fun w' hw' ↦ ?_) fun _ he ↦ he.1
    obtain ⟨-, -, -, hsub', ⟨uid, huid, huid', -⟩, hsubs, hpubs⟩ := hw'
    obtain rfl := huid'.1 hone
    refine ⟨fun uid ↦ ?_, fun uid ↦ ?_⟩
    · by_cases hne : uid = w.NEXT_SUBSCRIBER_ID
      · rw [hne, hsub', hsub]
      · exact hsubs uid hne
    · by_cases hne : uid = w.NEXT_PUBLISHER_ID
      · rw [hne, huid, hpub]
      · exact hpubs hone uid hne

/-- **The life of an entry is clean only if its traces go unnoticed**, and where nothing else is
wrong it is clean exactly then. -/
theorem NTEntry.clean_iff (env : Env) (this : ℕ) (topic : Str) (defaultValue : Option NTDataValue)
    (properties : Option TopicProperties) (calls : List (Env × EntryCall)) (final : Env)
    (w : World) :
    (NTEntry.Clean env this topic defaultValue properties calls final w →
        Unnoticed defaultValue calls w) ∧
      ((w.inst.mutexFree = true → w.Healthy this ∧ FirstValid defaultValue calls) →
        (NTEntry.Clean env this topic defaultValue properties calls final w ↔
          Unnoticed defaultValue calls w)) :=
  ⟨fun h ↦ h.unnoticed, fun hhealthy ↦ ⟨fun h ↦ h.unnoticed, fun h ↦ clean_of_unnoticed h hhealthy⟩⟩

end Calls

/-- The local client gives up ids that nothing has, which leaves null pointers under them. -/
def plantedSample : List (Env × Event) :=
  [({}, .unsubscribe 0), ({}, .unpublish 0)]

/-- A value is set, and the publication is ended. -/
def callsSample : List (Env × EntryCall) :=
  [({}, .set (.set (.ofBool false)) none), ({}, .unpublish)]

omit [FloatCodec] in
set_option maxRecDepth 4000 in
/-- An entry that takes these ids is gone without a trace, on an instance that does all it asks. -/
theorem NTEntry.clean_sample :
    Ends (@run .fractional {} plantedSample)
      (fun st ↦ st.mutexFree = true ∧ @NTEntry.Clean .fractional {} 0 (ascii "x")
        (some (.ofBool true)) none callsSample {} { inst := st })
      fun _ ↦ False := by
  have hplanted : Ends (@run .fractional {} plantedSample)
      (fun st ↦ st.Intact ∧ st.thisClient.subscriptions.lookup 0 = some none ∧
        st.thisClient.publishers.lookup 0 = some none) fun _ ↦ False := by
    decide +kernel
  refine hplanted.imp fun st ⟨hst, hsub, hpub⟩ ↦ ⟨hst.1, ?_⟩
  have hid : (0 : Int32) ≠ Int32.maxValue := by decide
  have hcount : 0 < publishersOf (some (.ofBool true)) callsSample := by decide
  have hids : (0 : Int32).toInt + publishersOf (some (.ofBool true)) callsSample ≤
      Int32.maxValue.toInt := by decide
  exact ((@clean_iff .fractional {} 0 (ascii "x") (some (.ofBool true)) none callsSample {}
    { inst := st }).2 fun _ ↦ ⟨hst.healthy false 0, rfl⟩).2
    ⟨hid, hcount, hids, .inr ⟨⟨hsub, hpub⟩, rfl⟩⟩

omit [FloatCodec] in
set_option maxRecDepth 4000 in
/-- An entry with a default value leaves null pointers behind, on a server that was just started. -/
theorem NTEntry.leaves_null :
    ¬∀ (codec : FloatCodec) (start : Env) (env : Env) (this : ℕ) (topic : Str)
        (defaultValue : Option NTDataValue) (properties : Option TopicProperties)
        (calls : List (Env × EntryCall)) (final : Env),
      Ends (@startServer codec start)
        (fun st ↦ @NTEntry.Clean codec env this topic defaultValue properties calls final
          { inst := st }) fun _ ↦ True := by
  intro h
  have hstart : Ends (@startServer .fractional {})
      (fun st ↦ st.mutexFree = true ∧ st.thisClient.subscriptions.lookup 0 = none)
      fun _ ↦ False := by
    decide +kernel
  refine (h .fractional {} {} 0 (ascii "x") (some (.ofBool true)) none [] {}).incompatible hstart
    (fun st hclean hst ↦ ?_) fun _ _ ↦ id
  rcases (@NTEntry.Clean.unnoticed .fractional _ _ _ _ _ _ _ _ hclean).unnoticed with
    hlocked | ⟨⟨hsub, -⟩, -⟩
  · rw [hst.1] at hlocked
    exact Bool.noConfusion hlocked
  · rw [hst.2] at hsub
    cases hsub

end NetworkTables
