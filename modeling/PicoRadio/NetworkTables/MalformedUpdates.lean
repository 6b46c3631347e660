import PicoRadio.Msgpack.RoundTrip
import PicoRadio.NetworkTables.BinaryFrames
import PicoRadio.NetworkTables.CallbackIndependence

/-!
# Arrays that are no updates

The errors of the unpacker are looked at only at the end of a pass, when the array has been handled.
So an array that ends too early, or whose value has another type than its code says, is handled
like any other, with what the unpacker has made of it.

What handling an array does depends on the values that were read and on the state, not on whether
the bytes were well formed. `Harmless` says when it leaves every value as it is, sends no update and
fails no assertion.

A pass need not read the array to its end. The value of a code that stands for no type is not read
at all, and the next pass begins at it. So what the bytes of an array do is what all the passes do
that begin in them.
-/

namespace NetworkTables

open Msgpack Msgpack.Unpacker

section

variable [FloatCodec] {env : Env} {st s : Instance} {name : Str} {guid : Guid}

/-! ### What can be seen of the topics -/

omit [FloatCodec] in
/-- The value of a topic. -/
def Instance.valueOf (st : Instance) (name : Str) : Option NTDataValue :=
  (st.topics.lookup name).join.map (·.1.value)

omit [FloatCodec] in
/-- The updates that were put into the binary cache of a client with a connection. -/
def Instance.updatesTo (st : Instance) (guid : Guid) : Option (List ValueUpdate) :=
  (st.remote guid).map (·.updates)

omit [FloatCodec] in
/-- Every topic has the value it had, and no client is sent an update. -/
structure Unchanged (st s : Instance) : Prop where
  values : s.valueOf = st.valueOf
  updates : s.updatesTo = st.updatesTo

omit [FloatCodec] in
/-- What can be seen is all that counts. -/
theorem Unchanged.congr {s' : Instance} (hvalues : s'.valueOf = s.valueOf)
    (hupdates : s'.updatesTo = s.updatesTo) : Unchanged st s' ↔ Unchanged st s :=
  ⟨fun h ↦ ⟨hvalues ▸ h.values, hupdates ▸ h.updates⟩,
    fun h ↦ ⟨hvalues ▸ h.values, hupdates ▸ h.updates⟩⟩

omit [FloatCodec] in
/-- The updates are read off the clients. -/
theorem Instance.updatesTo_congr (h : s.clients = st.clients) : s.updatesTo = st.updatesTo := by
  funext guid
  rw [Instance.updatesTo, Instance.updatesTo, Instance.remote, Instance.remote, h]

omit [FloatCodec] in
/-- The values are read off the topics. -/
theorem Instance.valueOf_congr (h : s.topics = st.topics) : s.valueOf = st.valueOf := by
  funext name
  rw [Instance.valueOf, Instance.valueOf, h]

omit [FloatCodec] in
/-- Only a client with a connection has updates. -/
theorem Instance.updatesTo_eq_some {updates : List ValueUpdate} :
    st.updatesTo guid = some updates ↔
      ∃ d, st.clients.lookup guid = some (.remote d) ∧ d.updates = updates := by
  rw [Instance.updatesTo, Option.map_eq_some_iff]
  simp only [Instance.remote_eq_some]

omit [FloatCodec] in
/-- A change of a client's data that adds no update. -/
theorem Instance.updatesTo_setClient {d d' : ClientData} (hd : st.Behind guid d)
    (hsame : d'.updates = d.updates) : (st.setClient guid d').updatesTo = st.updatesTo := by
  rcases hd with ⟨hself, rfl⟩ | hd
  · rw [Instance.setClient_of_self hself]
    rfl
  · funext guid'
    rw [Instance.setClient_of_remote hd, Instance.updatesTo, Instance.updatesTo, Instance.remote,
      Instance.remote]
    obtain rfl | hne := eq_or_ne guid' guid
    · rw [AList.lookup_insert, hd]
      exact congrArg some hsame
    · rw [AList.lookup_insert_ne hne]

/-! ### A broadcast that sends nothing -/

omit [FloatCodec] in
/-- Visiting the client in a broadcast sends it nothing. The local client may be visited: its
callback sends nothing either. -/
def Instance.Spared (env : Env) (st : Instance) (name : Str) (guid : Guid) : Prop :=
  st.Passes env name guid ∨ st.isSelf guid ∧ ∀ data,
    st.thisClient.topicData.lookup name = some data →
      ∃ send, receivesUpdate env st.thisClient name data = .ok send

omit [FloatCodec] in
/-- A broadcast over these clients sends nothing: it is sent to none of them, or the local client
ends it before it comes to one that is due the value. -/
def QuietOver (env : Env) (st : Instance) (topic : Topic) (time : UInt64) (guids : List Guid) :
    Prop :=
  (∀ guid ∈ guids, st.Spared env topic.name guid) ∨
    ∃ before self after, guids = before ++ self :: after ∧ st.isSelf self ∧
      (∀ guid ∈ before, st.Passes env topic.name guid) ∧ st.TurnsDown env topic time

omit [FloatCodec] in
/-- A broadcast sends nothing to a client with a connection. -/
def Instance.Quiet (env : Env) (st : Instance) (topic : Topic) (time : UInt64) : Prop :=
  QuietOver env st topic time (env.guids.keys st.clients)

variable {topic : Topic} {time : UInt64} {guids : List Guid}

omit [FloatCodec] in
/-- One pointer leads to one client. -/
theorem Instance.Behind.unique {d d' : ClientData} (h : st.Behind guid d) (h' : st.Behind guid d') :
    d = d' :=
  Except.ok.inj ((h.client .nullDeref).symm.trans (h'.client .nullDeref))

omit [FloatCodec] in
/-- The client is passed over if it has no entry for the topic, or is not due the value by it. -/
theorem Instance.passes_iff {d : ClientData} (hd : st.Behind guid d) :
    st.Passes env name guid ↔
      ∀ data, d.topicData.lookup name = some data → receivesUpdate env d name data = .ok false :=
  ⟨fun ⟨_, hd', h⟩ ↦ hd.unique hd' ▸ h, fun h ↦ ⟨d, hd, h⟩⟩

/-- A client with a connection is passed by, or it is sent the update, or its subscriptions are not
sound. -/
theorem sendTopicUpdateBody_remote {d : ClientData}
    (hd : st.clients.lookup guid = some (.remote d)) (hnot : ¬st.Passes env topic.name guid) :
    Ends (sendTopicUpdateBody env topic time st guid)
      (fun r ↦ r = (st.setClient guid (d.sendTopicUpdate topic time), true)) fun _ ↦ True := by
  rw [Instance.passes_iff (.inr hd)] at hnot
  push Not at hnot
  obtain ⟨data, hdata, hsend⟩ := hnot
  rw [sendTopicUpdateBody, Instance.Behind.client (.inr hd), ok_bind, hdata]
  show Ends (receivesUpdate env d topic.name data >>= _) _ _
  cases hreceives : receivesUpdate env d topic.name data with
  | error e => trivial
  | ok send =>
    cases send with
    | false => exact absurd hreceives hsend
    | true =>
      show Ends (if st.isSelf guid then _ else _) _ _
      rw [if_neg (by simp [Instance.isSelf, hd])]
      exact rfl

/-- The local client is passed by, or its callback is asked. -/
theorem sendTopicUpdateBody_self (hself : st.isSelf guid) (hvalid : topic.value.isValid) :
    Ends (sendTopicUpdateBody env topic time st guid)
      (fun r ↦ r.1.clients = st.clients ∧ r.1.topics = st.topics ∧
        st.Spared env topic.name guid ∧ (r.2 = false ↔ st.TurnsDown env topic time))
      fun _ ↦ ¬st.Spared env topic.name guid ∧ ¬st.TurnsDown env topic time := by
  have hlookup : st.clients.lookup guid = some .self := of_decide_eq_true hself
  have hbehind : st.Behind guid st.thisClient := .inl ⟨hlookup, rfl⟩
  rw [sendTopicUpdateBody, hbehind.client, ok_bind]
  cases hdata : st.thisClient.topicData.lookup topic.name with
  | none =>
    refine ⟨rfl, rfl, .inr ⟨hself, fun data hdata' ↦ ?_⟩, Bool.noConfusion, ?_⟩
    · cases hdata.symm.trans hdata'
    · rintro ⟨data, _, hdata', _⟩
      cases hdata.symm.trans hdata'
  | some data =>
    show Ends (receivesUpdate env st.thisClient topic.name data >>= _) _ _
    cases hreceives : receivesUpdate env st.thisClient topic.name data with
    | error e =>
      refine ⟨?_, ?_⟩
      · rintro (hpass | ⟨-, hsound⟩)
        · have := (Instance.passes_iff hbehind).1 hpass data hdata
          cases hreceives.symm.trans this
        · obtain ⟨send, hsend⟩ := hsound data hdata
          cases hreceives.symm.trans hsend
      · rintro ⟨data', _, hdata', hreceives', _⟩
        obtain rfl := Option.some.inj (hdata.symm.trans hdata')
        cases hreceives.symm.trans hreceives'
    | ok send =>
      have hspared : st.Spared env topic.name guid := by
        refine .inr ⟨hself, fun data' hdata' ↦ ⟨send, ?_⟩⟩
        obtain rfl := Option.some.inj (hdata.symm.trans hdata')
        exact hreceives
      cases send with
      | false =>
        refine ⟨rfl, rfl, hspared, Bool.noConfusion, ?_⟩
        rintro ⟨data', _, hdata', hreceives', _⟩
        obtain rfl := Option.some.inj (hdata.symm.trans hdata')
        cases hreceives.symm.trans hreceives'
      | true =>
        show Ends (if st.isSelf guid then _ else _) _ _
        rw [if_pos hself, sendTopicUpdateSelf]
        cases hcallback : env.topicUpdateCallback with
        | none =>
          refine ⟨rfl, rfl, hspared, Bool.noConfusion, ?_⟩
          rintro ⟨_, _, _, _, hcallback', _⟩
          cases hcallback.symm.trans hcallback'
        | some callback =>
          have hst : ({ st with thisClient := { st.thisClient with
              topicData :=
                st.thisClient.topicData.subscript topic.name {} } } : Instance) = st := by
            rw [AList.subscript_of_mem (AList.mem_of_lookup hdata)]
          dsimp only
          rw [hst, if_pos hvalid]
          refine ⟨rfl, rfl, hspared,
            fun hanswer ↦ ⟨data, callback, hdata, hreceives, hcallback, hanswer⟩, ?_⟩
          rintro ⟨_, callback', _, _, hcallback', hanswer⟩
          obtain rfl := Option.some.inj (hcallback.symm.trans hcallback')
          exact hanswer

omit [FloatCodec] in
/-- The local client is told of a value by its callback alone. -/
theorem sendTopicUpdateSelf_keeps :
    Ends (sendTopicUpdateSelf env st topic time)
      (fun r ↦ r.1.topics = st.topics ∧ r.1.clients = st.clients) fun _ ↦ True := by
  unfold sendTopicUpdateSelf
  split
  · exact ⟨rfl, rfl⟩
  · dsimp only
    split
    · exact ⟨rfl, rfl⟩
    · trivial

/-- Whatever a broadcast does, it takes no update back. -/
theorem sendTopicUpdateBody_keeps {n : ℕ} {d : ClientData} {guid' : Guid}
    (hd : st.clients.lookup guid = some (.remote d)) (hn : n < d.updates.length) :
    Ends (sendTopicUpdateBody env topic time st guid')
      (fun r ↦ r.1.topics = st.topics ∧
        ∃ d', r.1.clients.lookup guid = some (.remote d') ∧ n < d'.updates.length)
      fun _ ↦ True := by
  rw [sendTopicUpdateBody]
  refine ((st.client_ends guid' .clientNull).mono (fun _ ↦ id) fun _ _ ↦ trivial).bind
    fun d₁ hd₁ ↦ ?_
  split
  · exact ⟨rfl, d, hd, hn⟩
  · refine Ends.bind (Q := fun _ ↦ True) (Ends.iff_forall.2 ⟨fun _ _ ↦ trivial, fun _ _ ↦ trivial⟩)
      fun send _ ↦ ?_
    split
    · split
      · refine sendTopicUpdateSelf_keeps.mono (fun r hr ↦ ?_) fun _ ↦ id
        obtain ⟨htopics, hclients⟩ := hr
        exact ⟨htopics, d, by rw [hclients, hd], hn⟩
      · refine ⟨Instance.topics_setClient _ _ _, ?_⟩
        rcases hd₁ with ⟨hself, rfl⟩ | hd₁
        · rw [Instance.setClient_of_self hself]
          exact ⟨d, hd, hn⟩
        · rw [Instance.setClient_of_remote hd₁]
          obtain rfl | hne := eq_or_ne guid guid'
          · obtain rfl := ClientPtr.remote.inj (Option.some.inj (hd₁.symm.trans hd))
            refine ⟨_, AList.lookup_insert _, ?_⟩
            rw [ClientData.updates_sendTopicUpdate, List.length_append]
            omega
          · exact ⟨d, by rw [AList.lookup_insert_ne hne, hd], hn⟩
    · exact ⟨rfl, d, hd, hn⟩

/-- An update that has been put into a cache is not taken out by the rest of the broadcast. -/
theorem foldUntil_keeps {n : ℕ} {d : ClientData} (hd : st.clients.lookup guid = some (.remote d))
    (hn : n < d.updates.length) :
    Ends (foldUntil (sendTopicUpdateBody env topic time) st guids)
      (fun r ↦ r.1.topics = st.topics ∧
        ∃ d', r.1.clients.lookup guid = some (.remote d') ∧ n < d'.updates.length)
      fun _ ↦ True := by
  induction guids generalizing st d with
  | nil => exact ⟨rfl, d, hd, hn⟩
  | cons guid' guids ih =>
    refine (sendTopicUpdateBody_keeps hd hn).bind fun r ⟨htopics, d', hd', hn'⟩ ↦ ?_
    split
    · exact (ih hd' hn').imp fun r' ⟨htopics', hd'⟩ ↦ ⟨htopics'.trans htopics, hd'⟩
    · exact ⟨htopics, d', hd', hn'⟩

section QuietOver

omit [FloatCodec]

/-- A local client that accepts the value makes no difference. -/
theorem quietOver_cons_self (hspared : st.Spared env topic.name guid)
    (hnot : ¬st.TurnsDown env topic time) :
    QuietOver env st topic time (guid :: guids) ↔ QuietOver env st topic time guids := by
  refine ⟨?_, ?_⟩
  · rintro (hall | ⟨_, _, _, _, _, _, hturns⟩)
    · exact .inl fun guid' hmem ↦ hall guid' (List.mem_cons_of_mem guid hmem)
    · exact absurd hturns hnot
  · rintro (hall | ⟨_, _, _, _, _, _, hturns⟩)
    · exact .inl (List.forall_mem_cons.2 ⟨hspared, hall⟩)
    · exact absurd hturns hnot

/-- Neither does a client that is passed by. -/
theorem quietOver_cons_passes (hself : ¬st.isSelf guid) (hpass : st.Passes env topic.name guid) :
    QuietOver env st topic time (guid :: guids) ↔ QuietOver env st topic time guids := by
  refine ⟨?_, ?_⟩
  · rintro (hall | ⟨_ | ⟨guid', before⟩, self, after, hguids, hisSelf, hbefore, hturns⟩)
    · exact .inl fun guid' hmem ↦ hall guid' (List.mem_cons_of_mem guid hmem)
    · obtain ⟨rfl, -⟩ := List.cons.inj hguids
      exact absurd hisSelf hself
    · obtain ⟨rfl, hrest⟩ := List.cons.inj hguids
      exact .inr ⟨before, self, after, hrest, hisSelf,
        fun guid' hmem ↦ hbefore guid' (List.mem_cons_of_mem _ hmem), hturns⟩
  · rintro (hall | ⟨before, self, after, rfl, hisSelf, hbefore, hturns⟩)
    · exact .inl (List.forall_mem_cons.2 ⟨.inl hpass, hall⟩)
    · exact .inr ⟨guid :: before, self, after, rfl, hisSelf,
        List.forall_mem_cons.2 ⟨hpass, hbefore⟩, hturns⟩

/-- A client that is not passed by makes the difference. -/
theorem not_quietOver_cons (hself : ¬st.isSelf guid) (hpass : ¬st.Passes env topic.name guid) :
    ¬QuietOver env st topic time (guid :: guids) := by
  rintro (hall | ⟨_ | ⟨guid', before⟩, self, after, hguids, hisSelf, hbefore, -⟩)
  · exact (hall guid List.mem_cons_self).elim hpass fun h ↦ hself h.1
  · obtain ⟨rfl, -⟩ := List.cons.inj hguids
    exact hself hisSelf
  · obtain ⟨rfl, -⟩ := List.cons.inj hguids
    exact hpass (hbefore _ List.mem_cons_self)

end QuietOver

/-- What a broadcast over these clients sends. The local client is visited once, and the clients
behind it find the pointers as they were. -/
theorem foldUntil_quiet (hwired : st.Wired) (hvalid : topic.value.isValid) (hnodup : guids.Nodup)
    (hmem : ∀ guid ∈ guids, guid ∈ st.clients) (hclients : s.clients = st.clients)
    (hself : (∃ guid ∈ guids, st.isSelf guid) → s = st) :
    Ends (foldUntil (sendTopicUpdateBody env topic time) s guids)
      (fun r ↦ r.1.topics = s.topics ∧
        (r.1.updatesTo = st.updatesTo ↔ QuietOver env st topic time guids))
      fun _ ↦ ¬QuietOver env st topic time guids := by
  induction guids generalizing s with
  | nil =>
    exact ⟨rfl, iff_of_true (Instance.updatesTo_congr hclients)
      (.inl fun _ h ↦ absurd h List.not_mem_nil)⟩
  | cons guid guids ih =>
    obtain ⟨hguid, hnodup⟩ := List.nodup_cons.1 hnodup
    have hmem' : ∀ guid ∈ guids, guid ∈ st.clients := fun guid' hguid' ↦
      hmem guid' (List.mem_cons_of_mem guid hguid')
    by_cases hisSelf : st.isSelf guid
    · obtain rfl := hself ⟨guid, List.mem_cons_self, hisSelf⟩
      have hfault (h : ¬s.Spared env topic.name guid ∧ ¬s.TurnsDown env topic time) :
          ¬QuietOver env s topic time (guid :: guids) := by
        rintro (hall | ⟨_, _, _, _, _, _, hturns⟩)
        · exact h.1 (hall guid List.mem_cons_self)
        · exact h.2 hturns
      refine ((sendTopicUpdateBody_self hisSelf hvalid).mono (fun _ ↦ id) fun _ ↦ hfault).bind ?_
      rintro r ⟨hclients', htopics, hspared, hturns⟩
      split
      · next hanswer =>
        rw [quietOver_cons_self hspared (by rw [← hturns, hanswer]; simp)]
        refine (ih hnodup hmem' hclients' ?_).imp fun r' hr' ↦ ⟨hr'.1.trans htopics, hr'.2⟩
        -- the local client is not visited again
        rintro ⟨guid', hmem', hisSelf'⟩
        obtain rfl : guid' = guid :=
          ((hwired guid').2 hisSelf').trans ((hwired guid).2 hisSelf).symm
        exact absurd hmem' hguid
      · next hanswer =>
        refine ⟨htopics, iff_of_true (Instance.updatesTo_congr hclients')
          (.inr ⟨[], guid, guids, rfl,
          hisSelf, fun _ h ↦ absurd h List.not_mem_nil, hturns.1 (by simpa using hanswer)⟩)⟩
    · have hself' : (∃ guid ∈ guids, st.isSelf guid) → s = st := by
        rintro ⟨guid', hmem', h⟩
        exact hself ⟨guid', List.mem_cons_of_mem guid hmem', h⟩
      obtain ⟨d, hd⟩ : ∃ d, st.clients.lookup guid = some (.remote d) := by
        obtain ⟨ptr, hptr⟩ := AList.exists_lookup_of_mem (hmem guid List.mem_cons_self)
        cases ptr with
        | null => exact absurd hptr (hwired guid).1
        | self => exact absurd (by simp [Instance.isSelf, hptr]) hisSelf
        | remote d => exact ⟨d, hptr⟩
      have hd' : s.clients.lookup guid = some (.remote d) := by rw [hclients, hd]
      by_cases hpass : st.Passes env topic.name guid
      · rw [quietOver_cons_passes hisSelf hpass]
        have hpass' : s.Passes env topic.name guid :=
          (Instance.passes_iff (.inr hd')).2 ((Instance.passes_iff (.inr hd)).1 hpass)
        rw [foldUntil, hpass'.sendTopicUpdateBody]
        exact ih hnodup hmem' hclients hself'
      · have hpass' : ¬s.Passes env topic.name guid := fun h ↦
          hpass ((Instance.passes_iff (.inr hd)).2 ((Instance.passes_iff (.inr hd')).1 h))
        have hquiet : ¬QuietOver env st topic time (guid :: guids) :=
          not_quietOver_cons hisSelf hpass
        refine ((sendTopicUpdateBody_remote hd' hpass').mono (fun _ ↦ id) fun _ _ ↦ hquiet).bind ?_
        rintro r rfl
        have hsent : (s.setClient guid (d.sendTopicUpdate topic time)).clients.lookup guid =
            some (.remote (d.sendTopicUpdate topic time)) := by
          rw [Instance.setClient_of_remote hd']
          exact AList.lookup_insert _
        refine (foldUntil_keeps (n := d.updates.length) hsent ?_).mono
          (fun r hr ↦ ?_) fun _ _ ↦ hquiet
        · rw [ClientData.updates_sendTopicUpdate, List.length_append]
          exact Nat.lt_succ_self _
        · obtain ⟨htopics, d', hd'', hn⟩ := hr
          refine ⟨by rw [htopics, Instance.topics_setClient], iff_of_false (fun heq ↦ ?_) hquiet⟩
          have hbefore := Instance.updatesTo_eq_some.2 ⟨d, hd, rfl⟩
          rw [← heq] at hbefore
          obtain ⟨d₂, hd₂, hsame⟩ := Instance.updatesTo_eq_some.1 hbefore
          obtain rfl := ClientPtr.remote.inj (Option.some.inj (hd₂.symm.trans hd''))
          rw [hsame] at hn
          exact absurd hn (lt_irrefl _)

/-- What a broadcast sends. -/
theorem sendTopicUpdate_quiet (hwired : st.Wired) (hvalid : topic.value.isValid) :
    Ends (sendTopicUpdate env st topic time)
      (fun r ↦ r.1.topics = st.topics ∧ (r.1.updatesTo = st.updatesTo ↔ st.Quiet env topic time))
      fun _ ↦ ¬st.Quiet env topic time :=
  foldUntil_quiet hwired hvalid (env.guids.nodup_keys _) (fun _ h ↦ env.guids.mem_keys.1 h) rfl
    fun _ ↦ rfl

/-! ### Handling an array -/

/-- The pointers stay good ones. -/
theorem Broadcast.wired {K : Allow} {complete : Prop} (h : Broadcast K topic time complete st s)
    (hst : st.Wired) : s.Wired := by
  refine hst.congr fun guid ↦ ?_
  by_cases hd : ∃ d, st.clients.lookup guid = some (.remote d)
  · obtain ⟨d, hd⟩ := hd
    rcases h.remote guid d hd with ⟨-, hd'⟩ | ⟨-, hd'⟩ <;> exact .inl ⟨_, hd'⟩
  · exact .inr (.inr (h.other guid fun d hd' ↦ hd ⟨d, hd'⟩))

omit [FloatCodec] in
/-- Behind every guid of the map there is a client. -/
theorem Instance.Wired.exists_behind (hst : st.Wired) (hguid : guid ∈ st.clients) :
    ∃ d, st.Behind guid d := by
  obtain ⟨ptr, hptr⟩ := AList.exists_lookup_of_mem hguid
  cases ptr with
  | null => exact absurd hptr (hst guid).1
  | self => exact ⟨_, .inl ⟨hptr, rfl⟩⟩
  | remote d => exact ⟨d, .inr hptr⟩

omit [FloatCodec] in
/-- Where no pointer is null, flushing succeeds and changes nothing that can be seen. -/
theorem flushBinary_unchanged (hst : st.Wired) :
    Ends (flushBinary env st)
      (fun s ↦ (s.valueOf = st.valueOf ∧ s.updatesTo = st.updatesTo) ∧ s.Wired)
      fun _ ↦ False := by
  rw [flushBinary, flushAll]
  have hloop : Ends ((env.guids.keys st.clients).foldlM (fun st guid ↦
      if st.isSelf guid then .ok st
      else do
        let d ← st.client guid .nullDeref
        .ok (st.setClient guid (d.flushBinary MAX_CLIENT_BINARY_CACHE_LENGTH))) st)
      (fun s ↦ (s.valueOf = st.valueOf ∧ s.updatesTo = st.updatesTo) ∧ s.Wired ∧
        ∀ guid ∈ st.clients, guid ∈ s.clients) fun _ ↦ False := by
    refine Ends.foldlM (fun guid hguid s ⟨⟨hvalues, hupdates⟩, hs, hmem⟩ ↦ ?_)
      ⟨⟨rfl, rfl⟩, hst, fun _ ↦ id⟩
    split
    · exact ⟨⟨hvalues, hupdates⟩, hs, hmem⟩
    · obtain ⟨d, hd⟩ := hs.exists_behind (hmem guid (env.guids.mem_keys.1 hguid))
      rw [hd.client]
      refine ⟨⟨?_, ?_⟩, hs.setClient _ _, fun guid' hguid' ↦ ?_⟩
      · exact (Instance.valueOf_congr (Instance.topics_setClient _ _ _)).trans hvalues
      · exact (Instance.updatesTo_setClient hd (ClientData.updates_flushBinary _ _)).trans hupdates
      · have hkeys := (s.keys_setClient guid (d.flushBinary MAX_CLIENT_BINARY_CACHE_LENGTH)).mem_iff
          (a := guid')
        exact AList.mem_keys.2 (hkeys.2 (AList.mem_keys.1 (hmem guid' hguid')))
  exact hloop.imp fun s hs ↦ ⟨hs.1, hs.2.1⟩

omit [FloatCodec] in
/-- The array is answered, or comes when it cannot be handled, or is about no topic. -/
def Ignored (st : Instance) (guid : Guid) (m : BinaryMessage) : Prop :=
  m.id = -1 ∨ st.mutexFree = false ∨ guid ∉ st.clients ∨
    ∀ d pub, st.Behind guid d → d.publishers.lookup m.id.toInt32 = some (some pub) →
      ¬st.HasTopic pub.topic

omit [FloatCodec] in
/-- The topic has the value already, and sending it reaches nobody. -/
def WithoutEffect (env : Env) (st : Instance) (name : Str) (value : NTDataValue) : Prop :=
  ∃ t, st.topics.lookup name = some (some t) ∧ value.isValid ∧ t.1.value.assign value = t.1.value ∧
    let sending := { st with mutexFree := false }.setTopic name t
    sending.Quiet env t.1 (getServerTime env sending)

omit [FloatCodec] in
/-- The array is ignored, or what it says of its topic has no effect. -/
def Harmless (env : Env) (st : Instance) (guid : Guid) (m : BinaryMessage) : Prop :=
  Ignored st guid m ∨ ∃ d pub, st.Behind guid d ∧
    d.publishers.lookup m.id.toInt32 = some (some pub) ∧ WithoutEffect env st pub.topic m.data

omit [FloatCodec] in
/-- A valid value is without effect just if assigning it changes nothing and the broadcast is
quiet. -/
theorem withoutEffect_iff (env : Env) {value : NTDataValue} {t : TopicAt name}
    (ht : st.topics.lookup name = some (some t)) (hvalid : value.isValid) :
    let t' := t.setValue (t.1.value.assign value)
    let sending := { st with mutexFree := false }.setTopic name t'
    WithoutEffect env st name value ↔
      t'.1.value = t.1.value ∧ sending.Quiet env t'.1 (getServerTime env sending) := by
  have hsame (heq : t.1.value.assign value = t.1.value) :
      t.setValue (t.1.value.assign value) = t := by
    rw [heq]
    rfl
  refine ⟨fun ⟨t₂, ht₂, _, heq, hquiet⟩ ↦ ?_, fun ⟨heq, hquiet⟩ ↦ ⟨t, ht, hvalid, heq, ?_⟩⟩
  · obtain rfl := Option.some.inj (Option.some.inj (ht.symm.trans ht₂))
    exact ⟨heq, by rwa [hsame heq]⟩
  · rwa [hsame heq] at hquiet

omit [FloatCodec] in
/-- The values after one of them was set. -/
theorem valueOf_setTopic {t t' : TopicAt name} (ht : st.topics.lookup name = some (some t))
    (hs : s.topics = st.topics.insert name (some t')) :
    s.valueOf = st.valueOf ↔ t'.1.value = t.1.value := by
  refine ⟨fun h ↦ ?_, fun h ↦ funext fun name' ↦ ?_⟩
  · have h := congrFun h name
    rw [Instance.valueOf, Instance.valueOf, hs, AList.lookup_insert, ht] at h
    exact Option.some.inj h
  · rw [Instance.valueOf, Instance.valueOf, hs]
    obtain rfl | hne := eq_or_ne name' name
    · rw [AList.lookup_insert, ht]
      exact congrArg some h
    · rw [AList.lookup_insert_ne hne]

/-- Setting a value and sending it. -/
theorem updatePublished_unchanged {pub : Publisher} {value : NTDataValue} {t : TopicAt pub.topic}
    (hst : st.Wired) (ht : st.topics.lookup pub.topic = some (some t)) :
    Ends (updatePublished env pub value (getServerTime env) { st with mutexFree := false })
      (fun s ↦ s.Wired ∧ (Unchanged st s ↔ WithoutEffect env st pub.topic value))
      fun _ ↦ ¬WithoutEffect env st pub.topic value := by
  rw [updatePublished, show ({ st with mutexFree := false } : Instance).topics =
    st.topics from rfl, ht]
  dsimp only
  split
  · next hvalid =>
    have hwithout := withoutEffect_iff env ht hvalid
    dsimp only at hwithout
    rw [hwithout]
    generalize hsending : { st with mutexFree := false }.setTopic pub.topic
      (t.setValue (t.1.value.assign value)) = sending
    have hwired : sending.Wired := hsending ▸ hst.congr fun _ ↦ .inr (.inr rfl)
    have hupdates : sending.updatesTo = st.updatesTo :=
      Instance.updatesTo_congr (by rw [← hsending]; rfl)
    refine Ends.map (((sendTopicUpdate_quiet hwired (NTDataValue.isValid_assign hvalid)).and
      (sendTopicUpdate_ends (K := .all) _ _)).mono (fun r ⟨⟨htopics, hquiet⟩, hsent, _⟩ ↦ ?_)
      fun _ h hboth ↦ h.1 hboth.2)
    rw [← hsending] at htopics
    refine ⟨hsent.wired hwired, fun h ↦ ⟨(valueOf_setTopic ht htopics).1 h.values, hquiet.1 ?_⟩,
      fun h ↦ ⟨(valueOf_setTopic ht htopics).2 h.1, ?_⟩⟩
    · rw [h.updates, hupdates]
    · rw [hquiet.2 h.2, hupdates]
  · next hinvalid =>
    exact fun ⟨_, _, hvalid, _⟩ ↦ hinvalid hvalid

omit [FloatCodec] in
/-- A null pointer in the place of a topic is no value. -/
theorem valueOf_insertNullTopic (hno : ¬st.HasTopic name) :
    (st.insertNullTopic name).valueOf = st.valueOf := by
  funext name'
  rw [Instance.valueOf, Instance.valueOf, Instance.insertNullTopic]
  obtain rfl | hne := eq_or_ne name' name
  · rw [AList.lookup_insert]
    cases hlookup : st.topics.lookup name' with
    | none => rfl
    | some t =>
      cases t with
      | none => rfl
      | some t => exact absurd ⟨t, hlookup⟩ hno
  · rw [AList.lookup_insert_ne hne]

/-- What the handling of an update does before the binary caches are flushed. -/
theorem updateOf_unchanged {d : ClientData} {m : BinaryMessage} (hst : st.Wired)
    (hd : st.Behind guid d) (hid : m.id ≠ -1) (hfree : st.mutexFree) (hguid : guid ∈ st.clients) :
    Ends (updateOf env guid d m { st with mutexFree := false })
      (fun s ↦ s.Wired ∧ (Unchanged st s ↔ Harmless env st guid m))
      fun _ ↦ ¬Harmless env st guid m := by
  have hwired : ({ st with mutexFree := false } : Instance).Wired := hst
  -- nothing is looked up but the publisher of this client
  have hignored (h : ∀ pub, d.publishers.lookup m.id.toInt32 = some (some pub) →
      ¬st.HasTopic pub.topic) : Harmless env st guid m := by
    refine .inl (.inr (.inr (.inr fun d' pub hd' hpub ↦ h pub ?_)))
    rwa [hd.unique hd']
  rw [updateOf]
  split
  · next pub hpub =>
    by_cases htopic : st.HasTopic pub.topic
    · obtain ⟨t, ht⟩ := htopic
      have hharmless : Harmless env st guid m ↔ WithoutEffect env st pub.topic m.data := by
        refine ⟨?_, fun h ↦ .inr ⟨d, pub, hd, hpub, h⟩⟩
        rintro ((hid' | hfree' | hguid' | hno) | ⟨d', pub', hd', hpub', h⟩)
        · exact absurd hid' hid
        · exact absurd hfree (by simp [hfree'])
        · exact absurd hguid hguid'
        · exact absurd ⟨t, ht⟩ (hno d pub hd hpub)
        · rw [← hd.unique hd'] at hpub'
          obtain rfl := Option.some.inj (Option.some.inj (hpub.symm.trans hpub'))
          exact h
      rw [hharmless]
      exact updatePublished_unchanged hst ht
    · have hharmless : Harmless env st guid m := hignored fun pub' hpub' ↦ by
        obtain rfl := Option.some.inj (Option.some.inj (hpub.symm.trans hpub'))
        exact htopic
      rw [updatePublished]
      split
      · next t ht => exact absurd ⟨t, ht⟩ htopic
      · exact ⟨hwired, iff_of_true ⟨rfl, rfl⟩ hharmless⟩
      · exact ⟨hwired, iff_of_true ⟨valueOf_insertNullTopic htopic, rfl⟩ hharmless⟩
  · next hno =>
    refine ⟨hwired.setClient _ _,
      iff_of_true ⟨?_, ?_⟩ (hignored fun pub hpub ↦ absurd hpub (hno pub))⟩
    · exact Instance.valueOf_congr (Instance.topics_setClient _ _ _)
    · exact @Instance.updatesTo_setClient { st with mutexFree := false } guid d _ hd rfl

/-- Handling an array changes nothing and fails nowhere exactly if it is harmless. -/
theorem handleArray_unchanged (hst : st.Wired) (m : BinaryMessage) :
    Ends (handleArray env guid m st)
      (fun r ↦ r.1.Wired ∧ (Unchanged st r.1 ↔ Harmless env st guid m))
      fun _ ↦ ¬Harmless env st guid m := by
  unfold handleArray
  split
  · next hid => exact ⟨hst, iff_of_true ⟨rfl, rfl⟩ (.inl (.inl hid))⟩
  next hid =>
  split
  swap
  · next hfree => exact ⟨hst, iff_of_true ⟨rfl, rfl⟩ (.inl (.inr (.inl (by simpa using hfree))))⟩
  next hfree =>
  split
  swap
  · next hguid => exact ⟨hst, iff_of_true ⟨rfl, rfl⟩ (.inl (.inr (.inr (.inl hguid))))⟩
  next hguid =>
  obtain ⟨d, hd⟩ := hst.exists_behind hguid
  have hd' : ({ st with mutexFree := false } : Instance).Behind guid d := hd
  have hwired : ({ st with mutexFree := false } : Instance).Wired := hst
  rw [Instance.withMutex, if_pos hfree, handleValue, hd'.client]
  show Ends
    ((· , true) <$> ((updateOf env guid d m { st with mutexFree := false } >>= _) >>= _)) _ _
  -- the end of the update: the binary caches are flushed and the mutex is given back
  have hend {s : Instance} {C : Prop} (hs : s.Wired) (hiff : Unchanged st s ↔ C) :
      Ends (flushBinary env s >>= fun s ↦ .ok ({ s with mutexFree := true } : Instance))
        (fun s ↦ s.Wired ∧ (Unchanged st s ↔ C)) fun _ ↦ ¬C := by
    refine ((flushBinary_unchanged hs).mono (fun _ ↦ id) fun _ ↦ False.elim).bind
      fun s' hs' ↦ ?_
    obtain ⟨⟨hvalues, hupdates⟩, hwired'⟩ := hs'
    refine ⟨hwired', Iff.trans (Unchanged.congr ?_ ?_) hiff⟩
    · exact (Instance.valueOf_congr rfl).trans hvalues
    · exact (Instance.updatesTo_congr rfl).trans hupdates
  refine Ends.map ?_
  rw [bind_assoc]
  exact (updateOf_unchanged hst hd hid hfree hguid).bind fun s hs ↦ hend hs.1 hs.2

/-! ### Passes over malformed arrays -/

omit [FloatCodec] in
/-- The state a pass leaves, unless it failed. -/
def Pass.state? : Pass → Option Instance
  | again _ st => some st
  | ended (.ok st) => some st
  | ended (.error _) => none

omit [FloatCodec] in
theorem Pass.state?_test (u : Unpacker) (st : Instance) : (Pass.test u st).state? = some st := by
  unfold Pass.test
  split <;> rfl

omit [FloatCodec] in
/-- What two programs leave as it is. -/
theorem Unchanged.trans {s' : Instance} (h : Unchanged st s) (h' : Unchanged s s') :
    Unchanged st s' :=
  ⟨h'.values.trans h.values, h'.updates.trans h.updates⟩

variable [FloatDecoder]

/-- The pointers stay in order. -/
theorem Again.wired {c c' : Unpacker × Instance} (h : Again env guid c c') (hc : c.2.Wired) :
    c'.2.Wired := by
  have htest {u v : Unpacker} {s s' : Instance} (h : Pass.test u s = .again v s') : s' = s := by
    have hstate := Pass.state?_test u s
    rw [h] at hstate
    exact Option.some.inj hstate
  rw [Again, binaryPass] at h
  obtain ⟨⟨m, u'⟩, hread⟩ : ∃ r, unpackMessage c.1 = r := ⟨_, rfl⟩
  rw [hread] at h
  cases m with
  | none => rwa [htest h]
  | some m =>
    have hwired := @handleArray_unchanged _ env _ guid hc m
    dsimp only at h
    cases hx : handleArray env guid m c.2 with
    | error fault =>
      rw [hx] at h
      cases h
    | ok r =>
      rw [hx] at h hwired
      obtain ⟨s, _ | _⟩ := r
      · cases h
      · rw [htest h]
        exact hwired.1

omit [FloatCodec] [FloatDecoder] in
/-- An unpacker that comes from the other one is still in the first `n` bytes. -/
def Unpacker.Within (n : ℕ) (u u' : Unpacker) : Prop :=
  u.remaining < u'.remaining + n

/-- The unpacker and the state at the beginning of a pass that begins in the first `n` bytes, as all
passes before it did. -/
def BeginsWithin (env : Env) (guid : Guid) (n : ℕ) (c c' : Unpacker × Instance) : Prop :=
  Relation.ReflTransGen (fun c₁ c₂ ↦ Unpacker.Within n c.1 c₁.1 ∧ Again env guid c₁ c₂) c c' ∧
    Unpacker.Within n c.1 c'.1

/-- The pointers are good ones wherever a pass begins. -/
theorem BeginsWithin.wired {n : ℕ} {c c' : Unpacker × Instance} (h : BeginsWithin env guid n c c')
    (hc : c.2.Wired) : c'.2.Wired := by
  obtain ⟨h, -⟩ := h
  induction h with
  | refl => exact hc
  | tail _ h ih => exact h.2.wired ih

end

/-! ### The forms of msgpack -/

/-- A tag, and as many bytes as it stands for. -/
def IsTagged (tags : List (UInt8 × ℕ)) (e : Bytes) : Prop :=
  ∃ tag data, e = tag :: data ∧ (tag, data.length) ∈ tags

/-- An integer: a byte by itself, or a tag and its bytes. -/
def IsInteger (e : Bytes) : Prop :=
  (∃ byte, e = [byte] ∧ IsFixint byte) ∨
    IsTagged
      [(0xcc, 1), (0xcd, 2), (0xce, 4), (0xcf, 8), (0xd0, 1), (0xd1, 2), (0xd2, 4), (0xd3, 8)] e

/-- A header for so many: a tag and a number, or one of `count` short headers. -/
def IsHeader (first : UInt8) (count : ℕ) (tags : List (UInt8 × ℕ)) (size : ℕ) (e : Bytes) : Prop :=
  (size < count ∧ e = [first + size.toUInt8]) ∨
    ∃ tag k, (tag, k) ∈ tags ∧ size < 2 ^ (8 * k) ∧ e = tag :: bigEndian k size

/-- A header with a length, and as many bytes. -/
def IsString (e : Bytes) : Prop :=
  ∃ header data, IsHeader 0xa0 32 [(0xd9, 1), (0xda, 2), (0xdb, 4)] data.length header ∧
    e = header ++ data

/-- The same for a buffer. -/
def IsBuffer (e : Bytes) : Prop :=
  ∃ header data, IsHeader 0 0 [(0xc4, 1), (0xc5, 2), (0xc6, 4)] data.length header ∧
    e = header ++ data

/-- The header of an array of this size. -/
def IsArrayHeader (size : ℕ) (e : Bytes) : Prop :=
  IsHeader 0x90 16 [(0xdc, 2), (0xdd, 4)] size e

/-- A header, and as many elements. -/
def IsArrayOf (elem : Bytes → Prop) (e : Bytes) : Prop :=
  ∃ (header : Bytes) (elems : List Bytes), IsArrayHeader elems.length header ∧
    (∀ x ∈ elems, elem x) ∧
    e = header ++ elems.flatten

def IsBoolean (e : Bytes) : Prop :=
  e = [0xc2] ∨ e = [0xc3]

/-- A number of either kind: an integer may stand for a floating-point number. -/
def IsNumber (e : Bytes) : Prop :=
  IsInteger e ∨ IsTagged [(0xca, 4), (0xcb, 8)] e

/-- The encodings of the values of an API type; the other codes have none. -/
def Encodes (type : NTDataType) (e : Bytes) : Prop :=
  match type with
  | .bool => IsBoolean e
  | .float64 | .float32 => IsNumber e
  | .int => IsInteger e
  | .str => IsString e
  | .bin => IsBuffer e
  | .boolArray => IsArrayOf IsBoolean e
  | .float64Array | .float32Array => IsArrayOf IsNumber e
  | .intArray => IsArrayOf IsInteger e
  | .strArray => IsArrayOf IsString e
  | .uint | .json | .raw | .msgpack | .protobuf | .unassigned | .unlisted _ => False

/-- The data begins with an update: an array of four elements, of which the third is the code of an
API type and the fourth a value of that type. -/
def WellFormed (data : Bytes) : Prop :=
  ∃ header id time type value rest, data = header ++ id ++ time ++
    [NTDataType.code type] ++ value ++ rest ∧
    IsArrayHeader 4 header ∧ IsInteger id ∧ IsInteger time ∧ Encodes type value

/-- There is at least a tag. -/
theorem IsInteger.ne_nil {e : Bytes} (h : IsInteger e) : e ≠ [] := by
  rcases h with ⟨byte, rfl, -⟩ | ⟨tag, data, rfl, -⟩ <;> exact List.cons_ne_nil _ _

/-- So it is for an array. -/
theorem IsArrayHeader.ne_nil {size : ℕ} {e : Bytes} (h : IsArrayHeader size e) : e ≠ [] := by
  rcases h with ⟨-, rfl⟩ | ⟨tag, k, -, -, rfl⟩ <;> exact List.cons_ne_nil _ _

/-- An update does not end after the id. -/
theorem WellFormed.length {data : Bytes} (h : WellFormed data) : 4 ≤ data.length := by
  obtain ⟨header, id, time, type, value, rest, rfl, hheader, hid, htime, -⟩ := h
  have hheader := List.length_pos_iff.2 hheader.ne_nil
  have hid := List.length_pos_iff.2 hid.ne_nil
  have htime := List.length_pos_iff.2 htime.ne_nil
  simp only [List.length_append, List.length_singleton]
  omega

end NetworkTables
