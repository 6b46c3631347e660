import PicoRadio.NetworkTables.Refreshes

/-!
# What the answers of the local client's callbacks change

Both callbacks of the local client answer with a `bool`. The answer to an announcement is lost in
most places, but a publication goes on to make the meta topics of a new topic only if it is `true`.
The answer to a value ends the broadcast of the value there and then if it is `false`.

An environment is compared with the one in which both callbacks, where they are set, answer `true`
(`Env.assent`). `Operation.Spares` goes through the broadcasts that an operation makes, each in the
state in which it is made: if the local client turns the value down, no client that comes after it
is due the value. Where this is so and no publication is cut short, the two environments take the
server to the same state. So do any two environments that differ in nothing but these answers.

If the traversal of the clients visits the local client last, nobody comes after it, and the answers
to values change nothing (`undisturbed_of_visitsLocalLast`).
-/

namespace NetworkTables

/-- The environment with callbacks that always answer `true`. -/
def Env.assent (env : Env) : Env :=
  { env with
    topicAnnouncedCallback := env.topicAnnouncedCallback.map fun _ _ _ ↦ true
    topicUpdateCallback := env.topicUpdateCallback.map fun _ _ _ _ _ ↦ true }

section

variable {env : Env} {st : Instance} {name : Str}

/-! ### Announcements -/

/-- The answer to an announcement, and nothing else, depends on the callback. -/
theorem announceTopicSelf_assent (env : Env) (st : Instance) (topic : Topic) :
    announceTopicSelf env.assent st topic = ((announceTopicSelf env st topic).1, true) := by
  unfold announceTopicSelf Env.assent
  cases env.topicAnnouncedCallback <;> rfl

/-- One client is told: with the other answer only the result is another one. -/
theorem announceTopicBody_assent (env : Env) (topic : Topic) (s : Instance × Bool) (guid : Guid) :
    announceTopicBody env.assent topic (s.1, true) guid =
      (fun r ↦ (r.1, true)) <$> announceTopicBody env topic s guid := by
  unfold announceTopicBody
  rw [map_bind]
  refine congrArg _ (funext fun d ↦ ?_)
  rw [map_bind]
  refine congrArg _ (funext fun sub ↦ ?_)
  rw [announceTopicSelf_assent]
  split
  · rfl
  · split <;> rfl

/-- All clients are told. -/
theorem announceTopic_assent (env : Env) (st : Instance) (topic : Topic) :
    announceTopic env.assent st topic = (fun r ↦ (r.1, true)) <$> announceTopic env st topic :=
  Ends.foldlM_map_state (fun r : Instance × Bool ↦ (r.1, true))
    (announceTopicBody_assent env topic) _ (st, true)

/-- All clients and the publisher. -/
theorem announceTopicToPublisher_assent (env : Env) (publisherGuid : Guid) (pubuid : Int32)
    (st : Instance) (topic : Topic) :
    announceTopicToPublisher env.assent publisherGuid pubuid st topic =
      (fun r ↦ (r.1, true)) <$> announceTopicToPublisher env publisherGuid pubuid st topic := by
  refine Ends.foldlM_map_state (fun r : Instance × Bool ↦ (r.1, true))
    (fun s guid ↦ ?_) _ (st, true)
  unfold announceTopicToPublisherBody
  split
  · rw [map_bind]
    rfl
  · exact announceTopicBody_assent env topic s guid

/-- The result of these announcements is not read. -/
theorem announceCachedTopicsSelf_assent (env : Env) (st : Instance) :
    announceCachedTopicsSelf env.assent st = announceCachedTopicsSelf env st := by
  unfold announceCachedTopicsSelf
  simp only [announceTopicSelf_assent]
  rfl

end

section

variable [FloatCodec] {env : Env} {st : Instance} {name : Str}

/-! ### Values -/

omit [FloatCodec] in
/-- Visiting the client in a broadcast of the topic does nothing. -/
def Instance.Passes (env : Env) (st : Instance) (name : Str) (guid : Guid) : Prop :=
  ∃ d, st.Behind guid d ∧
    ∀ data, d.topicData.lookup name = some data → receivesUpdate env d name data = .ok false

omit [FloatCodec] in
/-- The local client is due the value, and its callback turns it down. -/
def Instance.TurnsDown (env : Env) (st : Instance) (topic : Topic) (time : UInt64) : Prop :=
  ∃ data callback, st.thisClient.topicData.lookup topic.name = some data ∧
    receivesUpdate env st.thisClient topic.name data = .ok true ∧
    env.topicUpdateCallback = some callback ∧
    callback st (st.thisClient.topicId topic.name) time
      (.assign { type := topic.value.getAPIType } topic.value) = false

/-- If the local client turns the value down when the broadcast comes to it, no client after it is
due the value. -/
def SparesClients (env : Env) (st : Instance) (topic : Topic) (time : UInt64) : Prop :=
  ∀ before self after s, env.guids.keys st.clients = before ++ self :: after →
    foldUntil (sendTopicUpdateBody env topic time) st before = .ok (s, true) →
      st.isSelf self → s.TurnsDown env topic time → ∀ guid ∈ after, s.Passes env topic.name guid

/-- A client that a broadcast passes by. -/
theorem Instance.Passes.sendTopicUpdateBody {topic : Topic} {guid : Guid}
    (h : st.Passes env topic.name guid) (time : UInt64) :
    sendTopicUpdateBody env topic time st guid = .ok (st, true) := by
  obtain ⟨d, hd, hpass⟩ := h
  rw [NetworkTables.sendTopicUpdateBody, hd.client, ok_bind]
  split
  · rfl
  · next data hdata =>
    rw [hpass data hdata]
    rfl

/-- Clients that a broadcast passes by. -/
theorem foldUntil_passes {topic : Topic} {time : UInt64} {guids : List Guid}
    (h : ∀ guid ∈ guids, st.Passes env topic.name guid) :
    foldUntil (sendTopicUpdateBody env topic time) st guids = .ok (st, true) := by
  induction guids with
  | nil => rfl
  | cons guid guids ih =>
    rw [foldUntil, (h guid List.mem_cons_self).sendTopicUpdateBody]
    exact ih fun guid' hmem ↦ h guid' (List.mem_cons_of_mem guid hmem)

omit [FloatCodec] in
/-- Changing the data behind a pointer keeps the guids of the map. -/
theorem Instance.keys_setClient (st : Instance) (guid : Guid) (d : ClientData) :
    (st.setClient guid d).clients.keys.Perm st.clients.keys := by
  unfold Instance.setClient
  split
  · exact .refl _
  · next d₀ hd =>
    rw [AList.keys_insert]
    exact (List.perm_cons_erase (AList.mem_keys.1 (AList.mem_of_lookup hd))).symm
  · exact .refl _
  · exact .refl _

omit [FloatCodec] in
/-- The pointers to the local client stay. -/
theorem Instance.isSelf_setClient (st : Instance) (guid : Guid) (d : ClientData) (guid' : Guid) :
    (st.setClient guid d).isSelf guid' = st.isSelf guid' := by
  unfold Instance.setClient
  split
  · rfl
  · next d₀ hd =>
    rw [Instance.isSelf, Instance.isSelf, AList.lookup_insert_ite]
    split
    · next heq => rw [heq, hd]; rfl
    · rfl
  · rfl
  · rfl

omit [FloatCodec] in
/-- The callback for values is asked, and its answer changes nothing there and then. -/
theorem sendTopicUpdateSelf_assent (env : Env) (st : Instance) (topic : Topic) (time : UInt64) :
    Ends (sendTopicUpdateSelf env st topic time)
      (fun r ↦ r.1.clients = st.clients ∧
        sendTopicUpdateSelf env.assent st topic time = .ok (r.1, true))
      fun e ↦ sendTopicUpdateSelf env.assent st topic time = .error e := by
  unfold sendTopicUpdateSelf
  cases hcallback : env.topicUpdateCallback with
  | none => simp [Env.assent, hcallback]
  | some callback =>
    have hassent : env.assent.topicUpdateCallback = some fun _ _ _ _ ↦ true := by
      rw [Env.assent, hcallback]
      rfl
    rw [hassent]
    dsimp only
    split
    · exact ⟨rfl, rfl⟩
    · rfl

omit [FloatCodec] in
/-- The callback answers `false`. -/
theorem sendTopicUpdateSelf_false {topic : Topic} {time : UInt64} {data : ClientTopicData}
    (hdata : st.thisClient.topicData.lookup topic.name = some data)
    (hreceives : receivesUpdate env st.thisClient topic.name data = .ok true) :
    Ends (sendTopicUpdateSelf env st topic time)
      (fun r ↦ r.2 = false → st.TurnsDown env topic time ∧
        ∀ guid, st.Passes env topic.name guid → r.1.Passes env topic.name guid) fun _ ↦ True := by
  unfold sendTopicUpdateSelf
  cases hcallback : env.topicUpdateCallback with
  | none => exact fun h ↦ by cases h
  | some callback =>
    dsimp only
    rw [AList.subscript_of_mem (AList.mem_of_lookup hdata)]
    split
    · refine fun hanswer ↦ ⟨⟨data, callback, hdata, hreceives, hcallback, hanswer⟩, ?_⟩
      rintro guid ⟨d, ⟨hlookup, rfl⟩ | hremote, hpass⟩
      · exact ⟨_, .inl ⟨hlookup, rfl⟩, hpass⟩
      · exact ⟨d, .inr hremote, hpass⟩
    · trivial

/-- What the answer can change of one visit of a broadcast. -/
theorem sendTopicUpdateBody_assent (env : Env) (st : Instance) (topic : Topic) (time : UInt64)
    (guid : Guid) :
    Ends (sendTopicUpdateBody env topic time st guid)
      (fun r ↦ (∀ guid', r.1.isSelf guid' = st.isSelf guid') ∧
        sendTopicUpdateBody env.assent topic time st guid = .ok (r.1, true) ∧
        (r.2 = false → st.isSelf guid ∧ st.TurnsDown env topic time ∧
          ∀ guid', st.Passes env topic.name guid' → r.1.Passes env topic.name guid'))
      fun e ↦ sendTopicUpdateBody env.assent topic time st guid = .error e := by
  unfold sendTopicUpdateBody
  have hends := st.client_ends guid .clientNull
  cases hd : st.client guid .clientNull with
  | error e => rfl
  | ok d =>
    have hd := hends.of_ok hd
    dsimp only [Bind.bind, Except.bind]
    split
    · exact ⟨fun _ ↦ rfl, rfl, fun h ↦ by cases h⟩
    · next data hdata =>
      have hsame : receivesUpdate env.assent d topic.name data =
          receivesUpdate env d topic.name data := rfl
      rw [hsame]
      cases hreceives : receivesUpdate env d topic.name data with
      | error e => rfl
      | ok send =>
        cases send with
        | false => exact ⟨fun _ ↦ rfl, rfl, fun h ↦ by cases h⟩
        | true =>
          dsimp only
          rw [if_pos rfl, if_pos rfl]
          split
          · next hself =>
            obtain ⟨-, rfl⟩ | hremote := hd
            · refine ((sendTopicUpdateSelf_assent env st topic time).and
                (sendTopicUpdateSelf_false hdata hreceives)).mono
                  (fun r ⟨⟨hclients, hassent⟩, hfalse⟩ ↦ ⟨fun guid' ↦ ?_, hassent, ?_⟩) fun _ ↦
                    And.left
              · rw [Instance.isSelf, hclients]
                rfl
              · exact fun hanswer ↦ ⟨hself, hfalse hanswer⟩
            · rw [Instance.isSelf, hremote] at hself
              cases of_decide_eq_true hself
          · exact ⟨fun guid' ↦ st.isSelf_setClient guid _ guid', rfl, fun h ↦ by cases h⟩

/-- A broadcast that ends early passes by all the clients it does not visit. -/
theorem sendTopicUpdate_assent {topic : Topic} {time : UInt64}
    (hspares : SparesClients env st topic time) :
    Prod.fst <$> sendTopicUpdate env.assent st topic time =
      Prod.fst <$> sendTopicUpdate env st topic time := by
  suffices h : ∀ rest done s, env.guids.keys st.clients = done ++ rest →
      foldUntil (sendTopicUpdateBody env topic time) st done = .ok (s, true) →
      (∀ guid, s.isSelf guid = st.isSelf guid) →
      Prod.fst <$> foldUntil (sendTopicUpdateBody env.assent topic time) s rest =
        Prod.fst <$> foldUntil (sendTopicUpdateBody env topic time) s rest from
    h (env.guids.keys st.clients) [] st rfl rfl fun _ ↦ rfl
  intro rest
  induction rest with
  | nil => exact fun _ _ _ _ _ ↦ rfl
  | cons guid rest ih =>
    intro done s horder hdone hselves
    have hbody := sendTopicUpdateBody_assent env s topic time guid
    rw [foldUntil, foldUntil]
    cases hx : sendTopicUpdateBody env topic time s guid with
    | error e =>
      rw [hx] at hbody
      rw [hbody]
      rfl
    | ok r =>
      rw [hx] at hbody
      obtain ⟨hselves', hassent, hfalse⟩ := hbody
      rw [hassent]
      obtain ⟨s', answer⟩ := r
      show Prod.fst <$> foldUntil (sendTopicUpdateBody env.assent topic time) s' rest =
        Prod.fst <$> if answer then foldUntil (sendTopicUpdateBody env topic time) s' rest
          else .ok (s', false)
      cases answer with
      | true =>
        refine ih (done ++ [guid]) s' (by rw [horder, List.append_assoc]; rfl) ?_
          fun guid' ↦ (hselves' guid').trans (hselves guid')
        rw [foldUntil_append, hdone, ok_bind, if_pos rfl, foldUntil, hx]
        rfl
      | false =>
        -- the loop stops here; without the answer it would visit the rest and do nothing
        obtain ⟨hself, hturns, hpasses⟩ := hfalse rfl
        have hrest : ∀ guid' ∈ rest, s'.Passes env.assent topic.name guid' := fun guid' hmem ↦
          hpasses guid'
            (hspares done guid rest s horder hdone (by rwa [← hselves]) hturns guid' hmem)
        rw [foldUntil_passes hrest]
        rfl

omit [FloatCodec] in
/-- The answer to a first value is not read. -/
theorem publishInitialValuesSelf_assent (env : Env) (st : Instance) :
    publishInitialValuesSelf env.assent st = publishInitialValuesSelf env st := by
  have hself (s : Instance) (topic : Topic) (time : UInt64) :
      Prod.fst <$> sendTopicUpdateSelf env.assent s topic time =
        Prod.fst <$> sendTopicUpdateSelf env s topic time := by
    have h := sendTopicUpdateSelf_assent env s topic time
    cases hx : sendTopicUpdateSelf env s topic time with
    | error e =>
      rw [hx] at h
      rw [h]
    | ok r =>
      rw [hx] at h
      rw [h.2]
      rfl
  unfold publishInitialValuesSelf
  simp only [hself]
  rfl

/-! ### Meta topics -/

/-- The broadcast of the refreshed meta topic spares the clients. -/
def Refresh.Spares (env : Env) (st : Instance) (r : Refresh) : Prop :=
  Ends (r.content env st) (fun c ↦ ∀ t, st.topics.lookup c.1 = some (some t) →
    let t := t.setValue { t.1.value with bin := c.2 }
    let st := st.setTopic c.1 t
    SparesClients env st t.1 (getServerTime env st)) fun _ ↦ True

/-- A refresh that spares the clients does the same with both answers. -/
theorem Refresh.run_assent {r : Refresh} (h : r.Spares env st) :
    r.run env.assent st = r.run env st := by
  have hcontent : r.content env.assent st = r.content env st := by cases r <;> rfl
  rw [run_stores, run_stores, hcontent]
  refine h.bind_congr fun c hc ↦ ?_
  unfold storeMetaTopic
  split
  · next t ht => exact sendTopicUpdate_assent (hc t ht)
  · rfl
  · rfl

/-- Every one of these refreshes spares the clients in the state that the ones before it leave. -/
def SparesAll (env : Env) : Instance → List Refresh → Prop :=
  Guarded (Refresh.run env) (Refresh.Spares env)

namespace SparesAll

variable {r : Refresh} {rs : List Refresh}

/-- One refresh. -/
theorem single (h : SparesAll env st [r]) : r.run env.assent st = r.run env st :=
  Refresh.run_assent (And.left h)

/-- The first refresh, and what comes after it. -/
theorem bind {β : Type} {f g : Instance → Except Fault β} (h : SparesAll env st (r :: rs))
    (hfg : ∀ s, SparesAll env s rs → f s = g s) :
    r.run env.assent st >>= f = r.run env st >>= g := by
  obtain ⟨hfirst, hrest⟩ := h
  rw [Refresh.run_assent hfirst]
  exact Ends.bind_congr_ok fun s hs ↦ hfg s (hrest s hs)

/-- One refresh after the other. -/
theorem foldlM (h : SparesAll env st rs) :
    rs.foldlM (Refresh.run env.assent) st = rs.foldlM (Refresh.run env) st :=
  Guarded.foldlM_congr (fun _ _ ↦ Refresh.run_assent) h

end SparesAll

omit [FloatCodec] in
/-- A meta topic is made and announced in both cases. -/
theorem publishMetaTopic_assent (st : Instance) (name : Str) :
    publishMetaTopic env.assent st name =
      (fun r ↦ (r.1, true)) <$> publishMetaTopic env st name := by
  unfold publishMetaTopic
  dsimp only
  split
  · exact announceTopic_assent env _ _
  · rfl

omit [FloatCodec] in
/-- A callback that is heard to answer `true` may as well do so always. -/
theorem assent_eq_self {x x' : Except Fault (Instance × Bool)}
    (hassent : x' = (fun r ↦ (r.1, true)) <$> x) (h : ∀ r, x = .ok r → r.2 = true) : x' = x := by
  rw [hassent]
  cases x with
  | error e => rfl
  | ok r => exact congrArg Except.ok (Prod.ext rfl (h r rfl).symm)

/-- The local client turns neither meta topic of a new topic down, and refreshing them spares the
clients. -/
def SparesMetaTopicsOf (env : Env) (st : Instance) (name : Str) : Prop :=
  ∀ r, publishMetaTopic env st (topicSubName name) = .ok r → r.2 = true ∧
    ∀ r', publishMetaTopic env r.1 (topicPubName name) = .ok r' → r'.2 = true ∧
      SparesAll env r'.1 [.topicSub name, .topicPub name]

/-- If neither announcement is turned down, both are refreshed in both cases. -/
theorem publishMetaTopicsOf_assent (hspares : SparesMetaTopicsOf env st name) :
    publishMetaTopicsOf env.assent st name = publishMetaTopicsOf env st name := by
  unfold publishMetaTopicsOf
  rw [assent_eq_self (publishMetaTopic_assent st _) fun r hr ↦ (hspares r hr).1]
  refine Ends.bind_congr_ok fun r hr ↦ ?_
  obtain ⟨-, hspares⟩ := hspares r hr
  rw [assent_eq_self (publishMetaTopic_assent r.1 _) fun r' hr' ↦ (hspares r' hr').1]
  split
  · refine Ends.bind_congr_ok fun r' hr' ↦ ?_
    split
    · exact (hspares r' hr').2.bind fun s hs ↦ hs.bind fun s _ ↦ rfl
    · rfl
  · rfl

omit [FloatCodec] in
/-- The answer to the announcement of a meta topic is passed on, and that is all. -/
theorem publishTopicWith_assent_of_isMeta {value : NTDataValue} {properties : TopicProperties}
    {announce announce' : Instance → Topic → Except Fault (Instance × Bool)}
    (hassent : ∀ st topic, announce' st topic = (fun r ↦ (r.1, true)) <$> announce st topic)
    [FloatCodec] (hmeta : name.isMeta) (st : Instance) :
    publishTopicWith env.assent announce' st name value properties =
      (fun r ↦ (r.1, true)) <$> publishTopicWith env announce st name value properties := by
  unfold publishTopicWith
  dsimp only
  split
  · rfl
  · next t ht =>
    rw [hassent, map_bind, bind_map_left]
    refine congrArg _ (funext fun r ↦ ?_)
    rw [if_pos rfl, if_pos hmeta]
    split
    · rfl
    · rfl

/-- The local client turns the announcement of a new topic not down either, so the publication goes
on to its meta topics. -/
def SparesNew (env : Env) (announce : Instance → Topic → Except Fault (Instance × Bool))
    (st : Instance) (name : Str) (value : NTDataValue) (properties : TopicProperties) : Prop :=
  ∀ (t : TopicAt name) (r), t.1 = { name, value, properties } →
    announce (st.setTopic name t) t.1 = .ok r → r.2 = true ∧ SparesMetaTopicsOf env r.1 name

/-- A new topic is made, announced and gets its meta topics. -/
theorem publishTopicWith_assent_of_spares {value : NTDataValue} {properties : TopicProperties}
    {announce announce' : Instance → Topic → Except Fault (Instance × Bool)}
    (hassent : ∀ st topic, announce' st topic = (fun r ↦ (r.1, true)) <$> announce st topic)
    (hname : name ∉ st.topics) (hspares : SparesNew env announce st name value properties) :
    publishTopicWith env.assent announce' st name value properties =
      publishTopicWith env announce st name value properties := by
  have hnew : getOrCreateTopic st name value properties =
      (st.setTopic name ⟨{ name, value, properties }, rfl⟩,
        some ⟨{ name, value, properties }, rfl⟩) := by
    rw [getOrCreateTopic, AList.lookup_eq_none.2 hname]
  unfold publishTopicWith
  rw [hnew]
  dsimp only
  rw [assent_eq_self (hassent _ _) fun r hr ↦ (hspares _ r rfl hr).1]
  refine Ends.bind_congr_ok fun r hr ↦ ?_
  rw [publishMetaTopicsOf_assent (hspares _ r rfl hr).2]

/-! ### Publications -/

/-- A client publishes. -/
theorem publishOrAnswer_assent {guid : Guid} {pubuid : Int32} {type : NTDataType}
    {properties : TopicProperties}
    (hspares : name ∉ st.topics → name.isMeta = false →
      SparesNew env (announceTopicToPublisher env guid pubuid) st name { type } properties) :
    publishOrAnswer env.assent guid name pubuid type properties st =
      publishOrAnswer env guid name pubuid type properties st := by
  unfold publishOrAnswer
  split
  · next hnone =>
    have hname := AList.lookup_eq_none.1 hnone
    unfold publishTopicToPublisher
    cases hmeta : name.isMeta with
    | true =>
      rw [publishTopicWith_assent_of_isMeta
        (announceTopicToPublisher_assent env guid pubuid) hmeta]
      exact (comp_map _ _ _).symm
    | false =>
      rw [publishTopicWith_assent_of_spares (announceTopicToPublisher_assent env guid pubuid) hname
        (hspares hname hmeta)]
  · rfl
  · rfl

/-- A topic that the local client turns down has been announced to it. -/
theorem announceTopic_mem_of_turned_down {t : TopicAt name}
    (ht : st.topics.lookup name = some (some t)) :
    Ends (announceTopic env st t.1) (fun r ↦ r.2 = false → name ∈ r.1.thisClient.topicData)
      fun _ ↦ True := by
  refine (Ends.foldlM (I := fun s ↦ s.1.topics = st.topics ∧
    (s.2 = false → name ∈ s.1.thisClient.topicData)) (E := fun _ ↦ True)
    (fun guid _ s ⟨htopics, hs⟩ ↦ ?_) ⟨rfl, fun h ↦ by cases h⟩).imp fun r hr ↦ hr.2
  have ht : s.1.topics.lookup name = some (some t) := by rwa [htopics]
  unfold announceTopicBody
  refine ((s.1.client_ends guid .clientNull).mono (fun _ ↦ id) fun _ _ ↦ trivial).bind fun d hd ↦ ?_
  refine ((isSubscribed_ends env d.subscriptions t.1.name false).mono (fun _ ↦ id)
    fun _ _ ↦ trivial).bind fun sub _ ↦ ?_
  split
  · exact ⟨htopics, hs⟩
  · split
    · refine ⟨(topics_announceTopicSelf env s.1 t.1).trans htopics, fun _ ↦ ?_⟩
      have hmem : name ∈ (s.1.thisClient.assignId t.1.name).topicData :=
        ClientData.mem_assignId.2 (.inr t.2.symm)
      unfold announceTopicSelf
      cases env.topicAnnouncedCallback <;> exact hmem
    · refine ⟨(s.1.topics_setClient guid _).trans htopics, fun hdown ↦ ?_⟩
      have hm : Move .all s.1 (s.1.setClient guid (d.announceTopic t.1)) :=
        .setClient hd fun _ ↦ .announce ht
      exact Moves.mem_topicData_self (.single hm) (hs hdown)

/-- The publication of a meta topic that was turned down has made the topic, and the local client
has an entry for it. -/
theorem publishTopicWith_turned_down {value : NTDataValue} {properties : TopicProperties}
    (hmeta : name.isMeta) :
    Ends (publishTopicWith env (announceTopic env) st name value properties)
      (fun r ↦ r.2 = false → name ∈ r.1.thisClient.topicData ∧ r.1.HasTopic name) fun _ ↦ True := by
  have hlookup := lookup_getOrCreateTopic st name value properties
  unfold publishTopicWith
  dsimp only
  split
  · trivial
  · next t ht =>
    rw [ht] at hlookup
    refine ((announceTopic_mem_of_turned_down hlookup).and
      (announceTopic_follows (K := .all) hlookup)).mono (fun _ ↦ id) (fun _ _ ↦ trivial) |>.bind
        fun r ⟨hdown, _, hr⟩ ↦ ?_
    split
    · exact fun h ↦ by cases h
    · next hfalse =>
      exact fun _ ↦ ⟨hdown (by simpa using hfalse), t, by rw [hr.topics, hlookup]⟩

/-- The local client publishes. The states are the same, the results need not be. -/
theorem publishTopicSelfSync_assent {value : NTDataValue} {properties : TopicProperties}
    (hname : name ∉ st.topics)
    (hspares : name.isMeta = false →
      SparesNew env (announceTopic env) st name value properties) :
    Prod.fst <$> publishTopicSelfSync env.assent st name value properties =
      Prod.fst <$> publishTopicSelfSync env st name value properties := by
  unfold publishTopicSelfSync
  cases hmeta : name.isMeta with
  | false =>
    rw [publishTopicWith_assent_of_spares (announceTopic_assent env) hname (hspares hmeta)]
  | true =>
    rw [publishTopicWith_assent_of_isMeta (announceTopic_assent env) hmeta, bind_map_left, map_bind,
      map_bind]
    refine (publishTopicWith_turned_down hmeta).bind_congr fun r hr ↦ ?_
    obtain ⟨s, answer⟩ := r
    cases answer with
    | true => rfl
    | false =>
      obtain ⟨hmem, t, ht⟩ := hr rfl
      rw [if_pos rfl]
      dsimp only at ht ⊢
      rw [ht]
      show Except.ok { s with thisClient := { s.thisClient with
        topicData := s.thisClient.topicData.subscript name {} } } = Except.ok s
      rw [AList.subscript_of_mem hmem]

/-- The same if the topic may be there. -/
theorem publishOrLookUp_assent {type : NTDataType} {properties : TopicProperties}
    (hspares : name ∉ st.topics → name.isMeta = false →
      SparesNew env (announceTopic env) st name { type } properties) :
    Prod.fst <$> publishOrLookUp env.assent name type properties st =
      Prod.fst <$> publishOrLookUp env name type properties st := by
  unfold publishOrLookUp
  split
  · next hnone =>
    have hname := AList.lookup_eq_none.1 hnone
    exact publishTopicSelfSync_assent hname (hspares hname)
  · rfl
  · rfl

/-- The state after a local publication does not depend on the topic it returns. -/
theorem fst_localPublish (env : Env) (name : Str) (pubuid : Int32) (type : NTDataType)
    (properties : TopicProperties) (st : Instance) :
    Prod.fst <$> localPublish env name pubuid type properties st =
      (Prod.fst <$> publishOrLookUp env name type properties { st with thisClient :=
        { st.thisClient with
          publishers := st.thisClient.publishers.insert pubuid (some ⟨pubuid, name⟩) } }) >>=
        updateServerPubMetaTopic env := by
  unfold localPublish
  rw [map_bind, bind_map_left]
  refine congrArg _ (funext fun r ↦ ?_)
  cases updateServerPubMetaTopic env r.1 <;> rfl

/-! ### Operations -/

/-- A value that is stored in a topic is broadcast so that it spares the clients. -/
def SparesUpdate (env : Env) (st : Instance) (pub : Publisher) (value : NTDataValue)
    (time : Instance → UInt64) : Prop :=
  ∀ t, st.topics.lookup pub.topic = some (some t) → value.isValid →
    let t := t.setValue (t.1.value.assign value)
    let st := st.setTopic pub.topic t
    SparesClients env st t.1 (time st)

/-- A value is put. -/
theorem updatePublished_assent {pub : Publisher} {value : NTDataValue} {time : Instance → UInt64}
    (h : SparesUpdate env st pub value time) :
    updatePublished env.assent pub value time st = updatePublished env pub value time st := by
  unfold updatePublished
  split
  · next t ht =>
    split
    · next hvalid => exact sendTopicUpdate_assent (h t ht hvalid)
    · rfl
  · rfl
  · rfl

/-- A subscription that is new or gone refreshes the lists it is in. -/
def SparesSubscription (env : Env) (st : Instance) (guid : Guid) (sub : Subscription) : Prop :=
  (Refresh.clientSub guid).Spares env st ∧ ∀ s, updateClientSubMetaTopic env st guid = .ok s →
    SparesAll env s (subscriptionRefreshes env s sub)

/-- The lists that a subscription concerns are refreshed, and something else is done. -/
theorem updateSubscription_assent {β : Type} {guid : Guid} {sub : Subscription}
    (h : SparesSubscription env st guid sub) (f : Instance → Except Fault β) :
    (updateClientSubMetaTopic env.assent st guid >>= fun s ↦
        updateTopicSubMetaTopics env.assent s sub >>= f) =
      updateClientSubMetaTopic env st guid >>= fun s ↦
        updateTopicSubMetaTopics env s sub >>= f := by
  have hfirst : updateClientSubMetaTopic env.assent st guid =
      updateClientSubMetaTopic env st guid :=
    Refresh.run_assent h.1
  rw [hfirst]
  refine Ends.bind_congr_ok fun s hs ↦ ?_
  rw [updateTopicSubMetaTopics_eq, updateTopicSubMetaTopics_eq]
  exact congrArg (· >>= f) (h.2 s hs).foldlM

/-- The local client turns no announcement down that a publication of the operation waits for, and
every broadcast that it makes spares the clients in the state in which it is made. -/
def Operation.Spares (env : Env) (st : Instance) : Operation → Prop
  | connect entry name => ∀ num r r', nextClientWithName env st name = .ok num →
    let d : ClientData :=
      { guid := entry.guid, name := name ++ ascii "@" ++ decimal num.toNat }
    publishMetaTopic env (st.insertClient entry.guid d) (clientSubName d.name) = .ok r →
    publishMetaTopic env r.1 (clientPubName d.name) = .ok r' →
      SparesAll env r'.1 [.clients, .clientSub entry.guid, .clientPub entry.guid]
  | disconnect guid => SparesAll env (st.eraseClient guid) [.clients]
  | message guid (.subscribe topics subuid options) => ∀ d, st.Behind guid d →
    let sub : Subscription := ⟨subuid, topics, options⟩
    SparesSubscription env
      (st.setSubscriptions guid d (d.subscriptions.insert subuid (some sub))) guid sub
  | message guid (.publish name pubuid type properties) => ∀ d, st.Behind guid d →
    let st := st.setPublishers guid d (d.publishers.insert pubuid (some ⟨pubuid, name⟩))
    (name ∉ st.topics → name.isMeta = false →
      SparesNew env (announceTopicToPublisher env guid pubuid) st name { type } properties) ∧
    ∀ s, publishOrAnswer env guid name pubuid type properties st = .ok s →
      SparesAll env s [.clientPub guid, .topicPub name]
  | message guid (.unsubscribe subuid) => ∀ d sub, st.Behind guid d →
    d.subscriptions.lookup subuid = some (some sub) →
      SparesSubscription env (st.setSubscriptions guid d (d.subscriptions.erase subuid)) guid sub
  | message guid (.unpublish pubuid) => ∀ d pub, st.Behind guid d →
    d.publishers.lookup pubuid = some (some pub) →
      SparesAll env (st.setPublishers guid d (d.publishers.erase pubuid))
        [.clientPub guid, .topicPub pub.topic]
  | valueUpdate guid m => ∀ d pub, st.Behind guid d →
    d.publishers.lookup m.id.toInt32 = some (some pub) →
      SparesUpdate env st pub m.data (getServerTime env)
  | subscribe topics subuid options =>
    SparesAll env { st with thisClient := { st.thisClient with
      subscriptions :=
        st.thisClient.subscriptions.insert subuid (some ⟨subuid, topics, options⟩) } }
        [.serverSub]
  | unsubscribe subuid => ∀ sub, st.thisClient.subscriptions.lookup subuid = some (some sub) →
    SparesAll env { st with thisClient := { st.thisClient with
      subscriptions := st.thisClient.subscriptions.erase subuid } } [.serverSub]
  | publish name pubuid type properties =>
    let st := { st with thisClient := { st.thisClient with
      publishers := st.thisClient.publishers.insert pubuid (some ⟨pubuid, name⟩) } }
    (name ∉ st.topics → name.isMeta = false →
      SparesNew env (announceTopic env) st name { type } properties) ∧
    ∀ r, publishOrLookUp env name type properties st = .ok r → SparesAll env r.1 [.serverPub]
  | unpublish pubuid => ∀ pub, st.thisClient.publishers.lookup pubuid = some (some pub) →
    SparesAll env { st with thisClient := { st.thisClient with
      publishers := st.thisClient.publishers.erase pubuid } } [.serverPub]
  | updateTopic id value time => ∀ pub, st.thisClient.publishers.lookup id = some (some pub) →
    SparesUpdate env st pub value fun _ ↦ time
  | message _ (.setproperties _ _ _ _) | message _ .unknown | textEnd _
  | setProperties _ _ | flush =>
    True

/-- A message of a client takes the server to the same state whatever the callbacks answer. -/
theorem Operation.message_assent {guid : Guid} {m : ClientMessage}
    (hspares : (message guid m).Spares env st) :
    (message guid m).run env.assent st = (message guid m).run env st := by
  cases m with
  | subscribe topics subuid options =>
    refine (st.client_ends guid .nullDeref).bind_congr fun d hd ↦ ?_
    exact updateSubscription_assent (hspares d hd) fun s ↦ announceCachedTopics env s guid
  | publish name pubuid type properties =>
    refine (st.client_ends guid .nullDeref).bind_congr fun d hd ↦ ?_
    obtain ⟨hnew, hrefreshes⟩ := hspares d hd
    dsimp only
    rw [publishOrAnswer_assent hnew]
    exact Ends.bind_congr_ok fun s hs ↦ (hrefreshes s hs).bind fun s hs ↦ hs.single
  | unsubscribe subuid =>
    refine (st.client_ends guid .nullDeref).bind_congr fun d hd ↦ ?_
    dsimp only
    split
    · next sub hsub =>
      have h := updateSubscription_assent (hspares d sub hd hsub) pure
      simpa only [bind_pure] using h
    · rfl
  | unpublish pubuid =>
    refine (st.client_ends guid .nullDeref).bind_congr fun d hd ↦ ?_
    dsimp only
    split
    · next pub hpub => exact (hspares d pub hd hpub).bind fun s hs ↦ hs.single
    · rfl
  | setproperties | unknown => rfl

/-- The operation takes the server to the same state whatever the callbacks answer. -/
theorem Operation.run_assent {op : Operation} (hspares : op.Spares env st) :
    op.run env.assent st = op.run env st := by
  cases op with
  | connect entry name =>
    show handleConnect _ _ _ _ = handleConnect _ _ _ _
    unfold handleConnect
    simp only [publishMetaTopic_assent, bind_map_left]
    refine Ends.bind_congr_ok fun num hnum ↦ Ends.bind_congr_ok fun r hr ↦
      Ends.bind_congr_ok fun r' hr' ↦ ?_
    exact (hspares num r r' hnum hr hr').bind fun s hs ↦ hs.bind fun s hs ↦ hs.bind fun s _ ↦ rfl
  | disconnect guid =>
    show handleDisconnect _ _ _ = handleDisconnect _ _ _
    unfold handleDisconnect
    split
    · rfl
    · rfl
    · rfl
    · exact SparesAll.bind hspares fun s _ ↦ rfl
  | message guid m => exact message_assent hspares
  | textEnd | setProperties | flush => rfl
  | valueUpdate guid m =>
    refine (st.client_ends guid .nullDeref).bind_congr fun d hd ↦ ?_
    have hupdate : updateOf env.assent guid d m st = updateOf env guid d m st := by
      unfold updateOf
      split
      · next pub hpub => exact updatePublished_assent (hspares d pub hd hpub)
      · rfl
    rw [hupdate]
    rfl
  | subscribe topics subuid options =>
    refine SparesAll.bind hspares fun s _ ↦ ?_
    rw [announceCachedTopicsSelf_assent]
    exact congrArg _ (funext (publishInitialValuesSelf_assent env))
  | unsubscribe subuid =>
    show localUnsubscribe _ _ _ = localUnsubscribe _ _ _
    unfold localUnsubscribe
    split
    · next sub hsub => exact (hspares sub hsub).single
    · rfl
  | publish name pubuid type properties =>
    obtain ⟨hnew, hrefresh⟩ := hspares
    show Prod.fst <$> localPublish _ _ _ _ _ _ = Prod.fst <$> localPublish _ _ _ _ _ _
    have hlookup := @publishOrLookUp_assent _ env { st with thisClient := { st.thisClient with
      publishers := st.thisClient.publishers.insert pubuid (some ⟨pubuid, name⟩) } } name type
      properties hnew
    rw [fst_localPublish, fst_localPublish, hlookup, bind_map_left, bind_map_left]
    exact Ends.bind_congr_ok fun r hr ↦ (hrefresh r hr).single
  | unpublish pubuid =>
    show localUnpublish _ _ _ = localUnpublish _ _ _
    unfold localUnpublish
    split
    · next pub hpub => exact (hspares pub hpub).single
    · rfl
  | updateTopic id value time =>
    show localUpdateTopic _ _ _ _ _ = localUpdateTopic _ _ _ _ _
    unfold localUpdateTopic
    split
    · next pub hpub => exact updatePublished_assent (hspares pub hpub)
    · rfl

/-! ### Events -/

/-- The mutex is taken when the operation runs. -/
def Operation.Undisturbed (env : Env) (st : Instance) (op : Operation) : Prop :=
  op.Spares env { st with mutexFree := false }

/-- One operation, with the mutex. -/
theorem opStep_assent {op : Operation} (h : st.mutexFree = true → op.Undisturbed env st) :
    opStep env.assent st op = opStep env st op := by
  unfold opStep Instance.withMutex
  split
  · next hfree => rw [Operation.run_assent (h hfree)]
  · rfl

/-- The updates of a binary frame. -/
theorem handleBinary_assent {guid : Guid} {messages : List BinaryMessage}
    (h : st.mutexFree = true → guid ∈ st.clients → Guarded (binaryStep env guid)
      (fun st m ↦ m.id ≠ -1 → (Operation.valueUpdate guid m).Undisturbed env st) st messages) :
    handleBinary env.assent guid messages st = handleBinary env guid messages st := by
  induction messages generalizing st with
  | nil => rfl
  | cons m messages ih =>
    unfold handleBinary
    split
    · next hrtt =>
      refine ih fun hfree hguid ↦ (h hfree hguid).2 _ ?_
      rw [binaryStep, if_pos hrtt]
      rfl
    · next hrtt =>
      split
      · next hfree =>
        split
        · next hguid =>
          have hvalue : opStep env.assent st (.valueUpdate guid m) =
              opStep env st (.valueUpdate guid m) :=
            opStep_assent fun hfree ↦ (h hfree hguid).1 hrtt
          show opStep env.assent st (.valueUpdate guid m) >>= _ =
            opStep env st (.valueUpdate guid m) >>= _
          rw [hvalue]
          refine Ends.bind_congr_ok fun s hs ↦ ih fun _ _ ↦ (h hfree hguid).2 s ?_
          rw [binaryStep, if_neg hrtt, hs]
        · exact ih fun hfree ↦ by cases hfree
      · rfl

omit [FloatCodec] in
/-- The event with callbacks that always answer `true`. -/
def Event.assent (e : Env × Event) : Env × Event :=
  (e.1.assent, e.2)

/-- One event. -/
theorem step_assent {e : Env × Event} (h : Event.Meets Operation.Undisturbed st e) :
    step st (Event.assent e) = step st e := by
  obtain ⟨env, e⟩ := e
  have hlocal (op : Operation) (hop : st.mutexFree = true → op.Undisturbed env st) :
      opStep env.assent st op = opStep env st op := opStep_assent hop
  cases e with
  | connect entry =>
    show clientConnected env.assent entry st = clientConnected env entry st
    unfold clientConnected
    dsimp only
    split
    · rfl
    · next hrtt =>
      refine Ends.bind_congr_ok fun name hname ↦ ?_
      exact @opStep_assent _ _ (st.register entry) _ fun hfree ↦ h hfree hrtt name hname
  | disconnect guid =>
    show clientDisconnected env.assent guid st = clientDisconnected env guid st
    unfold clientDisconnected
    split
    · next hfree =>
      split
      · next hguid => exact hlocal (.disconnect guid) fun _ ↦ h hfree hguid
      · rfl
    · rfl
  | removeConnection guid => rfl
  | text guid messages =>
    show handleText env.assent guid messages st = handleText env guid messages st
    unfold handleText
    split
    · next hguid =>
      rw [handleMessages_eq, handleMessages_eq]
      cases hfree : st.mutexFree with
      | false => rw [foldlM_opStep_of_taken hfree, foldlM_opStep_of_taken hfree]
      | true =>
        exact Guarded.foldlM_congr (fun _ _ hop ↦ opStep_assent fun _ ↦ hop) (h hfree hguid)
    · rfl
  | binary guid messages => exact handleBinary_assent h
  | subscribe => exact hlocal (.subscribe ..) h
  | unsubscribe => exact hlocal (.unsubscribe ..) h
  | publish => exact hlocal (.publish ..) h
  | unpublish => exact hlocal (.unpublish ..) h
  | setProperties => exact hlocal (.setProperties ..) h
  | updateTopic id value time =>
    exact hlocal (.updateTopic id value (time.getD (getServerTime env st))) h
  | flush => rfl

/-! ### A local client that comes last -/

/-- Nobody is visited after the local client. -/
def Instance.VisitsLocalLast (env : Env) (st : Instance) : Prop :=
  ∀ before self after, env.guids.keys st.clients = before ++ self :: after → st.isSelf self →
    after = []

/-- Nobody comes after the local client. -/
theorem Instance.VisitsLocalLast.sparesClients (h : st.VisitsLocalLast env) (topic : Topic)
    (time : UInt64) : SparesClients env st topic time := by
  intro before self after s horder _ hself _ guid hmem
  rw [h before self after horder hself] at hmem
  exact absurd hmem List.not_mem_nil

/-- Then all refreshes spare the clients, if moves do not change it. -/
theorem sparesAll_of_visitsLocalLast {I : Instance → Prop}
    (hlast : ∀ s, I s → s.VisitsLocalLast env) (hmoves : ∀ s s', Moves .all s s' → I s → I s')
    (hst : I st) (rs : List Refresh) : SparesAll env st rs := by
  refine Guarded.of_invariant (fun r _ s hs ↦ ?_) (fun r _ s hs ↦ r.run_moves.imp fun s' hs' ↦
    hmoves s s' hs' hs) hst
  refine Ends.of_forall (fun c t _ ↦ ?_) fun _ ↦ trivial
  exact @Instance.VisitsLocalLast.sparesClients _ env (s.setTopic c.1 _) (hlast s hs) _ _

/-- The local client is alone when the server starts. -/
theorem startServer_assent (env : Env) : startServer env.assent = startServer env := by
  let I (s : Instance) : Prop := ∀ guid ∈ s.clients, guid = 0
  have hlast (s : Instance) (hs : I s) : s.VisitsLocalLast env := by
    intro before self after horder _
    have hzero (guid : Guid) (hmem : guid ∈ self :: after) : guid = 0 :=
      hs guid (env.guids.mem_keys.1 (horder ▸ List.mem_append_right before hmem))
    have hnodup := (List.nodup_append.1 (horder ▸ env.guids.nodup_keys s.clients)).2.1
    refine List.eq_nil_iff_forall_not_mem.2 fun guid hmem ↦ (List.nodup_cons.1 hnodup).1 ?_
    rwa [hzero self List.mem_cons_self, ← hzero guid (List.mem_cons_of_mem _ hmem)]
  have hmoves (s s' : Instance) (h : Moves .all s s') (hs : I s) : I s' := fun guid hguid ↦
    hs guid (h.mem_clients.1 hguid)
  have hpublish (s : Instance) (name : Str) (hs : I s) :
      Ends (publishMetaTopic env s name) (fun r ↦ I r.1) fun _ ↦ True :=
    Ends.mono (publishMetaTopic_follows (K := .all) trivial) (fun r h ↦ hmoves s r.1 h.1 hs)
      fun _ _ ↦ trivial
  have hinitial : I .initial := fun guid hguid ↦ by
    simpa [Instance.initial, fakeServer, AList.mem_keys] using hguid
  unfold startServer
  simp only [publishMetaTopic_assent, bind_map_left]
  refine (hpublish _ _ hinitial).bind_congr fun r hr ↦ (hpublish _ _ hr).bind_congr fun r' hr' ↦
    (hpublish _ _ hr').bind_congr fun r'' hr'' ↦ ?_
  have hspares := sparesAll_of_visitsLocalLast hlast hmoves hr'' [.clients, .serverSub, .serverPub]
  exact hspares.bind fun s hs ↦ hs.bind fun s hs ↦ hs.bind fun s _ ↦ rfl

/-! ### Runs -/

/-- No publication of the run is cut short, and no broadcast before a client that is due
the value. -/
def Undisturbed (start : Env) (events : List (Env × Event)) : Prop :=
  ∀ st, startServer start = .ok st →
    Guarded step (Event.Meets Operation.Undisturbed) st events

/-- A whole run. -/
theorem Undisturbed.run_assent {start : Env} {events : List (Env × Event)}
    (h : Undisturbed start events) :
    run start.assent (events.map Event.assent) = run start events := by
  unfold run
  rw [startServer_assent]
  refine Ends.bind_congr_ok fun st hst ↦ ?_
  rw [List.foldlM_map]
  exact Guarded.foldlM_congr (fun _ _ ↦ step_assent) (h st hst)

/-- Two runs that differ in the answers of the callbacks alone, and in which these cut short no
publication and no broadcast that is due, end in the same state: the same topics, and for every
client the same history of messages. -/
theorem run_eq_of_answers {start start' : Env} {events events' : List (Env × Event)}
    (hstart : start.assent = start'.assent)
    (hevents : events.map Event.assent = events'.map Event.assent)
    (h : Undisturbed start events) (h' : Undisturbed start' events') :
    run start events = run start' events' := by
  rw [← h.run_assent, ← h'.run_assent, hstart, hevents]

variable {s : Instance}

/-! ### The pointers to clients -/

omit [FloatCodec] in
/-- No pointer to a client is null, and the one to the local client is stored under `0`. -/
def Instance.Wired (st : Instance) : Prop :=
  ∀ guid, st.clients.lookup guid ≠ some .null ∧ (st.isSelf guid → guid = 0)

omit [FloatCodec] in
/-- A pointer that is not null, or that is not there, is a good one. -/
theorem Instance.Wired.congr (hst : st.Wired)
    (h : ∀ guid, (∃ d, s.clients.lookup guid = some (.remote d)) ∨ s.clients.lookup guid = none ∨
      s.clients.lookup guid = st.clients.lookup guid) : s.Wired := by
  intro guid
  unfold Instance.isSelf
  rcases h guid with ⟨d, hd⟩ | hnone | heq
  · rw [hd]
    exact ⟨nofun, fun h ↦ by simp at h⟩
  · rw [hnone]
    exact ⟨nofun, fun h ↦ by simp at h⟩
  · rw [heq]
    exact hst guid

/-- One change. -/
theorem Change.wired {K : Allow} (h : Change K st s) (hst : st.Wired) : s.Wired := by
  refine hst.congr fun guid ↦ ?_
  cases h with
  | move h =>
    by_cases hd : ∃ d, st.clients.lookup guid = some (.remote d)
    · obtain ⟨d, hd⟩ := hd
      obtain ⟨d', hd', -⟩ := h.remote_identity hd
      exact .inl ⟨d', hd'⟩
    · exact .inr (.inr (h.lookup_of_not_remote fun d hd' ↦ hd ⟨d, hd'⟩))
  | idle _ hc => exact .inr (.inr (by rw [hc]))
  | join guid' name =>
    rw [Instance.insertClient, AList.lookup_insert_ite]
    split
    · exact .inl ⟨_, rfl⟩
    · exact .inr (.inr rfl)
  | leave guid' =>
    rw [Instance.eraseClient, AList.lookup_erase_ite]
    split
    · exact .inr (.inl rfl)
    · exact .inr (.inr rfl)

/-- In every state that a run reaches the pointers are in order. -/
theorem run_wired (start : Env) (events : List (Env × Event)) :
    Ends (run start events) Instance.Wired fun _ ↦ True := by
  have hinitial : Instance.initial.Wired := by
    intro guid
    unfold Instance.isSelf
    rw [Instance.initial, AList.lookup_insert_ite]
    split
    · next heq => exact ⟨by simp, fun _ ↦ heq⟩
    · exact ⟨by simp, fun h ↦ by simp at h⟩
  refine (run_changes True True True (.inl trivial) fun st _ ↦ Guarded.of_forall_mem (fun e _ s ↦
    Event.Meets.of_forall (fun _ _ ↦ ⟨.inl trivial, .inl trivial, .inl trivial⟩) s) st).mono
    (fun st hst ↦ ?_) fun _ _ ↦ trivial
  induction hst with
  | refl => exact hinitial
  | tail _ h ih => exact h.wired ih

/-- Any number of changes. -/
theorem Changes.wired {K : Allow} (h : Changes K st s) (hst : st.Wired) : s.Wired := by
  induction h with
  | refl => exact hst
  | tail _ h ih => exact h.wired ih

omit [FloatCodec] in
/-- Data behind a pointer are changed. -/
theorem Instance.Wired.setClient (hst : st.Wired) (guid : Guid) (d : ClientData) :
    (st.setClient guid d).Wired := by
  refine hst.congr fun guid' ↦ ?_
  unfold Instance.setClient
  split
  · exact .inr (.inr rfl)
  · rw [AList.lookup_insert_ite]
    split
    · exact .inl ⟨d, rfl⟩
    · exact .inr (.inr rfl)
  · exact .inr (.inr rfl)
  · exact .inr (.inr rfl)

/-- A program that makes moves ends in a state with good pointers. -/
theorem Instance.Wired.follows {α : Type} {x : Except Fault α} {final : α → Instance} {Q : α → Prop}
    (hst : st.Wired) (h : Follows .all st x final Q) {a : α} (ha : x = .ok a) : (final a).Wired :=
  (Moves.changes (Ends.of_ok h ha).1).wired hst

/-! ### Traversals that visit the local client last -/

omit [FloatCodec] in
/-- The traversal visits the local client, which is stored under `0`, last. -/
def Env.VisitsLocalLast (env : Env) : Prop :=
  ∀ guids before after, guids.Nodup → env.guids.order guids = before ++ 0 :: after → after = []

section VisitsLocalLast

variable (henv : env.VisitsLocalLast)

include henv

omit [FloatCodec] in
/-- The traversal visits `0` last, and no other guid leads to the local client. -/
theorem Instance.Wired.visitsLocalLast (hst : st.Wired) : st.VisitsLocalLast env := by
  intro before self after horder hself
  rw [(hst self).2 hself] at horder
  exact henv _ before after st.clients.keys_nodup horder

theorem Instance.Wired.sparesAll (hst : st.Wired) (rs : List Refresh) : SparesAll env st rs :=
  sparesAll_of_visitsLocalLast (fun _ hs ↦ hs.visitsLocalLast henv)
    (fun _ _ hm hs ↦ hm.changes.wired hs) hst rs

theorem Instance.Wired.sparesUpdate (hst : st.Wired) (pub : Publisher) (value : NTDataValue)
    (time : Instance → UInt64) : SparesUpdate env st pub value time := fun _ _ _ ↦
  @Instance.VisitsLocalLast.sparesClients _ env (st.setTopic pub.topic _)
    (hst.visitsLocalLast henv) _ _

theorem Instance.Wired.sparesSubscription (hst : st.Wired) (guid : Guid) (sub : Subscription) :
    SparesSubscription env st guid sub :=
  ⟨And.left (hst.sparesAll henv [.clientSub guid]), fun _ hs ↦
    ((Moves.changes ((Refresh.clientSub guid).run_moves.of_ok hs)).wired hst).sparesAll henv _⟩

variable (haccepts : ∀ subscriptions name, env.AcceptsTopic subscriptions name)

include haccepts

theorem Instance.Wired.sparesMetaTopicsOf (hst : st.Wired) (name : Str) :
    SparesMetaTopicsOf env st name := by
  intro r hr
  have hsub := (publishMetaTopic_follows (K := .all) trivial).of_ok hr
  refine ⟨hsub.2.2.2 (haccepts _ _), fun r' hr' ↦ ?_⟩
  have hpub := (publishMetaTopic_follows (K := .all) trivial).of_ok hr'
  exact ⟨hpub.2.2.2 (haccepts _ _),
    (hpub.1.changes.wired (hsub.1.changes.wired hst)).sparesAll henv _⟩

theorem Instance.Wired.sparesNew {announce : Instance → Topic → Except Fault (Instance × Bool)}
    (hannounce : ∀ {st : Instance} {name : Str} {t : TopicAt name},
      st.topics.lookup name = some (some t) →
        Follows .all st (announce st t.1) Prod.fst (Announced env name st))
    (hst : st.Wired) (name : Str) (value : NTDataValue) (properties : TopicProperties) :
    SparesNew env announce st name value properties := by
  intro t r _ hr
  obtain ⟨hm, hr⟩ := (hannounce (AList.lookup_insert _)).of_ok hr
  have htopic : (st.setTopic name t).Wired := hst
  exact ⟨hr.succeeds (haccepts _ _),
    (hm.changes.wired htopic).sparesMetaTopicsOf henv haccepts name⟩

/-- The messages of a client. -/
theorem Operation.message_spares_of_visitsLocalLast (hst : st.Wired) (guid : Guid)
    (m : ClientMessage) : (message guid m).Spares env st := by
  cases m with
  | subscribe topics subuid options =>
    exact fun d _ ↦ (hst.setClient guid _).sparesSubscription henv ..
  | unsubscribe subuid => exact fun d sub _ _ ↦ (hst.setClient guid _).sparesSubscription henv ..
  | publish name pubuid type properties =>
    intro d hd
    refine ⟨fun _ _ ↦ (hst.setClient guid _).sparesNew henv haccepts
      announceTopicToPublisher_follows
      _ _ _, ?_⟩
    intro s hs
    exact (hst.follows (publishOrAnswer_follows (.inl trivial) (fun _ ↦ trivial) hd trivial
      fun _ ↦ ⟨⟨trivial, trivial⟩, trivial, trivial⟩) hs).sparesAll henv _
  | unpublish pubuid => exact fun d pub _ _ ↦ (hst.setClient guid _).sparesAll henv _
  | setproperties | unknown => trivial

/-- Then every operation spares the clients. -/
theorem Operation.spares_of_visitsLocalLast (hst : st.Wired) (op : Operation) :
    op.Spares env st := by
  -- what the local client changes of itself leaves the pointers as they are
  have hself (d : ClientData) : Instance.Wired { st with thisClient := d } := hst
  cases op with
  | connect entry name =>
    intro num r r' _ d hr hr'
    have hjoin : (st.insertClient entry.guid d).Wired := (Change.join (K := .all) _ _).wired hst
    exact ((hjoin.follows (publishMetaTopic_follows trivial) hr).follows
      (publishMetaTopic_follows trivial) hr').sparesAll henv _
  | disconnect guid => exact ((Change.leave (K := .all) guid).wired hst).sparesAll henv _
  | message guid m => exact message_spares_of_visitsLocalLast henv haccepts hst guid m
  | valueUpdate guid m => exact fun _ pub _ _ ↦ hst.sparesUpdate henv pub _ _
  | subscribe topics subuid options => exact (hself _).sparesAll henv _
  | unsubscribe subuid => exact fun _ _ ↦ (hself _).sparesAll henv _
  | publish name pubuid type properties =>
    refine ⟨fun _ _ ↦ (hself _).sparesNew henv haccepts announceTopic_follows _ _ _, fun r hr ↦ ?_⟩
    exact (hst.follows (publishOrLookUp_follows (.inl trivial) trivial trivial
      (fun _ ↦ ⟨⟨trivial, trivial⟩, trivial, trivial⟩) (.inl trivial)) hr).sparesAll henv _
  | unpublish pubuid => exact fun _ _ ↦ (hself _).sparesAll henv _
  | updateTopic id value time => exact fun pub _ ↦ hst.sparesUpdate henv pub _ _
  | textEnd | setProperties | flush => trivial

end VisitsLocalLast

/-- If the local client comes last and turns down no announcement, nothing of the run
is disturbed. -/
theorem undisturbed_of_visitsLocalLast {start : Env} {events : List (Env × Event)}
    (hlast : ∀ e ∈ events, e.1.VisitsLocalLast)
    (haccepts : ∀ e ∈ events, ∀ subscriptions name, e.1.AcceptsTopic subscriptions name) :
    Undisturbed start events := by
  intro st hst
  have hwired : st.Wired := (run_wired start []).of_ok (by rw [run, hst]; rfl)
  have hidle (s s' : Instance) (_ : s'.topics = s.topics) (hclients : s'.clients = s.clients)
      (_ : s'.thisClient = s.thisClient) (hs : s.Wired) : s'.Wired :=
    hs.congr fun guid ↦ .inr (.inr (by rw [hclients]))
  have hop (env : Env) (s : Instance) (op : Operation) (hs : s.Wired) (henabled : op.Enabled s)
      (_ : op.Undisturbed env s) :
      Ends (op.run env { s with mutexFree := false }) Instance.Wired fun _ ↦ True :=
    (Operation.run_ends (henabled.taken false) (.all env _ op)).mono
      (fun _ h ↦ h.wired (hidle s _ rfl rfl rfl hs)) fun _ _ ↦ trivial
  have hmeets (e : Env × Event) (he : e ∈ events) (s : Instance) (hs : s.Wired) :
      Event.Meets Operation.Undisturbed s e := by
    refine Event.Meets.of_invariant hidle hop (fun s op hs ↦ ?_) hs
    exact op.spares_of_visitsLocalLast (hlast e he) (haccepts e he)
      (hidle s { s with mutexFree := false } rfl rfl rfl hs)
  exact Guarded.of_invariant hmeets
    (fun e he s hs ↦ step_ends hidle hop trivial hs (hmeets e he s hs)) hwired

end

/-- The traversal that visits the oldest client first, and so the local client before any other. -/
def oldestFirst : TraversalOrder Guid where
  order := List.reverse
  perm := List.reverse_perm

/-- The traversal that visits the local client last. -/
def localLast : TraversalOrder Guid where
  order l := l.filter (· ≠ 0) ++ l.filter (· = 0)
  perm l := by simpa using l.filter_append_perm (fun guid ↦ decide (guid ≠ 0))

/-- There is such a traversal. -/
theorem localLast_visitsLocalLast {env : Env} (h : env.guids = localLast) :
    env.VisitsLocalLast := by
  intro guids before after hnodup horder
  rw [h] at horder
  have hnodup := (localLast.perm guids).nodup_iff.2 hnodup
  rw [horder] at hnodup
  have hself : 0 ∉ after := (List.nodup_cons.1 (List.nodup_append.1 hnodup).2.1).1
  -- what comes after a `0` is in the second half, where there is nothing else
  refine List.eq_nil_iff_forall_not_mem.2 fun guid hmem ↦ hself ?_
  have hzero : guid ∈ guids.filter (· = 0) := by
    rcases List.append_eq_append_iff.1 horder.symm with ⟨c, hfirst, hrest⟩ | ⟨c, -, hsecond⟩
    · cases c with
      | nil =>
        rw [List.nil_append] at hrest
        exact hrest ▸ List.mem_cons_of_mem 0 hmem
      | cons guid' c =>
        obtain ⟨rfl, -⟩ := List.cons.inj hrest
        have hzero : 0 ∈ guids.filter (· ≠ 0) :=
          hfirst ▸ List.mem_append_right before List.mem_cons_self
        exact absurd rfl (of_decide_eq_true (List.mem_filter.1 hzero).2)
    · exact hsecond ▸ List.mem_append_right c (List.mem_cons_of_mem 0 hmem)
  have hguid : guid = 0 := by simpa using (List.mem_filter.1 hzero).2
  rwa [← hguid]

section

set_option maxRecDepth 4000

/-- A client and the local client subscribe to a topic that gets a value. -/
def valueToBoth (env : Env) : List (Env × Event) :=
  [(env, .connect (.sample 1 "a")), (env, .text 1 [.subscribe [ascii "/x"] 1 .DEFAULT]),
    (env, .subscribe [ascii "/x"] 1 .DEFAULT), (env, .publish (ascii "/x") 2 .int {}),
    (env, .updateTopic 2 { type := .int, bits := 5 } none)]

/-- The callback for values always gives this answer. -/
def Env.answering (guids : TraversalOrder Guid) (answer : Bool) : Env :=
  { guids, topicUpdateCallback := some fun _ _ _ _ ↦ answer }

/-- If the local client comes last, it may turn the value down: the client gets it. -/
theorem run_eq_of_answers_sample :
    @run .fractional (.answering localLast true) (valueToBoth (.answering localLast true)) =
        @run .fractional (.answering localLast false) (valueToBoth (.answering localLast false)) ∧
      Ends (@run .fractional (.answering localLast false)
          (valueToBoth (.answering localLast false)))
        (fun st ↦ ∃ d ∈ st.remote 1, d.updates.length = 1) (fun _ ↦ False) := by
  have hundisturbed (answer : Bool) : @Undisturbed .fractional (.answering localLast answer)
      (valueToBoth (.answering localLast answer)) := by
    refine @undisturbed_of_visitsLocalLast .fractional _ _ (fun e he ↦ ?_) fun e he subs name _ ↦ ?_
    all_goals
      have henv : e.1 = .answering localLast answer := by
        simp only [valueToBoth, List.mem_cons, List.not_mem_nil, or_false] at he
        rcases he with rfl | rfl | rfl | rfl | rfl <;> rfl
    · exact localLast_visitsLocalLast (by rw [henv]; rfl)
    · rw [henv]
      exact fun _ h ↦ by cases h
  exact ⟨@run_eq_of_answers .fractional _ _ _ _ rfl rfl (hundisturbed true) (hundisturbed false),
    by decide +kernel⟩

/-- If the local client comes first and turns the value down, the client does not get it. -/
theorem turned_down_value_not_sent :
    Ends
      (@run .fractional (.answering oldestFirst true) (valueToBoth (.answering oldestFirst true)))
        (fun st ↦ ∃ d ∈ st.remote 1, d.updates.length = 1) (fun _ ↦ False) ∧
      Ends (@run .fractional (.answering oldestFirst false)
          (valueToBoth (.answering oldestFirst false)))
        (fun st ↦ ∃ d ∈ st.remote 1, d.updates.length = 0) (fun _ ↦ False) := by
  decide +kernel

end

end NetworkTables
