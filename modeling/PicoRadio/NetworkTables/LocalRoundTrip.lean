import PicoRadio.NetworkTables.LateSubscribers

/-!
# What is set is what is read

A value crosses the test of the publisher, the assignment to the topic, the copy to a value of the
API type, the table of the last updates and the test of the getter. However a publisher and its
subscriber were made, they are `World.Ready` in the end if nothing was in the way
(`Making.make_healthy`), and every setter that passes its test is read back.

The test of the constructor and of `set` compares the type of the topic with the API type of the
value. They differ for an unsigned integer, a text in JSON and the buffer types but `Bin`: values of
these types are never sent (`roundTrips_iff`).

## The ways to make the two

`Making` lists how a publisher and a subscriber of one topic can come about: the subscriber first,
both in an entry, or the publisher first. In the last case the subscriber hears of the topic only if
it is cached, and whose value it is told depends on the id of the topic (`Making.Suits`); the
modules before this one say when that id is the topic's own.
-/

namespace NetworkTables

variable {w w' : World} {this : ℕ} {name : Str}

/-! ### What is claimed -/

/-- A publisher and a subscriber of one topic, by themselves or in an entry. -/
inductive Holder
  | pair (sub : ℕ) (pub : NTPublisher)
  | entry (entry : NTEntry)

/-- How the two are made: the subscriber first, as an entry makes its own, or the publisher
first. -/
inductive Making
  | pair (time : Option UInt64) (properties : TopicProperties)
  | entry (properties : Option TopicProperties)
  | late (time : Option UInt64) (properties : TopicProperties)

/-- A subscriber that is made after its publisher is told of the topic if the callbacks are set and
the topic is a cached one, and of its value alone if the topic has an id of its own. -/
def Making.Suits (w : World) (name : Str) : Making → Prop
  | pair _ _ | entry _ => True
  | late _ properties =>
    w.installed = true ∧ properties.cached = true ∧ w.inst.Sound ∧ w.inst.OwnId name

/-- What the typed getter of a type returns, whatever its default is. -/
def World.GetsBack (w : World) (s : NTSubscriber) (v : NTDataValue) : Prop :=
  match v.type with
  | .bool => ∀ defaultValue, w.getBoolean s defaultValue = v.b
  | .float64 => ∀ defaultValue, w.getDouble s defaultValue = v.bits
  | .int => ∀ defaultValue, w.getInt s defaultValue = v.i
  | .float32 => ∀ defaultValue, w.getFloat s defaultValue = v.f32
  | .str | .json => ∀ defaultValue, w.getString s defaultValue = v.str
  | .bin | .raw | .msgpack | .protobuf => ∀ defaultValue, w.getRaw s defaultValue = v.bin
  | .uint => ∀ defaultValue, w.getUInt s defaultValue = v.bits
  | .boolArray => ∀ defaultValue, w.getBooleanArray s defaultValue = v.bArray
  | .float64Array => ∀ defaultValue, w.getDoubleArray s defaultValue = v.f64Array
  | .intArray => ∀ defaultValue, w.getIntArray s defaultValue = v.iArray
  | .float32Array => ∀ defaultValue, w.getFloatArray s defaultValue = v.f32Array
  | .strArray => ∀ defaultValue, w.getStringArray s defaultValue = v.strArray
  | .unassigned | .unlisted _ => False

section

variable [FloatCodec]

def Making.make (env : Env) (this : ℕ) (name : Str) (v : NTDataValue) (w : World) :
    Making → Except LocalFault (World × Holder)
  | pair time properties => do
    let w ← NTSubscriber.make env this name w
    let r ← NTPublisher.make env name v time properties w
    .ok (r.1, .pair this r.2)
  | entry properties => do
    let r ← NTEntry.make env this name (some v) properties w
    .ok (r.1, .entry r.2)
  | late time properties => do
    let r ← NTPublisher.make env name v time properties w
    let w ← NTSubscriber.make env this name r.1
    .ok (w, .pair this r.2)

/-- A setter, of the publisher or of the entry. -/
def Holder.set (env : Env) (call : SetCall) (time : Option UInt64) (w : World) :
    Holder → Except LocalFault (World × Holder × Bool)
  | pair sub pub => (fun r ↦ (r.1, pair sub pub, r.2)) <$> call.publisher env pub time w
  | entry e => (fun r ↦ (r.1, entry r.2.1, r.2.2)) <$> e.set env call time w

/-- Every setter in the list succeeds, and what it has set is read after it. -/
def SetsBack (this : ℕ) : List (Env × SetCall × Option UInt64) → Holder → World → Prop
  | [], _, _ => True
  | set :: sets, holder, w =>
    Ends (holder.set set.1 set.2.1 set.2.2 w)
      (fun r ↦ r.2.2 = true ∧ r.1.Sees this (r.1.GetsBack · set.2.1.value) ∧
        SetsBack this sets r.2.1 r.1)
      fun _ ↦ False

/-- The default value is read after the two are made, and from then on every value that is set. -/
def RoundTrips (making : Making) (env : Env) (this : ℕ) (name : Str) (v : NTDataValue) (w : World) :
    Prop :=
  Ends (making.make env this name v w)
    (fun r ↦ r.1.Sees this (fun s ↦ v.Same (r.1.get s)) ∧
      ∀ sets, (∀ set ∈ sets, set.2.1.value.type = v.type) → SetsBack this sets r.2 r.1)
    fun _ ↦ False

end

section

variable [FloatCodec] {env : Env}

/-- The publisher, or that of the entry. -/
def Holder.pub : Holder → NTPublisher
  | pair _ pub => pub
  | entry e => e.pub

/-- A holder that publishes: an entry with a publisher. -/
def Holder.Publishes : Holder → Prop
  | pair _ _ => True
  | entry e => e.publishing = true

/-- The two are made, and ready. -/
theorem Making.make_healthy (hw : w.HealthyFor this name) (hname : name ∉ w.inst.topics)
    {making : Making} (hsuits : making.Suits w name) {v : NTDataValue} (hvalid : v.isValid)
    (hapi : v.type.apiType = v.type) :
    Ends (making.make env this name v w)
      (fun r ↦ r.2.Publishes ∧ r.1.Ready this name v.type r.2.pub ∧
        r.1.Sees this fun s ↦ (r.1.get s).type = v.type ∧ (r.1.get s).content = v.content)
      fun _ ↦ False := by
  have hmake (time : Option UInt64) (properties : TopicProperties) {w' : World}
      (hw' : w.Subscribed w' this name) :=
    @World.Subscribed.makePublisher _ _ _ _ env _ hw'
      (by rw [hw'.publishers, hw'.nextPublisher]; exact hw.publishers)
      (by rw [hw'.nextPublisher]; exact hw.publisherId) _ hvalid hapi time properties
  have hsubscribe : Ends (NTSubscriber.make env this name w) (fun w' ↦ w.Subscribed w' this name)
      fun _ ↦ False :=
    (NTSubscriber.make_healthy hw).imp fun w' hw' ↦ hw'.2 hname
  cases making with
  | pair time properties =>
    refine hsubscribe.bind fun w' hw' ↦ (hmake time properties hw').bind fun r hr ↦ ?_
    exact ⟨trivial, hr⟩
  | entry properties =>
    have hentry : Ends (NTEntry.make env this name (some v) properties w)
        (fun r ↦ r.2.publishing = true ∧ r.1.Ready this name v.type r.2.pub ∧
          r.1.Sees this fun s ↦ (r.1.get s).type = v.type ∧ (r.1.get s).content = v.content)
        fun _ ↦ False :=
      hsubscribe.bind fun w' hw' ↦
        (hmake none (properties.getD .DEFAULT) hw').bind fun r hr ↦ ⟨rfl, hr⟩
    exact hentry.bind fun r hr ↦ hr
  | late time properties =>
    obtain ⟨hinstalled, hcached, hsound, hown⟩ := hsuits
    have hgood : w.Good := ⟨hw.free, hw.self, hsound, hinstalled⟩
    refine (NTPublisher.make_first hw hgood hown hname hvalid hapi time hcached).bind
      fun r ⟨hpublishing, hprepared, t, ht, htype, hcontent⟩ ↦ ?_
    refine (NTSubscriber.make_prepared hpublishing hprepared ht).bind fun w' hw' ↦ ?_
    obtain ⟨hready, s, hs, hget⟩ := hw'
    exact ⟨trivial, hready, s, hs, by rw [hget, htype], by rw [hget, hcontent]⟩

variable {st : Instance} {value : NTDataValue} {properties : TopicProperties} {pubuid : Int32}
  {type : NTDataType}

/-- A publication that does not fail returns the type of the topic it has made. -/
theorem publishTopicSelfSync_type (hname : name ∉ st.topics) (hvalid : value.isValid) :
    Ends (publishTopicSelfSync env st name value properties)
      (fun r ↦ r.2.type = value.type ∨ r.2.type = .bool) fun _ ↦ True := by
  have hfollows : Follows .all (getOrCreateTopic st name value properties).1
      (publishTopicWith env (announceTopic env) st name value properties) Prod.fst fun _ ↦ True :=
    (publishTopicWith_follows (K := .all) (A := fun _ ↦ True) (.inl trivial)
      (fun _ ↦ ⟨⟨trivial, trivial⟩, trivial, trivial⟩) announceTopic_follows
      (fun _ _ ↦ .of_forall (fun _ ↦ trivial) fun _ ↦ trivial) fun _ ↦ id).imp fun _ _ ↦ trivial
  rw [publishTopicSelfSync]
  refine Ends.bind (hfollows.mono (fun _ ↦ id) fun _ _ ↦ trivial) fun r hr ↦ ?_
  split
  · split
    · next t ht =>
      -- the topic has the type it was made with
      rcases getOrCreateTopic_spec st name value properties with ⟨hp, -⟩ | ⟨-, -, hst⟩
      · exact absurd (AList.mem_of_lookup hp) hname
      · have hmade : (getOrCreateTopic st name value properties).1.topics.lookup name =
            some (some ⟨{ name, value, properties }, rfl⟩) := by
          rw [hst]
          exact AList.lookup_insert _
        obtain ⟨t', ht', htype⟩ := hr.1.topicsLater.type name _ hmade
        obtain rfl := Option.some.inj (Option.some.inj (ht.symm.trans ht'))
        exact .inl (htype hvalid)
    all_goals trivial
  · exact .inr rfl

/-- What type a publication returns. -/
def TypedAs (st : Instance) (name : Str) (type : NTDataType) (t : AnnouncedTopic) : Prop :=
  t.type = type ∨ t.type = .bool ∨
    ∃ topic : TopicAt name, st.topics.lookup name = some (some topic) ∧ t.type = topic.1.value.type

theorem publish_type (htype : type ≠ .unassigned) :
    Ends (publish env name pubuid type properties st) (fun r ↦ TypedAs st name type r.2)
      fun _ ↦ True := by
  rw [publish]
  split
  · refine Ends.bind (Q := fun r : Instance × AnnouncedTopic ↦ TypedAs st name type r.2)
      (Ends.bind (Q := fun r : Instance × AnnouncedTopic ↦ TypedAs st name type r.2) ?_
        fun r hr ↦ .bind_any fun _ ↦ hr) fun r hr ↦ hr
    rw [publishOrLookUp]
    split
    · next hnone =>
      refine (publishTopicSelfSync_type (AList.lookup_eq_none.1 hnone) ?_).imp fun r hr ↦ ?_
      · simpa [NTDataValue.isValid] using htype
      · exact hr.imp_right .inl
    · trivial
    · next t ht => exact .inr (.inr ⟨t, ht, rfl⟩)
  · exact .inr (.inl rfl)

/-- A subscription makes no topic. -/
theorem NTSubscriber.make_absent (hname : name ∉ w.inst.topics) :
    Ends (NTSubscriber.make env this name w) (fun w' ↦ name ∉ w'.inst.topics) fun _ ↦ True := by
  rw [NTSubscriber.make]
  refine .bind_any fun next ↦ ?_
  refine (World.run_ends (Q := fun st ↦ name ∉ st.topics) ?_).imp fun _ h ↦ h.1
  let K : Allow := { Allow.all with creates := fun _ ↦ False }
  rw [Instance.withMutex]
  split
  · refine Ends.bind (Q := fun st : Instance ↦ name ∉ st.topics)
      ((localSubscribe_follows (K := K) (.inl trivial)
      ⟨trivial, trivial⟩ trivial (.inl trivial)).mono (fun s hs hmem ↦ ?_) fun _ _ ↦ trivial)
      fun s hs ↦ hs
    exact (hs.1.creates hmem).elim hname id
  · exact hname

theorem NTPublisher.make_type (hname : name ∉ w.inst.topics) {v : NTDataValue}
    (hvalid : v.isValid) {time : Option UInt64} :
    Ends (NTPublisher.make env name v time properties w)
      (fun r ↦ r.2.topic.type = v.type ∨ r.2.topic.type = .bool) fun _ ↦ True := by
  rw [NTPublisher.make]
  refine .bind_any fun next ↦ ?_
  have htype : v.type ≠ .unassigned := by simpa [NTDataValue.isValid] using hvalid
  refine (World.call_ends (Q := fun _ t ↦ TypedAs w.inst name v.type t)
    (publish_type htype)).bind fun r hr ↦ .bind_any fun _ ↦ ?_
  rcases hr.1 with heq | hbool | ⟨t, ht, -⟩
  · exact .inl heq
  · exact .inr hbool
  · exact absurd (AList.mem_of_lookup ht) hname

/-- The publisher that is made has the type of the value, or the one of a publication
that failed. -/
theorem Making.make_type (hname : name ∉ w.inst.topics) (making : Making) {v : NTDataValue}
    (hvalid : v.isValid) :
    Ends (making.make env this name v w)
      (fun r ↦ r.2.Publishes ∧ (r.2.pub.topic.type = v.type ∨ r.2.pub.topic.type = .bool))
      fun _ ↦ True := by
  have hsubscribe := @NTSubscriber.make_absent _ this _ _ env hname
  cases making with
  | pair time properties =>
    refine hsubscribe.bind fun w' hw' ↦ (NTPublisher.make_type hw' hvalid).bind fun r hr ↦ ?_
    exact ⟨trivial, hr⟩
  | entry properties =>
    have hentry : Ends (NTEntry.make env this name (some v) properties w)
        (fun r ↦ r.2.publishing = true ∧
          (r.2.pub.topic.type = v.type ∨ r.2.pub.topic.type = .bool)) fun _ ↦ True :=
      hsubscribe.bind fun w' hw' ↦ (NTPublisher.make_type hw' hvalid).bind fun r hr ↦ ⟨rfl, hr⟩
    exact hentry.bind fun r hr ↦ hr
  | late time properties =>
    exact (NTPublisher.make_type hname hvalid).bind fun r hr ↦ .bind_any fun _ ↦ ⟨trivial, hr⟩

/-- A setter that succeeds has passed its test. -/
theorem Holder.set_type {holder : Holder} (hholder : holder.Publishes) {v : NTDataValue}
    {time : Option UInt64} (h : Ends (holder.set env (.set v) time w) (fun r ↦ r.2.2 = true)
      fun _ ↦ False) : holder.pub.topic.type = v.type.apiType := by
  have hset (pub : NTPublisher) (h : Ends (pub.set env v time w) (fun r ↦ r.2 = true)
      fun _ ↦ False) : pub.topic.type = v.type.apiType := by
    by_contra hne
    have htest : decide (pub.topic.type = v.getAPIType) = false := decide_eq_false hne
    rw [NTPublisher.set, NTPublisher.setIf, htest] at h
    cases hnt : pub.nt with
    | false =>
      rw [hnt] at h
      exact h
    | true =>
      rw [hnt] at h
      exact Bool.noConfusion (h : false = true)
  cases holder with
  | pair sub pub =>
    refine hset pub ?_
    cases hx : pub.set env v time w with
    | error e =>
      rw [set, SetCall.publisher, hx] at h
      exact h
    | ok r =>
      rw [set, SetCall.publisher, hx] at h
      exact h
  | entry e =>
    have hpublishing : e.publishing = true := hholder
    refine hset e.pub ?_
    rw [set, NTEntry.set, if_pos hpublishing] at h
    cases hx : e.pub.set env v time w with
    | error e' =>
      rw [SetCall.publisher, hx] at h
      exact h
    | ok r =>
      rw [SetCall.publisher, hx] at h
      exact h

/-- A publisher only sends values whose type is their own API type. -/
theorem RoundTrips.apiType {making : Making} {v : NTDataValue}
    (h : RoundTrips making env this name v w)
    (hname : name ∉ w.inst.topics) (hvalid : v.isValid) : v.type.apiType = v.type := by
  have hboth := Ends.and h (@Making.make_type _ this _ _ env hname making _ hvalid)
  cases hx : making.make env this name v w with
  | error e =>
    rw [hx] at hboth
    exact hboth.1.elim
  | ok r =>
    rw [hx] at hboth
    obtain ⟨⟨-, hsets⟩, hpublishes, htype⟩ := hboth
    have hset := hsets [(env, .set v, none)] fun set hset ↦ by
      rw [List.mem_singleton.1 hset]
      rfl
    have hapi := Holder.set_type hpublishes (Ends.imp hset fun _ h ↦ h.1)
    rcases htype with htype | htype
    · exact hapi.symm.trans htype
    -- a value whose API type is that of a failure is a boolean
    · rw [htype] at hapi
      cases hv : v.type <;> rw [hv] at hapi <;> first | rfl | exact NTDataType.noConfusion hapi

end

/-! ### A server that was just started -/

/-- The instance can be called. The pointers under the first ids may be null. -/
def Instance.Intact (st : Instance) : Prop :=
  st.mutexFree = true ∧ st.clients.lookup fakeServer.guid = some .self ∧
    (st.withSubscriptions (st.thisClient.subscriptions.erase 0)).Sound ∧
    hasNoNull (st.thisClient.publishers.erase 0) = true

instance (st : Instance) : Decidable st.Intact :=
  inferInstanceAs (Decidable (_ ∧ _ ∧ _ ∧ _))

/-- Nothing has been made on the instance yet, but for the callbacks maybe. -/
theorem Instance.Intact.healthy {st : Instance} (h : st.Intact) (installed : Bool) (this : ℕ) :
    World.Healthy { inst := st, callbacks := if installed then some {} else none, installed }
      this where
  free := h.1
  self := ⟨fakeServer.guid, h.2.1⟩
  sound := h.2.2.1
  publishers uid hne := by
    have hpubs := hasNoNull_iff.1 h.2.2.2 uid
    rwa [AList.lookup_erase_ne hne] at hpubs
  installed := by cases installed <;> simp
  live name this h := by cases installed <;> exact absurd h List.not_mem_nil
  fresh := AList.notMem_empty this
  subscriberId := (by decide : (0 : Int32) ≠ Int32.maxValue)
  publisherId := (by decide : (0 : Int32) ≠ Int32.maxValue)

set_option maxRecDepth 4000 in
/-- A publisher that is made after an entry, and before its subscriber, has the id of the entry: its
subscriber reads the value of the entry. -/
example :
    Ends (@startServer .fractional {})
      (fun st ↦ Ends
        (do
          let r ← @Making.make .fractional {} 0 (ascii "z") (.ofInt 7) { inst := st } (.entry none)
          @Making.make .fractional {} 1 (ascii "x") (.ofInt 5) r.1 (.late none .DEFAULT))
        (fun r ↦ (r.1.subscribers.lookup 1).map (r.1.getInt · 0) = some 7) fun _ ↦ False)
      fun _ ↦ False := by
  decide +kernel

end NetworkTables
