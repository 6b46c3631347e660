import PicoRadio.NetworkTables.CacheContents

/-!
# Batching

Messages for a client wait in a cache until the cache is handed over, all at once. `CacheCall` lists
the calls that put a message into a cache or hand one over; what is put into a cache is read off the
call and the state it is made in (`CacheCall.texts`, `CacheCall.updates`), not off the history.

`ClientOutput.Batched` compares the two: the text frames handed over are batches of messages in
brackets, none of them empty, and the batches followed by the messages of the text cache are the
messages put into it; the binary frames followed by the binary cache are the bytes put into it.
Every call keeps this up, whatever the sizes of the messages are.
-/

namespace NetworkTables

open ClientHistory

/-! ### Calls -/

/-- A call that puts a message into a cache or hands a cache over. -/
inductive CacheCall
  | announce (topic : Topic)
  | announceToPublisher (topic : Topic) (pubuid : Int32)
  | unannounce (topic : Topic)
  | properties (topic : Topic) (ack : Bool)
  | update (topic : Topic) (time : UInt64)
  | flushText (uncachedSize : ℕ)
  | flushBinary (uncachedSize : ℕ)

namespace CacheCall

section

variable [FloatCodec]

/-- Make the call. -/
def run (d : ClientData) : CacheCall → ClientData
  | announce topic => d.announceTopic topic
  | announceToPublisher topic pubuid => d.announceTopicToPublisher topic pubuid
  | unannounce topic => d.unannounceTopic topic
  | properties topic ack => d.sendPropertyUpdate topic ack
  | update topic time => d.sendTopicUpdate topic time
  | flushText n => d.flushText n
  | flushBinary n => d.flushBinary n

end

/-- The text messages the call puts into the text cache. A topic is announced once, and withdrawn
only if it was announced. -/
def texts (d : ClientData) : CacheCall → List TextMessage
  | announce topic =>
    if topic.name ∈ d.topicData then []
    else [.announce topic.name d.nextTopicIdAssigned topic.value.type none topic.properties]
  | announceToPublisher topic pubuid =>
    [.announce topic.name ((d.assignId topic.name).topicId topic.name)
      topic.value.type (some pubuid)
      topic.properties]
  | unannounce topic =>
    if topic.name ∈ d.topicData then [.unannounce topic.name (d.topicId topic.name)] else []
  | properties topic ack => [.properties topic.name ack topic.properties]
  | update _ _ | flushText _ | flushBinary _ => []

/-- The value updates the call puts into the binary cache. -/
def updates [FloatCodec] (d : ClientData) : CacheCall → List ValueUpdate
  | update topic time => [d.topicUpdate topic time]
  | announce _ | announceToPublisher _ _ | unannounce _ | properties _ _ | flushText _
  | flushBinary _ => []

/-- Make the calls, one after the other. -/
def runAll [FloatCodec] (d : ClientData) (calls : List CacheCall) : ClientData :=
  calls.foldl run d

/-- A value is sent only of a topic that the client knows. -/
def KnownTo (d : ClientData) : CacheCall → Prop
  | update topic _ => topic.name ∈ d.topicData
  | announce _ | announceToPublisher _ _ | unannounce _ | properties _ _ | flushText _
  | flushBinary _ => True

/-- So it is for every call of a sequence, in the state it is made in. -/
def AllKnown [FloatCodec] (d : ClientData) : List CacheCall → Prop
  | [] => True
  | call :: calls => call.KnownTo d ∧ AllKnown (call.run d) calls

/-- The last call is made in the state that the others lead to. -/
theorem allKnown_concat [FloatCodec] {d : ClientData} {calls : List CacheCall} {call : CacheCall} :
    AllKnown d (calls ++ [call]) ↔ AllKnown d calls ∧ call.KnownTo (runAll d calls) := by
  induction calls generalizing d with
  | nil => exact and_comm
  | cons call' calls ih =>
    rw [List.cons_append, AllKnown, AllKnown, ih, and_assoc]
    rfl

/-- What a sequence of calls puts into a cache, in order: what each of them does in the state the
calls before it lead to. -/
def collect [FloatCodec] {α : Type} (f : ClientData → CacheCall → List α) (d : ClientData) :
    List CacheCall → List α
  | [] => []
  | call :: calls => f d call ++ collect f (call.run d) calls

end CacheCall

namespace ClientOutput.Framed

theorem new (info : ClientInfo) : ({ toClientInfo := info } : ClientData).Framed :=
  ⟨rfl, rfl, Always.nil _⟩

variable [FloatCodec] {d : ClientData}

theorem run (hd : d.Framed) (call : CacheCall) : (call.run d).Framed := by
  cases call with
  | announce topic =>
    by_cases hname : topic.name ∈ d.topicData
    · rw [CacheCall.run, ClientData.announceTopic_of_mem hname]
      exact hd
    · rw [CacheCall.run, ClientData.announceTopic_of_not_mem hname]
      exact (hd.assignId topic.name).appendText _
  | announceToPublisher topic => exact (hd.assignId topic.name).appendText _
  | unannounce topic =>
    rw [CacheCall.run, ClientData.unannounceTopic]
    split
    · exact hd.appendText _
    · exact hd
  | properties => exact hd.appendText _
  | update topic time => exact hd.sendTopicUpdate topic time
  | flushText n => exact hd.flushText n
  | flushBinary n => exact hd.flushBinary n

theorem runAll (hd : d.Framed) (calls : List CacheCall) :
    (CacheCall.runAll d calls).Framed := by
  induction calls generalizing d with
  | nil => exact hd
  | cons call calls ih => exact ih (hd.run call)

end ClientOutput.Framed

/-! ### Frames -/

/-- A frame handed over from the text cache. -/
def ClientEvent.asSentText : ClientEvent → Option Str
  | sentText frame => some frame
  | text _ | update _ _ | sentBinary _ | announcedCallback _ | updateCallback _ _ _
  | propertiesCallback _ _ => none

/-- A frame handed over from the binary cache. -/
def ClientEvent.asSentBinary : ClientEvent → Option Bytes
  | sentBinary frame => some frame
  | text _ | update _ _ | sentText _ | announcedCallback _ | updateCallback _ _ _
  | propertiesCallback _ _ => none

namespace ClientOutput

/-- The text frames handed over, in order. -/
def textFrames (d : ClientOutput) : List Str :=
  d.history.filterMap ClientEvent.asSentText

/-- The binary frames handed over, in order. -/
def binaryFrames (d : ClientOutput) : List Bytes :=
  d.history.filterMap ClientEvent.asSentBinary

/-- The frame of a batch of messages. -/
def textFrame (batch : List TextMessage) : Str :=
  ascii "[" ++ joined batch ++ ascii "]"

/-- The frames and the caches hold these messages and these updates, each once and in order. -/
structure Batched (texts : List TextMessage) (updates : List ValueUpdate) (d : ClientOutput) :
    Prop where
  text : ∃ (batches : List (List TextMessage)) (waiting : List TextMessage),
    d.textFrames = batches.map textFrame ∧ (∀ batch ∈ batches, batch ≠ []) ∧
      d.textCache = joined waiting ∧ batches.flatten ++ waiting = texts
  binary : d.binaryFrames.flatten ++ d.binaryCache = packed updates

end ClientOutput

section

variable {d : ClientData}

/-- An event adds a text frame if it hands over the text cache. -/
@[simp]
theorem textFrames_record (e : ClientEvent) :
    (d.record e).textFrames = d.textFrames ++ e.asSentText.toList := by
  show (d.history ++ [e]).filterMap _ = _
  rw [List.filterMap_append]
  cases e <;> rfl

/-- An event adds a binary frame if it hands over the binary cache. -/
@[simp]
theorem binaryFrames_record (e : ClientEvent) :
    (d.record e).binaryFrames = d.binaryFrames ++ e.asSentBinary.toList := by
  show (d.history ++ [e]).filterMap _ = _
  rw [List.filterMap_append]
  cases e <;> rfl

namespace ClientOutput.Batched

variable {texts : List TextMessage} {updates : List ValueUpdate}

/-- The frames and the caches are all the invariant speaks of. -/
theorem of_eq (h : d.Batched texts updates) {d' : ClientData} (hhistory : d'.history = d.history)
    (htext : d'.textCache = d.textCache) (hbinary : d'.binaryCache = d.binaryCache) :
    d'.Batched texts updates := by
  obtain ⟨htexts, hupdates⟩ := h
  refine ⟨?_, ?_⟩
  · rw [ClientOutput.textFrames, hhistory, htext]
    exact htexts
  · rw [ClientOutput.binaryFrames, hhistory, hbinary]
    exact hupdates

/-- A batch is closed: it is not empty, since an empty cache is not handed over. -/
theorem flushText (h : d.Batched texts updates) (n : ℕ) :
    (d.flushText n).Batched texts updates := by
  obtain ⟨⟨batches, waiting, hframes, hne, hcache, rfl⟩, hupdates⟩ := h
  rw [ClientData.flushText]
  split
  · next hfull =>
    -- an empty cache is not handed over, so no batch is empty
    have hwaiting : waiting ≠ [] := by
      rintro rfl
      rw [hcache] at hfull
      exact absurd hfull.1 (by decide)
    refine ⟨⟨batches ++ [waiting], [], ?_, ?_, rfl, by simp⟩, ?_⟩
    · show (d.record (.sentText _)).textFrames = _
      rw [textFrames_record, hframes, hcache, List.map_append]
      rfl
    · simp only [List.mem_append, List.mem_singleton]
      rintro batch (hbatch | rfl)
      · exact hne batch hbatch
      · exact hwaiting
    · show (d.record (.sentText _)).binaryFrames.flatten ++ d.binaryCache = _
      rw [binaryFrames_record, ← hupdates]
      exact congrArg (fun frames ↦ List.flatten frames ++ d.binaryCache) (List.append_nil _)
  · exact ⟨⟨batches, waiting, hframes, hne, hcache, rfl⟩, hupdates⟩

theorem flushBinary (h : d.Batched texts updates) (n : ℕ) :
    (d.flushBinary n).Batched texts updates := by
  obtain ⟨⟨batches, waiting, hframes, hne, hcache, rfl⟩, hupdates⟩ := h
  rw [ClientData.flushBinary]
  split
  · refine ⟨⟨batches, waiting, ?_, hne, hcache, rfl⟩, ?_⟩
    · show (d.record (.sentBinary _)).textFrames = _
      rw [textFrames_record, hframes]
      exact List.append_nil _
    · show (d.record (.sentBinary _)).binaryFrames.flatten ++ [] = _
      rw [binaryFrames_record, List.append_nil, List.flatten_append, ← hupdates]
      exact congrArg (d.binaryFrames.flatten ++ ·) (List.append_nil _)
  · exact ⟨⟨batches, waiting, hframes, hne, hcache, rfl⟩, hupdates⟩

/-- One more message, after a comma unless it is the first of its batch. -/
theorem appendText (h : d.Batched texts updates) (m : TextMessage) :
    (d.appendText m).Batched (texts ++ [m]) updates := by
  obtain ⟨⟨batches, waiting, hframes, hne, hcache, rfl⟩, hupdates⟩ := h.flushText m.text.length
  rw [ClientData.appendText]
  generalize d.flushText m.text.length = d₁ at hframes hcache hupdates
  refine ⟨⟨batches, waiting ++ [m], ?_, hne, ?_, (List.append_assoc _ _ _).symm⟩, ?_⟩
  · show (d₁.record (.text m)).textFrames = _
    rw [textFrames_record, hframes]
    exact List.append_nil _
  · rw [joined_concat, ← hcache]
  · show (d₁.record (.text m)).binaryFrames.flatten ++ d₁.binaryCache = _
    rw [binaryFrames_record, ← hupdates]
    exact congrArg (fun frames ↦ List.flatten frames ++ d₁.binaryCache) (List.append_nil _)

/-- One more update. -/
theorem sendTopicUpdate [FloatCodec] (h : d.Batched texts updates) (topic : Topic)
    (time : UInt64) :
    (d.sendTopicUpdate topic time).Batched texts (updates ++ [d.topicUpdate topic time]) := by
  let u := d.topicUpdate topic time
  let d₀ : ClientData := { d with
    topicData := d.topicData.insert topic.name { id := u.id, initialPublish := true } }
  have h₀ : d₀.Batched texts updates := h.of_eq rfl rfl rfl
  obtain ⟨⟨batches, waiting, hframes, hne, hcache, hflatten⟩, hupdates⟩ :=
    h₀.flushBinary u.bytes.length
  show ClientOutput.Batched texts (updates ++ [u])
    { ((d₀.flushBinary u.bytes.length).record (.update topic.name u)).toClientOutput with
      binaryCache := (d₀.flushBinary u.bytes.length).binaryCache ++ u.bytes }
  generalize d₀.flushBinary u.bytes.length = d₁ at hframes hcache hupdates
  refine ⟨⟨batches, waiting, ?_, hne, hcache, hflatten⟩, ?_⟩
  · show (d₁.record (.update topic.name u)).textFrames = _
    rw [textFrames_record, hframes]
    exact List.append_nil _
  · show (d₁.record (.update topic.name u)).binaryFrames.flatten ++ (d₁.binaryCache ++ u.bytes) = _
    rw [binaryFrames_record, packed, List.flatMap_append,
      List.flatMap_singleton, ← List.append_assoc]
    have hframes : d₁.binaryFrames ++
        (ClientEvent.update topic.name u).asSentBinary.toList = d₁.binaryFrames :=
      List.append_nil _
    rw [hframes, hupdates]
    rfl

/-- An id is no message. -/
theorem assignId (h : d.Batched texts updates) (name : Str) :
    (d.assignId name).Batched texts updates := by
  rw [ClientData.assignId]
  split
  · exact h
  · exact h.of_eq rfl rfl rfl

variable [FloatCodec]

/-- Every call adds what it puts into the caches. -/
theorem run (h : d.Batched texts updates) (call : CacheCall) :
    (call.run d).Batched (texts ++ call.texts d) (updates ++ call.updates d) := by
  cases call with
  | announce topic =>
    show (d.announceTopic topic).Batched (texts ++ ite _ _ _) (updates ++ [])
    rw [List.append_nil]
    split
    · next hknown =>
      rw [List.append_nil, ClientData.announceTopic_of_mem hknown]
      exact h
    · next hknown =>
      have hid : (d.assignId topic.name).topicId topic.name = d.nextTopicIdAssigned := by
        rw [ClientData.assignId_of_not_mem hknown, ClientData.topicId, AList.lookup_insert]
        rfl
      rw [ClientData.announceTopic_of_not_mem hknown, hid]
      exact (h.assignId topic.name).appendText _
  | announceToPublisher topic pubuid =>
    rw [CacheCall.updates, List.append_nil]
    exact (h.assignId topic.name).appendText _
  | unannounce topic =>
    show (d.unannounceTopic topic).Batched (texts ++ ite _ _ _) (updates ++ [])
    rw [List.append_nil, ClientData.unannounceTopic]
    split
    · next hknown =>
      obtain ⟨data, hdata⟩ := AList.exists_lookup_of_mem hknown
      rw [ClientData.topicId, hdata]
      exact h.appendText _
    · next hknown =>
      rw [List.append_nil, AList.lookup_eq_none.2 hknown]
      exact h
  | properties topic ack =>
    rw [CacheCall.updates, List.append_nil]
    exact h.appendText _
  | update topic time =>
    rw [CacheCall.texts, List.append_nil]
    exact h.sendTopicUpdate topic time
  | flushText n =>
    rw [CacheCall.texts, CacheCall.updates, List.append_nil, List.append_nil]
    exact h.flushText n
  | flushBinary n =>
    rw [CacheCall.texts, CacheCall.updates, List.append_nil, List.append_nil]
    exact h.flushBinary n

theorem runAll (h : d.Batched texts updates) (calls : List CacheCall) :
    (CacheCall.runAll d calls).Batched (texts ++ CacheCall.collect CacheCall.texts d calls)
      (updates ++ CacheCall.collect CacheCall.updates d calls) := by
  induction calls generalizing d texts updates with
  | nil => simpa [CacheCall.collect, CacheCall.runAll] using h
  | cons call calls ih =>
    have h := ih (h.run call)
    rw [List.append_assoc, List.append_assoc] at h
    exact h

end ClientOutput.Batched

end

section

variable [FloatCodec]

/-- For a new client and every sequence of calls, the text frames handed over are nonempty batches
of messages in brackets, which together with the text cache hold exactly the messages put into it,
in order; and the binary frames together with the binary cache are exactly the updates put into
it. -/
theorem runAll_batched (info : ClientInfo) (calls : List CacheCall) :
    (CacheCall.runAll { toClientInfo := info } calls).Batched
      (CacheCall.collect CacheCall.texts { toClientInfo := info } calls)
      (CacheCall.collect CacheCall.updates { toClientInfo := info } calls) := by
  have hnew : ({ toClientInfo := info } : ClientData).Batched [] [] :=
    ⟨⟨[], [], rfl, fun _ hbatch ↦ absurd hbatch List.not_mem_nil, rfl, rfl⟩, rfl⟩
  exact hnew.runAll calls

end

/-! ### The caches of a client of the server -/

/-- The same caches for a client that asked for something else. -/
def ClientData.withInfo (d : ClientData) (info : ClientInfo) : ClientData :=
  { d with toClientInfo := info }

section WithInfo

variable (d : ClientData) (info : ClientInfo)

/-- When a cache is handed over does not depend on what the client asked for. -/
theorem flushText_withInfo (n : ℕ) : (d.withInfo info).flushText n =
    (d.flushText n).withInfo info := by
  rw [ClientData.flushText, ClientData.flushText, apply_ite (ClientData.withInfo · info)]
  rfl

/-- The same of the binary cache. -/
theorem flushBinary_withInfo (n : ℕ) :
    (d.withInfo info).flushBinary n = (d.flushBinary n).withInfo info := by
  rw [ClientData.flushBinary, ClientData.flushBinary, apply_ite (ClientData.withInfo · info)]
  rfl

/-- A message is put into the cache. -/
theorem appendText_withInfo (m : TextMessage) :
    (d.withInfo info).appendText m = (d.appendText m).withInfo info := by
  rw [ClientData.appendText, flushText_withInfo]
  rfl

/-- An id is given. -/
theorem assignId_withInfo (name : Str) :
    (d.withInfo info).assignId name = (d.assignId name).withInfo info := by
  by_cases hname : name ∈ d.topicData
  · rw [ClientData.assignId_of_mem hname, ClientData.assignId_of_mem (d := d.withInfo info) hname]
  · rw [ClientData.assignId_of_not_mem hname,
      ClientData.assignId_of_not_mem (d := d.withInfo info) hname]
    rfl

variable [FloatCodec]

/-- What a call does to the caches does not depend on what the client asked for. -/
theorem CacheCall.run_withInfo (call : CacheCall) :
    call.run (d.withInfo info) = (call.run d).withInfo info := by
  cases call with
  | announce topic =>
    show (d.withInfo info).announceTopic topic = (d.announceTopic topic).withInfo info
    by_cases hname : topic.name ∈ d.topicData
    · rw [ClientData.announceTopic_of_mem hname,
        ClientData.announceTopic_of_mem (d := d.withInfo info) hname]
    · rw [ClientData.announceTopic_of_not_mem hname,
        ClientData.announceTopic_of_not_mem (d := d.withInfo info) hname, assignId_withInfo,
        appendText_withInfo]
      rfl
  | announceToPublisher topic pubuid =>
    show (d.withInfo info).announceTopicToPublisher topic pubuid = _
    rw [ClientData.announceTopicToPublisher, assignId_withInfo, appendText_withInfo]
    rfl
  | unannounce topic =>
    show (d.withInfo info).unannounceTopic topic = (d.unannounceTopic topic).withInfo info
    have hdata : (d.withInfo info).topicData = d.topicData := rfl
    rw [ClientData.unannounceTopic, ClientData.unannounceTopic, hdata]
    split
    · exact appendText_withInfo d info _
    · rfl
  | properties topic ack => exact appendText_withInfo d info _
  | update topic time =>
    let u := d.topicUpdate topic time
    let d₀ : ClientData := { d with
      topicData := d.topicData.insert topic.name { id := u.id, initialPublish := true } }
    exact congrArg (fun d' : ClientData ↦
      ({ d'.record (.update topic.name u) with binaryCache := d'.binaryCache ++ u.bytes } :
        ClientData))
      (flushBinary_withInfo d₀ info u.bytes.length)
  | flushText n => exact flushText_withInfo d info n
  | flushBinary n => exact flushBinary_withInfo d info n

/-- Which topics the client knows does not depend on it either. -/
theorem CacheCall.allKnown_withInfo (calls : List CacheCall) :
    AllKnown (d.withInfo info) calls ↔ AllKnown d calls := by
  induction calls generalizing d with
  | nil => exact Iff.rfl
  | cons call calls ih =>
    rw [AllKnown, AllKnown, run_withInfo, ih]
    cases call <;> exact Iff.rfl

/-- Any sequence of calls. -/
theorem CacheCall.runAll_withInfo (calls : List CacheCall) :
    runAll (d.withInfo info) calls = (runAll d calls).withInfo info := by
  induction calls generalizing d with
  | nil => rfl
  | cons call calls ih =>
    show runAll (call.run (d.withInfo info)) calls = _
    rw [run_withInfo]
    exact ih (call.run d)

end WithInfo

section

variable [FloatCodec] {K : Allow}

/-- These calls made the caches of the client, beginning with those of a new one. -/
def ClientData.CalledBy (d : ClientData) (calls : List CacheCall) : Prop :=
  d = CacheCall.runAll { toClientInfo := d.toClientInfo } calls ∧
    CacheCall.AllKnown { toClientInfo := d.toClientInfo } calls

/-- The caches of the client are what calls made of the caches of a new client. -/
def ClientData.Called (d : ClientData) : Prop :=
  ∃ calls, d.CalledBy calls

/-- A move of a client with a connection is a call, or it changes what the client asked for. -/
theorem ClientMove.called {topics : Topics} {d d' : ClientData}
    (h : ClientMove K topics false d d') (hd : d.Called) : d'.Called := by
  obtain ⟨calls, hcalls, hknown⟩ := hd
  have hcall (call : CacheCall) (hcall : call.KnownTo d)
      (hinfo : (call.run d).toClientInfo = d.toClientInfo) : (call.run d).Called := by
    refine ⟨calls ++ [call], ?_, ?_⟩
    · rw [hinfo, CacheCall.runAll, List.foldl_append]
      exact congrArg (fun d ↦ CacheCall.run d call) hcalls
    · rw [hinfo, CacheCall.allKnown_concat, ← hcalls]
      exact ⟨hknown, hcall⟩
  have hasked (info : ClientInfo) : (d.withInfo info).Called := by
    refine ⟨calls, ?_, ?_⟩
    · show _ = CacheCall.runAll (ClientData.withInfo { toClientInfo := d.toClientInfo } info) calls
      rw [CacheCall.runAll_withInfo, ← hcalls]
    · show CacheCall.AllKnown (ClientData.withInfo { toClientInfo := d.toClientInfo } info) calls
      exact (CacheCall.allKnown_withInfo _ info calls).2 hknown
  cases h with
  | announce => exact hcall (.announce _) trivial (by simp [CacheCall.run])
  | announceToPublisher _ pubuid =>
    exact hcall (.announceToPublisher _ pubuid) trivial (by simp [CacheCall.run])
  | properties _ ack => exact hcall (.properties _ ack) trivial (by simp [CacheCall.run])
  | @update _ _ _ t _ hname time =>
    exact hcall (.update t.1 time) (by rwa [CacheCall.KnownTo, t.2]) (by simp [CacheCall.run])
  | flushText n => exact hcall (.flushText n) trivial (by simp [CacheCall.run])
  | flushBinary n => exact hcall (.flushBinary n) trivial (by simp [CacheCall.run])
  | subscribe | unsubscribe | publish | unpublish | nullSubscription | nullPublisher =>
    exact hasked _

/-- What moves keep of a client with a connection, and what holds of every new one, holds in every
state a run reaches. -/
theorem run_remote {P : Topics → ClientData → Prop}
    (hclient : ∀ {K topics d d'}, ClientMove K topics false d d' → P topics d → P topics d')
    (htopics : ∀ {topics topics' d}, TopicsLater topics topics' → P topics d → P topics' d)
    (hjoin : ∀ topics guid name, P topics { guid, name }) (start : Env)
    (events : List (Env × Event)) :
    Ends (run start events)
      (fun st ↦ ∀ guid d, st.clients.lookup guid = some (.remote d) → P st.topics d)
      fun _ ↦ True := by
  have hguarded (st : Instance) : Guarded step
      (Event.Meets fun env st op ↦ op.Avoids True True True env st) st events :=
    Guarded.of_forall_mem (fun e _ ↦ Event.Meets.of_forall fun _ _ ↦
      ⟨.inl trivial, .inl trivial, .inl trivial⟩) st
  refine (run_changes True True True (.inl trivial) fun st _ ↦ hguarded st).mono
    (fun st hst ↦ ?_) fun _ _ ↦ trivial
  have hclients := hst.allClients (P := fun self topics d ↦ self = false → P topics d)
    (fun hm hd hself ↦ by subst hself; exact hclient hm (hd rfl))
    (fun hlater hd hself ↦ htopics hlater (hd hself)) (fun _ _ _ _ ↦ hjoin _ _ _)
    (Instance.initial_allClients fun hself ↦ by cases hself)
  exact fun guid d hd ↦ hclients.1 guid d hd rfl

/-- In every state a run reaches the caches of every client with a connection come from calls, so
all that holds of every sequence of calls holds of them. -/
theorem run_called (start : Env) (events : List (Env × Event)) :
    Ends (run start events)
      (fun st ↦ ∀ guid d, st.clients.lookup guid = some (.remote d) → d.Called) fun _ ↦ True :=
  run_remote (P := fun _ d ↦ d.Called) ClientMove.called (fun _ ↦ id)
    (fun _ _ _ ↦ ⟨[], rfl, trivial⟩) start events

end

end NetworkTables
