import PicoRadio.NetworkTables.Batching

/-!
# Sizes of frames

A cache is handed over before a message that would make it too large. For updates the test is
exact. For text messages it counts the brackets and forgets the comma, so a batch may exceed
`MAX_CLIENT_TEXT_CACHE_LENGTH` by one byte: exactly if some message and the cache before it were
equal to the limit without the comma (`framesFit_iff`).

A message that is larger than the limit by itself is a frame by itself, of any size.
-/

namespace NetworkTables

open ClientHistory

/-! ### The limits -/

namespace ClientHistory

/-- A frame of two or more messages is within the limit. -/
def FrameFits (done : List ClientEvent) : ClientEvent → Prop
  | .sentText frame => 2 ≤ (waitingTexts done).length → frame.length ≤ MAX_CLIENT_TEXT_CACHE_LENGTH
  | .sentBinary frame =>
    2 ≤ (waitingUpdates done).length → frame.length ≤ MAX_CLIENT_BINARY_CACHE_LENGTH
  | .text _ | .update _ _ | .announcedCallback _ | .updateCallback _ _ _
  | .propertiesCallback _ _ => True

end ClientHistory

/-- Every frame handed over that holds two or more messages is within the limit. -/
def ClientOutput.FramesFit (d : ClientOutput) : Prop :=
  Always FrameFits d.history

/-- The frames are within the limits, and so would be frames of what waits. -/
structure ClientOutput.WithinLimits (d : ClientOutput) : Prop where
  text : 2 ≤ (waitingTexts d.history).length →
    d.textCache.length + 2 ≤ MAX_CLIENT_TEXT_CACHE_LENGTH
  binary : 2 ≤ (waitingUpdates d.history).length →
    d.binaryCache.length ≤ MAX_CLIENT_BINARY_CACHE_LENGTH
  frames : d.FramesFit

namespace CacheCall

/-- No text message of the call fills what waits up to the limit, the comma between them not
counted. -/
def Fits (d : ClientData) (call : CacheCall) : Prop :=
  ∀ m ∈ call.texts d, ¬(d.textCache.length > 0 ∧
    d.textCache.length + m.text.length + 2 = MAX_CLIENT_TEXT_CACHE_LENGTH)

/-- Every call of a sequence is of this kind in the state it is made in. -/
def AllFit [FloatCodec] (d : ClientData) : List CacheCall → Prop
  | [] => True
  | call :: calls => call.Fits d ∧ AllFit (call.run d) calls

/-- The call only hands a cache over. -/
def IsFlush : CacheCall → Prop
  | flushText _ | flushBinary _ => True
  | announce _ | announceToPublisher _ _ | unannounce _ | properties _ _ | update _ _ => False

theorem allFit_append [FloatCodec] {d : ClientData} {calls calls' : List CacheCall} :
    AllFit d (calls ++ calls') ↔ AllFit d calls ∧ AllFit (runAll d calls) calls' := by
  induction calls generalizing d with
  | nil => exact (and_iff_right trivial).symm
  | cons call calls ih =>
    rw [List.cons_append, AllFit, AllFit, ih, and_assoc]
    rfl

/-- There is nothing in a flush that could be too large. -/
theorem allFit_of_isFlush [FloatCodec] {d : ClientData} {calls : List CacheCall}
    (h : ∀ call ∈ calls, call.IsFlush) : AllFit d calls := by
  induction calls generalizing d with
  | nil => trivial
  | cons call calls ih =>
    obtain ⟨hcall, hcalls⟩ := List.forall_mem_cons.1 h
    refine ⟨?_, ih hcalls⟩
    cases call with
    | flushText | flushBinary => exact List.forall_mem_nil _
    | announce | announceToPublisher | unannounce | properties | update => exact hcall.elim

end CacheCall

/-! ### What is in a cache -/

namespace ClientOutput.Framed

variable {d : ClientData}

/-- A cache with a message in it is not empty. -/
theorem waitingTexts_eq_nil_iff (hd : d.Framed) :
    waitingTexts d.history = [] ↔ d.textCache.length = 0 := by
  rw [List.length_eq_zero_iff, hd.text]
  constructor
  · intro hnil
    rw [hnil]
    rfl
  · intro hnil
    by_contra hne
    exact joined_ne_nil hne hnil

theorem waitingUpdates_eq_nil_iff (hd : d.Framed) :
    waitingUpdates d.history = [] ↔ d.binaryCache.length = 0 := by
  rw [List.length_eq_zero_iff, hd.binary]
  constructor
  · intro hnil
    rw [hnil]
    rfl
  · intro hnil
    by_contra hne
    obtain ⟨u, updates, hu⟩ := List.exists_cons_of_ne_nil hne
    rw [hu, packed, List.flatMap_cons] at hnil
    exact absurd hnil (by rw [ValueUpdate.bytes]; exact List.cons_ne_nil _ _)

end ClientOutput.Framed

/-! ### One call -/

namespace ClientOutput.WithinLimits

variable {d d' : ClientData}

/-- The limits speak of the caches and of the history. -/
theorem congr (htext : d'.textCache = d.textCache) (hbinary : d'.binaryCache = d.binaryCache)
    (hhistory : d'.history = d.history) : d'.WithinLimits ↔ d.WithinLimits := by
  constructor
  · rintro ⟨ht, hb, hf⟩
    rw [hhistory, htext] at ht
    rw [hhistory, hbinary] at hb
    rw [FramesFit, hhistory] at hf
    exact ⟨ht, hb, hf⟩
  · rintro ⟨ht, hb, hf⟩
    refine ⟨?_, ?_, ?_⟩
    · rwa [hhistory, htext]
    · rwa [hhistory, hbinary]
    · rwa [FramesFit, hhistory]

/-- A text cache that is handed over is the frame it would have been. -/
theorem flushText_iff (n : ℕ) : (d.flushText n).WithinLimits ↔ d.WithinLimits := by
  rw [ClientData.flushText]
  split
  · have hlength : (ascii "[" ++ d.textCache ++ ascii "]").length = d.textCache.length + 2 := by
      simp [ascii]
    constructor
    · rintro ⟨-, hb, hf⟩
      have hf := Always.concat_iff.1 hf
      refine ⟨fun htwo ↦ ?_, ?_, hf.1⟩
      · rw [← hlength]
        exact hf.2 htwo
      · simpa [waitingUpdates_concat, ClientData.record] using hb
    · rintro ⟨ht, hb, hf⟩
      refine ⟨?_, ?_, Always.concat_iff.2 ⟨hf, ?_⟩⟩
      · simp [waitingTexts_concat, ClientData.record]
      · simpa [waitingUpdates_concat, ClientData.record] using hb
      · intro htwo
        rw [hlength]
        exact ht htwo
  · exact Iff.rfl

theorem flushBinary_iff (n : ℕ) : (d.flushBinary n).WithinLimits ↔ d.WithinLimits := by
  rw [ClientData.flushBinary]
  split
  · constructor
    · rintro ⟨ht, -, hf⟩
      have hf := Always.concat_iff.1 hf
      exact ⟨by simpa [waitingTexts_concat, ClientData.record] using ht, hf.2, hf.1⟩
    · rintro ⟨ht, hb, hf⟩
      refine ⟨?_, ?_, Always.concat_iff.2 ⟨hf, hb⟩⟩
      · simpa [waitingTexts_concat, ClientData.record] using ht
      · simp [waitingUpdates_concat, ClientData.record]
  · exact Iff.rfl

/-- After `flushText` either nothing waits, or the message fits but for the comma. -/
theorem flushText_cases (d : ClientData) (n : ℕ) :
    ((d.flushText n).textCache.length = 0 ∧ (d.textCache.length > 0 →
      d.textCache.length + n + 2 > MAX_CLIENT_TEXT_CACHE_LENGTH)) ∨
    (d.flushText n = d ∧ d.textCache.length > 0 ∧
      d.textCache.length + n + 2 ≤ MAX_CLIENT_TEXT_CACHE_LENGTH) := by
  rw [ClientData.flushText]
  split
  · next hfull => exact .inl ⟨rfl, fun _ ↦ hfull.2⟩
  · next hfull =>
    rcases Nat.eq_zero_or_pos d.textCache.length with hzero | hpos
    · exact .inl ⟨hzero, fun hpos ↦ by omega⟩
    · exact .inr ⟨rfl, hpos, by omega⟩

/-- A message in the text cache is held to the limit unless nothing waited before it. -/
theorem record_text_iff (m : TextMessage) (cache : Str) :
    ({ d.record (.text m) with textCache := cache } : ClientData).WithinLimits ↔
      (waitingTexts d.history ≠ [] → cache.length + 2 ≤ MAX_CLIENT_TEXT_CACHE_LENGTH) ∧
      (2 ≤ (waitingUpdates d.history).length →
        d.binaryCache.length ≤ MAX_CLIENT_BINARY_CACHE_LENGTH) ∧ d.FramesFit := by
  have htexts : (waitingTexts (d.history ++ [.text m])).length =
      (waitingTexts d.history).length + 1 := by
    simp [waitingTexts_concat]
  have hupdates : waitingUpdates (d.history ++ [.text m]) = waitingUpdates d.history := by
    simp [waitingUpdates_concat]
  constructor
  · rintro ⟨ht, hb, hf⟩
    refine ⟨fun hne ↦ ht ?_, fun htwo ↦ hb ?_, (Always.concat_iff.1 hf).1⟩
    · have hpos := List.length_pos_of_ne_nil hne
      rw [ClientData.record, htexts]
      omega
    · rwa [ClientData.record, hupdates]
  · rintro ⟨ht, hb, hf⟩
    refine ⟨fun htwo ↦ ht ?_, fun htwo ↦ hb ?_, Always.concat_iff.2 ⟨hf, trivial⟩⟩
    · rw [ClientData.record, htexts] at htwo
      exact List.ne_nil_of_length_pos (by omega)
    · rwa [ClientData.record, hupdates] at htwo

/-- A message keeps the limits unless it fills the cache up to the limit, the comma not counted. -/
theorem appendText_iff (hd : d.Framed) (m : TextMessage) :
    (d.appendText m).WithinLimits ↔ d.WithinLimits ∧ ¬(d.textCache.length > 0 ∧
      d.textCache.length + m.text.length + 2 = MAX_CLIENT_TEXT_CACHE_LENGTH) := by
  have hframed := hd.flushText m.text.length
  have hcases := flushText_cases d m.text.length
  have hflush := @flushText_iff d m.text.length
  rw [← hflush, ClientData.appendText]
  generalize d.flushText m.text.length = d₁ at hframed hcases
  have hnil := hframed.waitingTexts_eq_nil_iff
  rw [record_text_iff]
  rcases hcases with ⟨hzero, hfull⟩ | ⟨rfl, hpos, hroom⟩
  · -- the message is the first of its batch
    have hwaiting := hnil.2 hzero
    constructor
    · rintro ⟨-, hb, hf⟩
      exact ⟨⟨by rw [hwaiting]; exact fun htwo ↦ absurd htwo (by decide), hb, hf⟩, by omega⟩
    · rintro ⟨⟨-, hb, hf⟩, -⟩
      exact ⟨fun hne ↦ absurd hwaiting hne, hb, hf⟩
  · -- it comes after a comma
    have hne : waitingTexts d₁.history ≠ [] := fun h ↦ by
      have hzero := hnil.1 h
      omega
    have hcache : ((if d₁.textCache.length > 0 then d₁.textCache ++ ascii "," else d₁.textCache) ++
        m.text).length = d₁.textCache.length + 1 + m.text.length := by
      rw [if_pos hpos, List.length_append, List.length_append]
      rfl
    rw [hcache]
    constructor
    · rintro ⟨ht, hb, hf⟩
      have hsum := ht hne
      exact ⟨⟨fun _ ↦ by omega, hb, hf⟩, by omega⟩
    · rintro ⟨⟨-, hb, hf⟩, hexact⟩
      exact ⟨fun _ ↦ by omega, hb, hf⟩

/-- After `flushBinary` either nothing waits, or the update fits. -/
theorem flushBinary_cases (d : ClientData) (n : ℕ) :
    (d.flushBinary n).binaryCache.length = 0 ∨ (d.flushBinary n = d ∧
      d.binaryCache.length + n ≤ MAX_CLIENT_BINARY_CACHE_LENGTH) := by
  rw [ClientData.flushBinary]
  split
  · exact .inl rfl
  · next hfull =>
    rcases Nat.eq_zero_or_pos d.binaryCache.length with hzero | hpos
    · exact .inl hzero
    · exact .inr ⟨rfl, by omega⟩

/-- An update in the binary cache is held to the limit unless nothing waited before it. -/
theorem record_update_iff (topic : Str) (u : ValueUpdate) (cache : Bytes) :
    ({ d.record (.update topic u) with binaryCache := cache } : ClientData).WithinLimits ↔
      (2 ≤ (waitingTexts d.history).length →
        d.textCache.length + 2 ≤ MAX_CLIENT_TEXT_CACHE_LENGTH) ∧
      (waitingUpdates d.history ≠ [] → cache.length ≤ MAX_CLIENT_BINARY_CACHE_LENGTH) ∧
      d.FramesFit := by
  have htexts : waitingTexts (d.history ++ [.update topic u]) = waitingTexts d.history := by
    simp [waitingTexts_concat]
  have hupdates : (waitingUpdates (d.history ++ [.update topic u])).length =
      (waitingUpdates d.history).length + 1 := by
    simp [waitingUpdates_concat]
  constructor
  · rintro ⟨ht, hb, hf⟩
    refine ⟨fun htwo ↦ ht ?_, fun hne ↦ hb ?_, (Always.concat_iff.1 hf).1⟩
    · rwa [ClientData.record, htexts]
    · have hpos := List.length_pos_of_ne_nil hne
      rw [ClientData.record, hupdates]
      omega
  · rintro ⟨ht, hb, hf⟩
    refine ⟨fun htwo ↦ ht ?_, fun htwo ↦ hb ?_, Always.concat_iff.2 ⟨hf, trivial⟩⟩
    · rwa [ClientData.record, htexts] at htwo
    · rw [ClientData.record, hupdates] at htwo
      exact List.ne_nil_of_length_pos (by omega)

/-- An update never breaks them: there is nothing between two updates. -/
theorem sendTopicUpdate_iff [FloatCodec] (hd : d.Framed) (topic : Topic) (time : UInt64) :
    (d.sendTopicUpdate topic time).WithinLimits ↔ d.WithinLimits := by
  let u := d.topicUpdate topic time
  let d₀ : ClientData := { d with
    topicData := d.topicData.insert topic.name { id := u.id, initialPublish := true } }
  have hd₀ : d₀.Framed := hd.of_eq rfl rfl rfl
  have hframed := hd₀.flushBinary u.bytes.length
  have hcases := flushBinary_cases d₀ u.bytes.length
  have hflush := @flushBinary_iff d₀ u.bytes.length
  have hsame : d₀.WithinLimits ↔ d.WithinLimits := congr rfl rfl rfl
  rw [← hsame, ← hflush]
  show ({ (d₀.flushBinary u.bytes.length).record (.update topic.name u) with
    binaryCache := (d₀.flushBinary u.bytes.length).binaryCache ++ u.bytes } :
      ClientData).WithinLimits ↔ _
  generalize d₀.flushBinary u.bytes.length = d₁ at hframed hcases
  have hnil := hframed.waitingUpdates_eq_nil_iff
  rw [record_update_iff, List.length_append]
  constructor
  · rintro ⟨ht, hb, hf⟩
    refine ⟨ht, fun htwo ↦ ?_, hf⟩
    have hsum := hb (List.ne_nil_of_length_pos (by omega))
    omega
  · rintro ⟨ht, -, hf⟩
    refine ⟨ht, fun hne ↦ ?_, hf⟩
    rcases hcases with hzero | ⟨rfl, hroom⟩
    · exact absurd (hnil.2 hzero) hne
    · exact hroom

/-- A topic gets its number without a change to the caches. -/
theorem assignId_appendText_iff (hd : d.Framed) (name : Str) (m : TextMessage) :
    ((d.assignId name).appendText m).WithinLimits ↔ d.WithinLimits ∧ ¬(d.textCache.length > 0 ∧
      d.textCache.length + m.text.length + 2 = MAX_CLIENT_TEXT_CACHE_LENGTH) := by
  have hsame : (d.assignId name).textCache = d.textCache ∧
      (d.assignId name).binaryCache = d.binaryCache := by
    rw [ClientData.assignId]
    split <;> exact ⟨rfl, rfl⟩
  rw [appendText_iff (hd.assignId name), hsame.1,
    congr hsame.1 hsame.2 (ClientData.history_assignId d name)]

/-- A call keeps the limits if and only if its message fits. -/
theorem run_iff [FloatCodec] (hd : d.Framed) (call : CacheCall) :
    (call.run d).WithinLimits ↔ d.WithinLimits ∧ call.Fits d := by
  have hone (m : TextMessage) (P : TextMessage → Prop) : (∀ m' ∈ [m], P m') ↔ P m :=
    List.forall_mem_singleton
  have hnone (P : TextMessage → Prop) : d.WithinLimits ↔ d.WithinLimits ∧ ∀ m ∈ [], P m :=
    (and_iff_left (List.forall_mem_nil _)).symm
  cases call with
  | announce topic =>
    rw [CacheCall.Fits, CacheCall.texts, CacheCall.run]
    by_cases hname : topic.name ∈ d.topicData
    · rw [ClientData.announceTopic_of_mem hname, if_pos hname]
      exact hnone _
    · have hid : (d.assignId topic.name).topicId topic.name = d.nextTopicIdAssigned := by
        rw [ClientData.assignId_of_not_mem hname, ClientData.topicId, AList.lookup_insert]
        rfl
      rw [ClientData.announceTopic_of_not_mem hname, if_neg hname, hid, hone]
      exact assignId_appendText_iff hd _ _
  | announceToPublisher topic pubuid =>
    rw [CacheCall.Fits, CacheCall.texts, hone]
    exact assignId_appendText_iff hd _ _
  | unannounce topic =>
    rw [CacheCall.Fits, CacheCall.texts, CacheCall.run, ClientData.unannounceTopic]
    by_cases hname : topic.name ∈ d.topicData
    · obtain ⟨data, hdata⟩ := AList.exists_lookup_of_mem hname
      rw [if_pos hname, ClientData.topicId, hdata, hone]
      exact appendText_iff hd _
    · rw [if_neg hname, AList.lookup_eq_none.2 hname]
      exact hnone _
  | properties topic ack =>
    rw [CacheCall.Fits, CacheCall.texts, hone]
    exact appendText_iff hd _
  | update topic time => exact (sendTopicUpdate_iff hd topic time).trans (hnone _)
  | flushText n => exact (flushText_iff n).trans (hnone _)
  | flushBinary n => exact (flushBinary_iff n).trans (hnone _)

/-- A sequence of calls keeps them if and only if every message fits. -/
theorem runAll_iff [FloatCodec] (hd : d.Framed) (calls : List CacheCall) :
    (CacheCall.runAll d calls).WithinLimits ↔ d.WithinLimits ∧ CacheCall.AllFit d calls := by
  induction calls generalizing d with
  | nil => exact (and_iff_left trivial).symm
  | cons call calls ih =>
    have hrest := ih (hd.run call)
    rw [run_iff hd] at hrest
    rw [CacheCall.AllFit, ← and_assoc]
    exact hrest

/-- When both caches are handed over, all that waits is in frames. -/
theorem of_flushed
    (h : ((d.flushText MAX_CLIENT_TEXT_CACHE_LENGTH).flushBinary
      MAX_CLIENT_BINARY_CACHE_LENGTH).FramesFit) (hd : d.Framed) : d.WithinLimits := by
  have hd₁ := hd.flushText MAX_CLIENT_TEXT_CACHE_LENGTH
  rw [← flushText_iff MAX_CLIENT_TEXT_CACHE_LENGTH,
    ← flushBinary_iff MAX_CLIENT_BINARY_CACHE_LENGTH]
  have htext : (d.flushText MAX_CLIENT_TEXT_CACHE_LENGTH).textCache.length = 0 := by
    rcases flushText_cases d MAX_CLIENT_TEXT_CACHE_LENGTH with ⟨hzero, -⟩ | ⟨-, hpos, hroom⟩
    · exact hzero
    · omega
  generalize d.flushText MAX_CLIENT_TEXT_CACHE_LENGTH = d₁ at h hd₁ htext ⊢
  have hd₂ := hd₁.flushBinary MAX_CLIENT_BINARY_CACHE_LENGTH
  refine ⟨fun htwo ↦ ?_, fun htwo ↦ ?_, h⟩
  · have hsame : (d₁.flushBinary MAX_CLIENT_BINARY_CACHE_LENGTH).textCache = d₁.textCache := by
      rw [ClientData.flushBinary]
      split <;> rfl
    rw [hsame, htext]
    decide
  · rcases flushBinary_cases d₁ MAX_CLIENT_BINARY_CACHE_LENGTH with hzero | ⟨hsame, hroom⟩
    · rw [hzero]
      exact Nat.zero_le _
    · rw [hsame]
      omega

end ClientOutput.WithinLimits

/-! ### Every sequence of calls -/

theorem ClientOutput.WithinLimits.new (info : ClientInfo) :
    ({ toClientInfo := info } : ClientData).WithinLimits :=
  ⟨fun _ ↦ show 0 + 2 ≤ MAX_CLIENT_TEXT_CACHE_LENGTH by decide, fun _ ↦ Nat.zero_le _, Always.nil _⟩

section

variable [FloatCodec]

/-- The frames of a new client are within the limits if every message fits. -/
theorem framesFit_of_allFit {info : ClientInfo} {calls : List CacheCall}
    (h : CacheCall.AllFit { toClientInfo := info } calls) :
    (CacheCall.runAll { toClientInfo := info } calls).FramesFit :=
  ((ClientOutput.WithinLimits.runAll_iff (.new info) calls).2 ⟨.new info, h⟩).frames

/-- If the frames are within the limits when all that waits is handed over, every message fits. -/
theorem allFit_of_framesFit {info : ClientInfo} {calls : List CacheCall}
    (h : (CacheCall.runAll { toClientInfo := info } (calls ++
      [.flushText MAX_CLIENT_TEXT_CACHE_LENGTH,
        .flushBinary MAX_CLIENT_BINARY_CACHE_LENGTH])).FramesFit) :
    CacheCall.AllFit { toClientInfo := info } calls := by
  rw [CacheCall.runAll, List.foldl_append] at h
  have hlimits := ClientOutput.WithinLimits.of_flushed h (.runAll (.new info) calls)
  exact ((ClientOutput.WithinLimits.runAll_iff (.new info) calls).1 hlimits).2

/-- **Frames of two or more messages are within the limits exactly if no message fills the text
cache up to the limit without the comma.** The flushes hand over what still waits. -/
theorem framesFit_iff (info : ClientInfo) (calls : List CacheCall) :
    (∀ flushes : List CacheCall, (∀ call ∈ flushes, call.IsFlush) →
      (CacheCall.runAll { toClientInfo := info } (calls ++ flushes)).FramesFit) ↔
    CacheCall.AllFit { toClientInfo := info } calls := by
  constructor
  · intro h
    exact allFit_of_framesFit (h _
      (List.forall_mem_cons.2 ⟨trivial, List.forall_mem_singleton.2 trivial⟩))
  · intro h flushes hflushes
    exact framesFit_of_allFit (CacheCall.allFit_append.2 ⟨h, CacheCall.allFit_of_isFlush hflushes⟩)

/-- The clients of a server: their frames are those of some sequence of calls. -/
theorem run_framesFit (start : Env) (events : List (Env × Event)) :
    Ends (run start events)
      (fun st ↦ ∀ guid d, st.clients.lookup guid = some (.remote d) →
        ∃ calls, d = CacheCall.runAll { toClientInfo := d.toClientInfo } calls ∧
          (CacheCall.AllFit { toClientInfo := d.toClientInfo } calls → d.FramesFit))
      fun _ ↦ True := by
  refine (run_called start events).mono (fun st hst guid d hd ↦ ?_) fun _ h ↦ h
  obtain ⟨calls, hcalls, -⟩ := hst guid d hd
  refine ⟨calls, hcalls, fun hfit ↦ ?_⟩
  have hframes := framesFit_of_allFit hfit
  rwa [← hcalls] at hframes

end

/-- Two topics with names of 124 bytes are announced. -/
def CacheCall.sample : List CacheCall :=
  [.announce { name := .replicate 124 97, value := { type := .bool } },
    .announce { name := .replicate 124 98, value := { type := .bool } }]

/-- Their frame has 513 bytes. -/
theorem comma_not_counted :
    ¬∀ (info : ClientInfo) (calls : List CacheCall),
      (@CacheCall.runAll .fractional { toClientInfo := info } calls).FramesFit := by
  intro h
  have hfit := @allFit_of_framesFit .fractional { guid := 0, name := [] } CacheCall.sample (h _ _)
  exact absurd (hfit.2.1 _ (List.mem_singleton.2 rfl)) (by decide +kernel)

end NetworkTables
