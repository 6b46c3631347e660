import PicoRadio.NetworkTables.Batching

/-!
# Announcements before values

A client learns the id of a topic from an announcement, and gets values under the id. Announcements
wait in the text cache and values in the binary cache, and the two are handed over to the socket at
different moments.

When a cache is handed over depends on the call and on what is in the cache before it
(`CacheCall.HandsText`, `CacheCall.HandsBinary`). `Waiting` is an account of the topics, kept call
by call: those whose first announcement came since the text cache was handed over, and those of
which a value came since the binary cache was. The account is right (`Waiting.Tracks`), so a value
overtakes its announcement exactly when a call hands over the binary cache while a topic is on both
lists (`CacheCall.InOrder`).
-/

namespace NetworkTables

open ClientHistory

/-! ### When a cache is handed over -/

/-- There is no room for so many bytes in the text cache, and something is in it. -/
def ClientData.TextFull (d : ClientData) (uncachedSize : ℕ) : Prop :=
  d.textCache.length > 0 ∧ d.textCache.length + uncachedSize + 2 > MAX_CLIENT_TEXT_CACHE_LENGTH

/-- There is no room for so many bytes in the binary cache, and something is in it. -/
def ClientData.BinaryFull (d : ClientData) (uncachedSize : ℕ) : Prop :=
  d.binaryCache.length > 0 ∧ d.binaryCache.length + uncachedSize > MAX_CLIENT_BINARY_CACHE_LENGTH

instance (d : ClientData) : DecidablePred d.TextFull :=
  fun _ ↦ inferInstanceAs (Decidable (_ ∧ _))

instance (d : ClientData) : DecidablePred d.BinaryFull :=
  fun _ ↦ inferInstanceAs (Decidable (_ ∧ _))

namespace ClientData

variable {d : ClientData} {n : ℕ}

theorem flushText_of_full (hfull : d.TextFull n) :
    d.flushText n = { d.record (.sentText (ascii "[" ++ d.textCache ++ ascii "]")) with
      textCache := [] } :=
  if_pos hfull

theorem flushText_of_not_full (hfull : ¬d.TextFull n) : d.flushText n = d :=
  if_neg hfull

theorem flushBinary_of_full (hfull : d.BinaryFull n) :
    d.flushBinary n = { d.record (.sentBinary d.binaryCache) with binaryCache := [] } :=
  if_pos hfull

theorem flushBinary_of_not_full (hfull : ¬d.BinaryFull n) : d.flushBinary n = d :=
  if_neg hfull

end ClientData

namespace CacheCall

variable (d : ClientData)

/-- The topics that the call announces for the first time. -/
def announces : CacheCall → List Str
  | announce topic | announceToPublisher topic _ =>
    if topic.name ∈ d.topicData then [] else [topic.name]
  | unannounce _ | properties _ _ | update _ _ | flushText _ | flushBinary _ => []

/-- The topics of which the call puts a value into the binary cache. -/
def sends : CacheCall → List Str
  | update topic _ => [topic.name]
  | announce _ | announceToPublisher _ _ | unannounce _ | properties _ _ | flushText _
  | flushBinary _ => []

/-- The sizes for which the call makes room in the text cache. -/
def textSizes : CacheCall → List ℕ
  | flushText n => [n]
  | call => (call.texts d).map (·.text.length)

/-- The call hands over the text cache. -/
def HandsText (call : CacheCall) : Prop :=
  ∃ n ∈ call.textSizes d, d.TextFull n

instance : DecidablePred (HandsText d) :=
  fun call ↦ inferInstanceAs (Decidable (∃ n ∈ call.textSizes d, d.TextFull n))

variable [FloatCodec]

/-- The sizes for which the call makes room in the binary cache. -/
def binarySizes : CacheCall → List ℕ
  | flushBinary n => [n]
  | call => (call.updates d).map (·.bytes.length)

/-- The call hands over the binary cache. -/
def HandsBinary (call : CacheCall) : Prop :=
  ∃ n ∈ call.binarySizes d, d.BinaryFull n

instance : DecidablePred (HandsBinary d) :=
  fun call ↦ inferInstanceAs (Decidable (∃ n ∈ call.binarySizes d, d.BinaryFull n))

end CacheCall

/-- The topics whose first announcement came since the text cache was handed over, and those of
which a value came since the binary cache was. -/
structure Waiting where
  announced : List Str := []
  updated : List Str := []

namespace Waiting

variable [FloatCodec]

/-- The account after a call. -/
def next (w : Waiting) (d : ClientData) (call : CacheCall) : Waiting where
  announced := (if call.HandsText d then [] else w.announced) ++ call.announces d
  updated := (if call.HandsBinary d then [] else w.updated) ++ call.sends

variable {w : Waiting} {d : ClientData} {call : CacheCall} {n : ℕ}

/-- A call that makes room in the text cache for something of one size. -/
theorem next_of_text (htext : call.textSizes d = [n]) (hbinary : call.binarySizes d = [])
    (hsends : call.sends = []) : w.next d call =
      { w with announced := (if d.TextFull n then [] else w.announced) ++ call.announces d } := by
  simp [next, CacheCall.HandsText, CacheCall.HandsBinary, htext, hbinary, hsends]

/-- A call that makes room in the binary cache for something of one size. -/
theorem next_of_binary (htext : call.textSizes d = []) (hbinary : call.binarySizes d = [n])
    (hannounces : call.announces d = []) : w.next d call =
      { w with updated := (if d.BinaryFull n then [] else w.updated) ++ call.sends } := by
  simp [next, CacheCall.HandsText, CacheCall.HandsBinary, htext, hbinary, hannounces]

/-- A call that does nothing. -/
theorem next_of_none (htext : call.textSizes d = []) (hbinary : call.binarySizes d = [])
    (hannounces : call.announces d = []) (hsends : call.sends = []) : w.next d call = w := by
  simp [next, CacheCall.HandsText, CacheCall.HandsBinary, htext, hbinary, hannounces, hsends]

end Waiting

/-- Whenever one of these calls hands over the binary cache, no topic with a value in it has its
first announcement in the text cache. -/
def CacheCall.InOrder [FloatCodec] (w : Waiting) (d : ClientData) : List CacheCall → Prop
  | [] => True
  | call :: calls =>
    (call.HandsBinary d → w.announced.Disjoint w.updated) ∧
      InOrder (w.next d call) (call.run d) calls

/-! ### What was sent -/

/-- The id that a message announces. -/
def TextMessage.announcedId : TextMessage → Option ℤ
  | announce _ id _ _ _ => some id
  | unannounce _ _ | properties _ _ _ => none

namespace ClientHistory

variable (h : List ClientEvent)

/-- The text messages sent in text frames. -/
def sentTexts : List TextMessage :=
  (uptoLast ClientEvent.isSentText h).filterMap ClientEvent.asText

/-- The id was announced in a text frame that was sent. -/
def SentAnnounce (id : ℤ) : Prop :=
  ∃ m ∈ sentTexts h, m.announcedId = some id

/-- An announcement of the id was put into the text cache. -/
def AnnouncedIn (id : ℤ) : Prop :=
  ∃ m ∈ h.filterMap ClientEvent.asText, m.announcedId = some id

/-- When the text cache is handed over, everything in it is sent. -/
theorem sentTexts_concat (e : ClientEvent) :
    sentTexts (h ++ [e]) = if e.isSentText then h.filterMap
      ClientEvent.asText else sentTexts h := by
  rw [sentTexts, uptoLast_concat]
  cases e <;> simp [ClientEvent.isSentText, ClientEvent.asText, sentTexts]

variable {h} {id : ℤ}

/-- What was sent was put into the text cache before. -/
theorem SentAnnounce.announcedIn (hsent : SentAnnounce h id) : AnnouncedIn h id := by
  obtain ⟨m, hm, hid⟩ := hsent
  refine ⟨m, ?_, hid⟩
  rw [← uptoLast_append_sinceLast ClientEvent.isSentText h, List.filterMap_append]
  exact List.mem_append_left _ hm

theorem sentAnnounce_concat {e : ClientEvent} :
    SentAnnounce (h ++ [e]) id ↔
      if e.isSentText then AnnouncedIn h id else SentAnnounce h id := by
  rw [SentAnnounce, sentTexts_concat]
  split <;> exact Iff.rfl

theorem announcedIn_concat {e : ClientEvent} :
    AnnouncedIn (h ++ [e]) id ↔
      AnnouncedIn h id ∨ ∃ m, e.asText = some m ∧ m.announcedId = some id := by
  rw [AnnouncedIn, List.filterMap_append]
  cases e <;> simp [AnnouncedIn, or_and_right, exists_or]

end ClientHistory

/-- A binary frame is sent with values of topics only that were announced in text frames before. -/
def AnnouncedFirst (done : List ClientEvent) (e : ClientEvent) : Prop :=
  e.isSentBinary → ∀ u ∈ waitingUpdates done, SentAnnounce done u.id

/-! ### The account is right -/

/-- The id of a topic that the client knows. -/
def ClientOutput.idOf (d : ClientOutput) (name : Str) : Option ℤ :=
  (d.topicData.lookup name).map (·.id)

/-- Every topic that the client knows was announced to it, and the announcement was sent unless the
account has the topic. The values in the binary cache are of the topics in the account. -/
structure Waiting.Tracks (w : Waiting) (d : ClientOutput) : Prop where
  announced : ∀ name id, d.idOf name = some id →
    AnnouncedIn d.history id ∧ (SentAnnounce d.history id ↔ name ∉ w.announced)
  below : ∀ id, AnnouncedIn d.history id → id < d.nextTopicIdAssigned
  updated : (waitingUpdates d.history).map (some ·.id) = w.updated.map d.idOf

namespace Waiting.Tracks

variable {w w' : Waiting} {d d' : ClientOutput}

/-- A topic of which a value waits is known. -/
theorem mem_of_mem_updated (h : w.Tracks d) {name : Str} (hname : name ∈ w.updated) :
    ∃ u ∈ waitingUpdates d.history, d.idOf name = some u.id := by
  have hmem : d.idOf name ∈ (waitingUpdates d.history).map (some ·.id) := by
    rw [h.updated]
    exact List.mem_map_of_mem hname
  obtain ⟨u, hu, hid⟩ := List.mem_map.1 hmem
  exact ⟨u, hu, hid.symm⟩

/-- The values in the binary cache may be sent if and only if no topic is on both lists. -/
theorem sent_iff (h : w.Tracks d) :
    (∀ u ∈ waitingUpdates d.history, SentAnnounce d.history u.id) ↔
      w.announced.Disjoint w.updated := by
  constructor
  · intro hsent name hannounced hupdated
    obtain ⟨u, hu, hid⟩ := h.mem_of_mem_updated hupdated
    exact ((h.announced name u.id hid).2.1 (hsent u hu)) hannounced
  · intro hdisjoint u hu
    have hmem : some u.id ∈ w.updated.map d.idOf := by
      rw [← h.updated]
      exact List.mem_map.2 ⟨u, hu, rfl⟩
    obtain ⟨name, hname, hid⟩ := List.mem_map.1 hmem
    exact (h.announced name u.id hid).2.2 fun hannounced ↦ hdisjoint hannounced hname

/-- One more event that announces no new topic, and numbers none. -/
theorem concat (h : w.Tracks d) {e : ClientEvent} (hhistory : d'.history = d.history ++ [e])
    (hids : d'.idOf = d.idOf) (hnext : d'.nextTopicIdAssigned = d.nextTopicIdAssigned)
    (hknown : ∀ m id, e.asText = some m → m.announcedId = some id → AnnouncedIn d.history id)
    (hannounced : w'.announced = if e.isSentText then [] else w.announced)
    (hupdated : (if e.isSentBinary then [] else waitingUpdates d.history ++ e.asUpdate.toList).map
      (some ·.id) = w'.updated.map d.idOf) : w'.Tracks d' := by
  have hin (id : ℤ) : AnnouncedIn d'.history id ↔ AnnouncedIn d.history id := by
    rw [hhistory, announcedIn_concat]
    exact or_iff_left_of_imp fun ⟨m, hm, hid⟩ ↦ hknown m id hm hid
  refine ⟨fun name id hid ↦ ?_, fun id hid ↦ ?_, ?_⟩
  · rw [hids] at hid
    obtain ⟨hbefore, hsent⟩ := h.announced name id hid
    refine ⟨(hin id).2 hbefore, ?_⟩
    rw [hhistory, sentAnnounce_concat, hannounced]
    split
    · exact iff_of_true hbefore List.not_mem_nil
    · exact hsent
  · rw [hnext]
    exact h.below id ((hin id).1 hid)
  · rw [hhistory, waitingUpdates_concat, hids]
    exact hupdated

/-- A topic is numbered and announced for the first time. -/
theorem newcomer (h : w.Tracks d) {name : Str} (hname : name ∉ d.topicData) {m : TextMessage}
    (hhistory : d'.history = d.history ++ [.text m])
    (hm : m.announcedId = some d.nextTopicIdAssigned)
    (hdata : d'.topicData = d.topicData.insert name { id := d.nextTopicIdAssigned })
    (hnext : d'.nextTopicIdAssigned = d.nextTopicIdAssigned + 1) :
    Waiting.Tracks { w with announced := w.announced ++ [name] } d' := by
  have hnew (name' : Str) (hne : name' ≠ name) : d'.idOf name' = d.idOf name' := by
    rw [ClientOutput.idOf, hdata, AList.lookup_insert_ne hne, ClientOutput.idOf]
  have hin (id : ℤ) : AnnouncedIn d'.history id ↔
      AnnouncedIn d.history id ∨ id = d.nextTopicIdAssigned := by
    rw [hhistory, announcedIn_concat]
    refine or_congr_right ⟨?_, fun hid ↦ ⟨m, rfl, hid ▸ hm⟩⟩
    rintro ⟨m', hm', hid⟩
    obtain rfl := Option.some.inj hm'
    exact Option.some.inj (hid.symm.trans hm)
  have hsent (id : ℤ) : SentAnnounce d'.history id ↔ SentAnnounce d.history id := by
    rw [hhistory, sentAnnounce_concat]
    exact Iff.rfl
  refine ⟨fun name' id hid ↦ ?_, fun id hid ↦ ?_, ?_⟩
  · rw [hin, hsent, List.mem_append, List.mem_singleton]
    obtain rfl | hne := eq_or_ne name' name
    · rw [ClientOutput.idOf, hdata, AList.lookup_insert] at hid
      obtain rfl := Option.some.inj hid
      exact ⟨.inr rfl, iff_of_false (fun hbefore ↦ lt_irrefl _ (h.below _ hbefore.announcedIn))
        fun hnot ↦ hnot (.inr rfl)⟩
    · rw [hnew name' hne] at hid
      obtain ⟨hbefore, hiff⟩ := h.announced name' id hid
      exact ⟨.inl hbefore, hiff.trans (not_congr (or_iff_left hne).symm)⟩
  · rw [hnext]
    rcases (hin id).1 hid with hbefore | rfl
    · exact (h.below id hbefore).trans (lt_add_one _)
    · exact lt_add_one _
  · rw [hhistory, waitingUpdates_concat, if_neg (by simp)]
    refine (congrArg _ (List.append_nil _)).trans (h.updated.trans (List.map_congr_left ?_))
    intro name' hname'
    obtain ⟨u, -, hid⟩ := h.mem_of_mem_updated hname'
    refine (hnew name' ?_).symm
    rintro rfl
    rw [ClientOutput.idOf, AList.lookup_eq_none.2 hname] at hid
    cases hid

variable {d d' : ClientData}

/-- The account speaks of the history and of the ids. -/
theorem of_eq (h : w.Tracks d.toClientOutput) (hdata : d'.topicData = d.topicData)
    (hnext : d'.nextTopicIdAssigned = d.nextTopicIdAssigned) (hhistory : d'.history = d.history) :
    w.Tracks d'.toClientOutput := by
  have hids : d'.idOf = d.idOf := by
    funext name
    rw [ClientOutput.idOf, hdata, ClientOutput.idOf]
  refine ⟨fun name id hid ↦ ?_, fun id hid ↦ ?_, ?_⟩
  · rw [hhistory]
    exact h.announced name id (hids ▸ hid)
  · rw [hnext]
    exact h.below id (hhistory ▸ hid)
  · rw [hhistory, hids]
    exact h.updated

theorem flushText (h : w.Tracks d.toClientOutput) (n : ℕ) :
    Waiting.Tracks { w with announced := if d.TextFull n then [] else w.announced }
      (d.flushText n).toClientOutput := by
  by_cases hfull : d.TextFull n
  · rw [ClientData.flushText_of_full hfull, if_pos hfull]
    refine h.concat rfl rfl rfl (fun _ _ hm ↦ by cases hm) rfl ?_
    exact (congrArg _ (List.append_nil _)).trans h.updated
  · rw [ClientData.flushText_of_not_full hfull, if_neg hfull]
    exact h

theorem flushBinary (h : w.Tracks d.toClientOutput) (n : ℕ) :
    Waiting.Tracks { w with updated := if d.BinaryFull n then [] else w.updated }
      (d.flushBinary n).toClientOutput := by
  by_cases hfull : d.BinaryFull n
  · rw [ClientData.flushBinary_of_full hfull, if_pos hfull]
    exact h.concat rfl rfl rfl (fun _ _ hm ↦ by cases hm) rfl rfl
  · rw [ClientData.flushBinary_of_not_full hfull, if_neg hfull]
    exact h

/-- A message about a topic that was announced before. -/
theorem appendText (h : w.Tracks d.toClientOutput) {m : TextMessage}
    (hknown : ∀ id, m.announcedId = some id → AnnouncedIn d.history id) :
    Waiting.Tracks { w with announced := if d.TextFull m.text.length then [] else w.announced }
      (d.appendText m).toClientOutput := by
  have hflush := h.flushText m.text.length
  refine hflush.concat (e := .text m) rfl rfl rfl (fun m' id hm' hid ↦ ?_) rfl ?_
  · obtain rfl := Option.some.inj hm'
    obtain ⟨m', hm', hid'⟩ := hknown id hid
    refine ⟨m', ?_, hid'⟩
    rw [ClientData.flushText]
    split
    · rw [ClientData.record, List.filterMap_append]
      exact List.mem_append_left _ hm'
    · exact hm'
  · exact (congrArg _ (List.append_nil _)).trans hflush.updated

/-- A topic that the client does not know is announced. -/
theorem announce (h : w.Tracks d.toClientOutput) {name : Str} (hname : name ∉ d.topicData)
    {m : TextMessage} (hm : m.announcedId = some d.nextTopicIdAssigned) :
    Waiting.Tracks
      { w with announced := (if d.TextFull m.text.length then [] else w.announced) ++ [name] }
      ((d.assignId name).appendText m).toClientOutput := by
  have hflush := h.flushText m.text.length
  refine hflush.newcomer (by simpa using hname) (m := m) ?_ (by simpa using hm) ?_ ?_
  · exact congrArg (· ++ [ClientEvent.text m]) (ClientData.history_flushText_assignId d name _)
  · rw [ClientData.topicData_appendText, ClientData.assignId_of_not_mem hname,
      ClientData.topicData_flushText, ClientData.nextTopicIdAssigned_flushText]
  · rw [ClientData.nextTopicIdAssigned_appendText, ClientData.assignId_of_not_mem hname,
      ClientData.nextTopicIdAssigned_flushText]

variable [FloatCodec]

/-- A value of a topic that the client knows. -/
theorem sendTopicUpdate (h : w.Tracks d.toClientOutput) {topic : Topic}
    (hname : topic.name ∈ d.topicData) (time : UInt64) :
    Waiting.Tracks
      { w with
        updated :=
          (if d.BinaryFull (d.topicUpdate topic time).bytes.length then [] else w.updated) ++
          [topic.name] } (d.sendTopicUpdate topic time).toClientOutput := by
  let u := d.topicUpdate topic time
  let d₀ : ClientData := { d with
    topicData := d.topicData.insert topic.name { id := u.id, initialPublish := true } }
  obtain ⟨data, hdata⟩ := AList.exists_lookup_of_mem hname
  have hid : u.id = data.id := by
    show d.topicId topic.name = data.id
    rw [ClientData.topicId, hdata]
    rfl
  -- the topic keeps its id
  have hids : d₀.idOf = d.idOf := by
    funext name
    rw [ClientOutput.idOf, ClientOutput.idOf, AList.lookup_insert_ite]
    split
    · next heq => rw [heq, hdata, Option.map_some, Option.map_some, hid]
    · rfl
  have h₀ : w.Tracks d₀.toClientOutput := by
    refine ⟨fun name id ↦ ?_, h.below, ?_⟩
    · rw [hids]
      exact h.announced name id
    · rw [hids]
      exact h.updated
  have hflush := h₀.flushBinary u.bytes.length
  have hsent : (d₀.flushBinary u.bytes.length).idOf topic.name = some u.id := by
    rw [ClientOutput.idOf, ClientData.topicData_flushBinary, AList.lookup_insert]
    rfl
  refine hflush.concat (e := .update topic.name u) rfl rfl rfl (fun _ _ hm ↦ by cases hm) rfl ?_
  show (waitingUpdates (d₀.flushBinary u.bytes.length).history ++ [u]).map (some ·.id) = _
  rw [List.map_append, List.map_append, hflush.updated]
  exact congrArg (_ ++ [·]) hsent.symm

/-- A call changes the account as the call and the caches before it say. -/
theorem run (h : w.Tracks d.toClientOutput) {call : CacheCall} (hcall : call.KnownTo d) :
    (w.next d call).Tracks (call.run d).toClientOutput := by
  have hknown (name : Str) (hname : name ∈ d.topicData) :
      AnnouncedIn d.history ((d.assignId name).topicId name) := by
    obtain ⟨data, hdata⟩ := AList.exists_lookup_of_mem hname
    rw [ClientData.assignId_of_mem hname, ClientData.topicId, hdata]
    exact (h.announced name data.id (by rw [ClientOutput.idOf, hdata]; rfl)).1
  have hnew (name : Str) (hname : name ∉ d.topicData) :
      (d.assignId name).topicId name = d.nextTopicIdAssigned := by
    rw [ClientData.assignId_of_not_mem hname, ClientData.topicId, AList.lookup_insert]
    rfl
  cases call with
  | announce topic =>
    by_cases hname : topic.name ∈ d.topicData
    · have hnone : w.next d (.announce topic) = w :=
        next_of_none (congrArg _ (if_pos hname)) rfl (if_pos hname) rfl
      rw [CacheCall.run, ClientData.announceTopic_of_mem hname, hnone]
      exact h
    · rw [CacheCall.run, ClientData.announceTopic_of_not_mem hname, hnew _ hname,
        next_of_text (congrArg _ (if_neg hname)) rfl rfl, CacheCall.announces, if_neg hname]
      exact h.announce hname rfl
  | announceToPublisher topic pubuid =>
    rw [next_of_text rfl rfl rfl, CacheCall.announces]
    by_cases hname : topic.name ∈ d.topicData
    · rw [if_pos hname, List.append_nil, CacheCall.run, ClientData.announceTopicToPublisher]
      have hknown := hknown _ hname
      rw [ClientData.assignId_of_mem hname] at hknown ⊢
      exact h.appendText fun id hid ↦ Option.some.inj hid ▸ hknown
    · rw [if_neg hname]
      exact h.announce hname (congrArg some (hnew _ hname))
  | unannounce topic =>
    by_cases hname : topic.name ∈ d.topicData
    · obtain ⟨data, hdata⟩ := AList.exists_lookup_of_mem hname
      have hid : d.topicId topic.name = data.id := by
        rw [ClientData.topicId, hdata]
        rfl
      rw [CacheCall.run, ClientData.unannounceTopic, hdata,
        next_of_text (congrArg _ (if_pos hname)) rfl rfl, CacheCall.announces, List.append_nil, hid]
      exact h.appendText fun _ hid ↦ by cases hid
    · rw [CacheCall.run, ClientData.unannounceTopic, AList.lookup_eq_none.2 hname,
        next_of_none (congrArg _ (if_neg hname)) rfl rfl rfl]
      exact h
  | properties topic ack =>
    rw [next_of_text rfl rfl rfl, CacheCall.announces, List.append_nil]
    exact h.appendText fun _ hid ↦ by cases hid
  | update topic time =>
    rw [next_of_binary rfl rfl rfl]
    exact h.sendTopicUpdate hcall time
  | flushText n =>
    rw [next_of_text rfl rfl rfl, CacheCall.announces, List.append_nil]
    exact h.flushText n
  | flushBinary n =>
    rw [next_of_binary rfl rfl rfl, CacheCall.sends, List.append_nil]
    exact h.flushBinary n

end Waiting.Tracks

/-! ### The order of frames -/

section

variable {d : ClientData}

/-- Nothing but handing over the binary cache can be out of order. -/
theorem always_announcedFirst_concat {h : List ClientEvent} {e : ClientEvent}
    (he : e.isSentBinary = false) :
    Always AnnouncedFirst (h ++ [e]) ↔ Always AnnouncedFirst h := by
  rw [Always.concat_iff, and_iff_left]
  intro hsent
  rw [he] at hsent
  cases hsent

theorem always_announcedFirst_flushText (n : ℕ) :
    Always AnnouncedFirst (d.flushText n).history ↔ Always AnnouncedFirst d.history := by
  rw [ClientData.flushText]
  split
  · exact always_announcedFirst_concat rfl
  · exact Iff.rfl

theorem always_announcedFirst_appendText (name : Str) (m : TextMessage) :
    Always AnnouncedFirst ((d.assignId name).appendText m).history ↔
      Always AnnouncedFirst d.history := by
  have hhistory : ((d.assignId name).appendText m).history =
      (d.flushText m.text.length).history ++ [.text m] :=
    congrArg (· ++ [ClientEvent.text m]) (ClientData.history_flushText_assignId d name _)
  rw [hhistory, always_announcedFirst_concat rfl, always_announcedFirst_flushText]

/-- Handing over the binary cache is in order if no topic is on both lists. -/
theorem always_announcedFirst_flushBinary {w : Waiting} (hw : w.Tracks d.toClientOutput) (n : ℕ) :
    Always AnnouncedFirst (d.flushBinary n).history ↔ Always AnnouncedFirst d.history ∧
      (d.BinaryFull n → w.announced.Disjoint w.updated) := by
  by_cases hfull : d.BinaryFull n
  · rw [ClientData.flushBinary_of_full hfull, forall_prop_of_true hfull, ← hw.sent_iff]
    exact Always.concat_iff.trans (and_congr_right' (forall_prop_of_true rfl))
  · rw [ClientData.flushBinary_of_not_full hfull, and_iff_left fun h ↦ absurd h hfull]

variable [FloatCodec]

/-- A call is in order if it does not hand over a value before its announcement. -/
theorem always_announcedFirst_run {w : Waiting}
    (hw : w.Tracks d.toClientOutput) (call : CacheCall) :
    Always AnnouncedFirst (call.run d).history ↔ Always AnnouncedFirst d.history ∧
      (call.HandsBinary d → w.announced.Disjoint w.updated) := by
  have hnone (hsizes : call.binarySizes d = []) :
      Always AnnouncedFirst d.history ↔ Always AnnouncedFirst d.history ∧
        (call.HandsBinary d → w.announced.Disjoint w.updated) := by
    refine (and_iff_left ?_).symm
    rintro ⟨n, hn, -⟩
    rw [hsizes] at hn
    cases hn
  cases call with
  | announce topic =>
    refine Iff.trans ?_ (hnone rfl)
    rw [CacheCall.run, ClientData.announceTopic]
    split
    · exact Iff.rfl
    · exact always_announcedFirst_appendText topic.name _
  | announceToPublisher topic =>
    exact (always_announcedFirst_appendText topic.name _).trans (hnone rfl)
  | unannounce topic =>
    refine Iff.trans ?_ (hnone rfl)
    rw [CacheCall.run, ClientData.unannounceTopic]
    split
    · exact (always_announcedFirst_concat rfl).trans (always_announcedFirst_flushText _)
    · exact Iff.rfl
  | properties topic =>
    exact ((always_announcedFirst_concat rfl).trans (always_announcedFirst_flushText _)).trans
      (hnone rfl)
  | update topic time =>
    let u := d.topicUpdate topic time
    let d₀ : ClientData := { d with
      topicData := d.topicData.insert topic.name { id := u.id, initialPublish := true } }
    have hhands : CacheCall.HandsBinary d (.update topic time) ↔ d.BinaryFull u.bytes.length := by
      simp [CacheCall.HandsBinary, CacheCall.binarySizes, CacheCall.updates, u]
    have hhistory :
        (d₀.flushBinary u.bytes.length).history = (d.flushBinary u.bytes.length).history := by
      rw [ClientData.flushBinary, ClientData.flushBinary]
      split <;> rfl
    have hevent : ((CacheCall.update topic time).run d).history =
        (d.flushBinary u.bytes.length).history ++ [.update topic.name u] :=
      congrArg (· ++ [ClientEvent.update topic.name u]) hhistory
    rw [hevent, always_announcedFirst_concat rfl, hhands]
    exact always_announcedFirst_flushBinary hw u.bytes.length
  | flushText n => exact (always_announcedFirst_flushText n).trans (hnone rfl)
  | flushBinary n =>
    have hhands : CacheCall.HandsBinary d (.flushBinary n) ↔ d.BinaryFull n := by
      simp [CacheCall.HandsBinary, CacheCall.binarySizes]
    rw [hhands]
    exact always_announcedFirst_flushBinary hw n

/-- Calls are in order if and only if the caches were handed over in order. -/
theorem always_announcedFirst_runAll {w : Waiting} (hw : w.Tracks d.toClientOutput)
    {calls : List CacheCall} (hcalls : CacheCall.AllKnown d calls) :
    Always AnnouncedFirst (CacheCall.runAll d calls).history ↔
      Always AnnouncedFirst d.history ∧ CacheCall.InOrder w d calls := by
  induction calls generalizing w d with
  | nil => exact (and_iff_left trivial).symm
  | cons call calls ih =>
    obtain ⟨hcall, hcalls⟩ := hcalls
    have hrest := ih (hw.run hcall) hcalls
    rw [always_announcedFirst_run hw, and_assoc] at hrest
    exact hrest

omit [FloatCodec] in
/-- The account of a new client is empty. -/
theorem Waiting.Tracks.new (info : ClientInfo) :
    Waiting.Tracks {} ({ toClientInfo := info } : ClientData).toClientOutput :=
  ⟨fun _ _ hid ↦ by simp [ClientOutput.idOf] at hid, fun _ hin ↦ by simp [AnnouncedIn] at hin, rfl⟩

/-- In every state a run reaches, the caches of a client with a connection come from calls, and the
frames sent to it hold what was put into the caches. No value was sent before its topic was
announced if and only if none of the calls handed over the binary cache while the first announcement
of a topic with a value in it was in the text cache. -/
theorem run_announcedFirst_iff (start : Env) (events : List (Env × Event)) :
    Ends (run start events)
      (fun st ↦ ∀ guid d, st.clients.lookup guid = some (.remote d) → d.Framed ∧ d.Called ∧
        ∀ calls, d.CalledBy calls →
          (Always AnnouncedFirst d.history ↔
            CacheCall.InOrder {} { toClientInfo := d.toClientInfo } calls))
      fun _ ↦ True := by
  refine (run_called start events).imp fun st hst guid d hd ↦ ⟨?_, hst guid d hd, ?_⟩
  · obtain ⟨calls, hcalls, -⟩ := hst guid d hd
    rw [hcalls]
    exact (ClientOutput.Framed.new _).runAll calls
  · intro calls ⟨hcalls, hknown⟩
    have hiff := always_announcedFirst_runAll (Waiting.Tracks.new d.toClientInfo) hknown
    rw [← hcalls, and_iff_right (Always.nil _)] at hiff
    exact hiff

end

/-- A value is handed over while the announcement waits. -/
def overtakes : List ClientEvent → Bool
  | [.text _, .update _ _, .sentBinary _] => true
  | _ => false

set_option maxRecDepth 4000 in
/-- The local client publishes a topic that a client subscribes to, updates it and flushes. -/
theorem flush_overtakes :
    ¬∀ (codec : FloatCodec) (start : Env) (events : List (Env × Event)),
      Ends (@run codec start events)
        (fun st ↦ ∀ guid d, st.clients.lookup guid = some (.remote d) →
          Always AnnouncedFirst d.history) fun _ ↦ True := by
  intro h
  have hsent : Ends (@run .fractional {} [({}, .connect (.sample 1 "a")),
        ({}, .text 1 [.subscribe [ascii "/x"] 1 .DEFAULT]), ({}, .publish (ascii "/x") 2 .int {}),
        ({}, .updateTopic 2 { type := .int, bits := 5 } none), ({}, .flush)])
      (fun st ↦ (st.remote 1).any fun d ↦ overtakes d.history) fun _ ↦ False := by
    decide +kernel
  refine (h .fractional {} _).incompatible hsent (fun st hst hany ↦ ?_) fun _ _ ↦ id
  obtain ⟨d, hd, hmatch⟩ := (Option.any_eq_true _ _).1 hany
  have hfirst := hst 1 d (Instance.remote_eq_some.1 hd)
  unfold overtakes at hmatch
  split at hmatch
  · next m topic u frame heq =>
    rw [heq] at hfirst
    have hu : u ∈ waitingUpdates [.text m, .update topic u] := List.mem_singleton.2 rfl
    obtain ⟨m', hm', -⟩ := hfirst [.text m, .update topic u] (.sentBinary frame)
      (List.prefix_refl _) rfl u hu
    cases hm'
  · cases hmatch

end NetworkTables
