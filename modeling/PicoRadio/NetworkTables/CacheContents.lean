import PicoRadio.Library.History
import PicoRadio.NetworkTables.Operations

/-!
# What is in the caches

The messages in a cache, and in every frame that was handed over, are read off the client's
history: they are the messages put into the cache since the last frame of its kind. The bytes of
the caches and of the frames are those of these messages (`ClientOutput.Framed`), and everything
that the server does to the caches keeps it so.
-/

namespace NetworkTables

/-! ### What a history tells -/

/-- The text message an event puts into the text cache. -/
@[simp]
def ClientEvent.asText : ClientEvent → Option TextMessage
  | text m => some m
  | update _ _ | sentText _ | sentBinary _ | announcedCallback _ | updateCallback _ _ _
  | propertiesCallback _ _ => none

/-- The text cache is handed over. -/
@[simp]
def ClientEvent.isSentText : ClientEvent → Bool
  | sentText _ => true
  | text _ | update _ _ | sentBinary _ | announcedCallback _ | updateCallback _ _ _
  | propertiesCallback _ _ => false

/-- The binary cache is handed over. -/
@[simp]
def ClientEvent.isSentBinary : ClientEvent → Bool
  | sentBinary _ => true
  | text _ | update _ _ | sentText _ | announcedCallback _ | updateCallback _ _ _
  | propertiesCallback _ _ => false

namespace ClientHistory

variable (h : List ClientEvent)

/-- The text messages in the text cache. -/
def waitingTexts : List TextMessage :=
  (sinceLast ClientEvent.isSentText h).filterMap ClientEvent.asText

/-- The value updates in the binary cache. -/
def waitingUpdates : List ValueUpdate :=
  (sinceLast ClientEvent.isSentBinary h).filterMap ClientEvent.asUpdate

theorem waitingTexts_concat (e : ClientEvent) :
    waitingTexts (h ++ [e]) =
      if e.isSentText then [] else waitingTexts h ++ e.asText.toList := by
  rw [waitingTexts, sinceLast_concat]
  cases e <;> simp [ClientEvent.isSentText, ClientEvent.asText, waitingTexts]

theorem waitingUpdates_concat (e : ClientEvent) :
    waitingUpdates (h ++ [e]) =
      if e.isSentBinary then [] else waitingUpdates h ++ e.asUpdate.toList := by
  rw [waitingUpdates, sinceLast_concat]
  cases e <;> simp [ClientEvent.isSentBinary, ClientEvent.asUpdate, waitingUpdates]

/-- Text messages with commas between them. -/
def joined (messages : List TextMessage) : Str :=
  (ascii ",").intercalate (messages.map TextMessage.text)

theorem text_ne_nil (m : TextMessage) : m.text ≠ [] := by
  cases m with
  | announce name id type pubuid => cases pubuid <;> exact List.cons_ne_nil _ _
  | unannounce | properties => exact List.cons_ne_nil _ _

theorem joined_ne_nil {messages : List TextMessage} (hne : messages ≠ []) :
    joined messages ≠ [] := by
  obtain ⟨m, rest, rfl⟩ := List.exists_cons_of_ne_nil hne
  rw [joined, List.map_cons]
  obtain rfl | hrest := eq_or_ne rest []
  · rw [List.map_nil, List.intercalate_singleton]
    exact text_ne_nil m
  · rw [List.intercalate_cons_of_ne_nil (by simpa using hrest), List.append_assoc]
    exact List.append_ne_nil_of_left_ne_nil (text_ne_nil m) _

/-- One more message: a comma goes before it unless it is the first. -/
theorem joined_concat (messages : List TextMessage) (m : TextMessage) :
    joined (messages ++ [m]) =
      (if (joined messages).length > 0 then joined messages ++ ascii "," else joined messages) ++
        m.text := by
  induction messages with
  | nil => exact List.intercalate_singleton
  | cons m' messages ih =>
    rw [if_pos (List.length_pos_of_ne_nil (joined_ne_nil (List.cons_ne_nil m' messages)))]
    have hne : (messages ++ [m]).map TextMessage.text ≠ [] := by simp
    have hstep : joined (m' :: (messages ++ [m])) =
        m'.text ++ ascii "," ++ joined (messages ++ [m]) := List.intercalate_cons_of_ne_nil hne
    rw [List.cons_append, hstep, ih]
    obtain rfl | hrest := eq_or_ne messages []
    · simp [joined]
    · have hjoined : joined (m' :: messages) = m'.text ++ ascii "," ++ joined messages :=
        List.intercalate_cons_of_ne_nil (by simpa using hrest)
      rw [if_pos (List.length_pos_of_ne_nil (joined_ne_nil hrest)), hjoined]
      simp only [List.append_assoc]

/-- The bytes of updates one after the other. -/
def packed (updates : List ValueUpdate) : Bytes :=
  updates.flatMap ValueUpdate.bytes

/-- A frame holds the messages of the cache it was. -/
def FrameOf (done : List ClientEvent) : ClientEvent → Prop
  | .sentText frame => frame = ascii "[" ++ joined (waitingTexts done) ++ ascii "]"
  | .sentBinary frame => frame = packed (waitingUpdates done)
  | .text _ | .update _ _ | .announcedCallback _ | .updateCallback _ _ _
  | .propertiesCallback _ _ => True

end ClientHistory

open ClientHistory

/-- The caches and the frames hold what the history says. -/
structure ClientOutput.Framed (d : ClientOutput) : Prop where
  text : d.textCache = joined (waitingTexts d.history)
  binary : d.binaryCache = packed (waitingUpdates d.history)
  frames : Always FrameOf d.history

namespace ClientOutput.Framed

variable {d d' : ClientData}

/-- The invariant speaks of the caches and of the history. -/
theorem of_eq (hd : d.Framed) (htext : d'.textCache = d.textCache)
    (hbinary : d'.binaryCache = d.binaryCache) (hhistory : d'.history = d.history) : d'.Framed := by
  refine ⟨?_, ?_, ?_⟩
  · rw [htext, hhistory]
    exact hd.text
  · rw [hbinary, hhistory]
    exact hd.binary
  · rw [hhistory]
    exact hd.frames

/-- One more event: the caches are what they are to be after it. -/
theorem concat (hd : d.Framed) {e : ClientEvent} (hhistory : d'.history = d.history ++ [e])
    (htext : d'.textCache = joined (waitingTexts (d.history ++ [e])))
    (hbinary : d'.binaryCache = packed (waitingUpdates (d.history ++ [e])))
    (hframe : FrameOf d.history e) : d'.Framed := by
  refine ⟨?_, ?_, ?_⟩ <;> rw [hhistory]
  · exact htext
  · exact hbinary
  · exact Always.concat_iff.2 ⟨hd.frames, hframe⟩

theorem flushText (hd : d.Framed) (n : ℕ) : (d.flushText n).Framed := by
  rw [ClientData.flushText]
  split
  · refine hd.concat rfl ?_ ?_ ?_
    · simp [waitingTexts_concat, joined]
    · simp [waitingUpdates_concat, ← hd.binary]
    · show _ = ascii "[" ++ joined (waitingTexts d.history) ++ ascii "]"
      rw [← hd.text]
  · exact hd

theorem flushBinary (hd : d.Framed) (n : ℕ) : (d.flushBinary n).Framed := by
  rw [ClientData.flushBinary]
  split
  · refine hd.concat rfl ?_ ?_ hd.binary
    · simp [waitingTexts_concat, ← hd.text]
    · simp [waitingUpdates_concat, packed]
  · exact hd

theorem appendText (hd : d.Framed) (m : TextMessage) : (d.appendText m).Framed := by
  have hd := hd.flushText m.text.length
  rw [ClientData.appendText]
  generalize d.flushText m.text.length = d₁ at hd
  refine hd.concat rfl ?_ ?_ trivial
  · have htexts : waitingTexts (d₁.history ++ [.text m]) = waitingTexts d₁.history ++ [m] := by
      simp [waitingTexts_concat]
    rw [htexts, joined_concat, ← hd.text]
  · simp [waitingUpdates_concat, ← hd.binary]

theorem assignId (hd : d.Framed) (name : Str) : (d.assignId name).Framed := by
  rw [ClientData.assignId]
  split
  · exact hd
  · exact hd.of_eq rfl rfl rfl

theorem sendTopicUpdate [FloatCodec] (hd : d.Framed) (topic : Topic) (time : UInt64) :
    (d.sendTopicUpdate topic time).Framed := by
  let u := d.topicUpdate topic time
  let d₀ : ClientData := { d with
    topicData := d.topicData.insert topic.name { id := u.id, initialPublish := true } }
  have hd₀ : d₀.Framed := hd.of_eq rfl rfl rfl
  have hd₁ := hd₀.flushBinary u.bytes.length
  refine hd₁.concat (e := .update topic.name u) rfl ?_ ?_ trivial
  · rw [waitingTexts_concat]
    exact hd₁.text.trans (congrArg joined (List.append_nil _).symm)
  · rw [waitingUpdates_concat]
    show (d₀.flushBinary u.bytes.length).binaryCache ++ u.bytes =
      packed (waitingUpdates (d₀.flushBinary u.bytes.length).history ++ [u])
    rw [packed, List.flatMap_append, List.flatMap_singleton]
    exact congrArg (· ++ u.bytes) hd₁.binary

end ClientOutput.Framed

end NetworkTables
