import PicoRadio.NetworkTables.BrokerOperations

/-!
# The values a client is sent

What a client with a connection is sent of a topic is the list of the values in its history under
the topic's name (`Instance.received`). Values leave the server in two places only. A broadcast
sends the value that was just stored, and `publishInitialValues` sends the present value to a client
that has not been sent any (`ClientOutput.Fed`). Everything else that tells clients something is
**silent** but for the server's own topics, which are left out here.

## Two accounts of one thing

A value that is sent is in the history of the client as an event, with the topic and the bytes. What
the server remembers is one flag: `initialPublish` of the entry, which is set when a value is sent.
`Fed` is the link between the two: the flag is set if and only if the history has a value of the
topic. It is kept by everything a client may do (`Changes.fed`), and what `Feeds` proves rests on
it.

## The server's own topics

A meta topic is broadcast whenever its list changes, by programs that are about something else. So
`Instance.received` is empty for these names by definition (`received_of_isMeta`), and a program is
silent whatever it stores in them.
-/

/-- What a value looks like in an update. -/
def NTDataValue.sent [FloatCodec] (v : NTDataValue) : NTDataType × Bytes :=
  (v.getAPIType, v.pack)

namespace NetworkTables

/-! ### What a client has been sent -/

/-- The value of the topic that an event sends: its type and its bytes. -/
def ClientEvent.valueOf (name : Str) : ClientEvent → Option (NTDataType × Bytes)
  | update topic u => if topic = name then some (u.type, u.value) else none
  | text _ | sentText _ | sentBinary _ | announcedCallback _ | updateCallback _ _ _
  | propertiesCallback _ _ => none

/-- The values of a topic that a client was sent, in order. -/
def ClientOutput.received (d : ClientOutput) (name : Str) : List (NTDataType × Bytes) :=
  d.history.filterMap (·.valueOf name)

/-- Whether the client counts as told a value of the topic. -/
def ClientOutput.published (d : ClientOutput) (name : Str) : Bool :=
  (d.topicData.lookup name).any (·.initialPublish)

/-- The client counts as told a value of just those topics that it was sent a value of. -/
def ClientOutput.Fed (d : ClientOutput) : Prop :=
  ∀ name, d.published name = !(d.received name).isEmpty

namespace ClientData

/-- The values are read off the history alone. -/
theorem received_of_history {d d' : ClientOutput} (h : d'.history = d.history) (name : Str) :
    d'.received name = d.received name := by
  rw [ClientOutput.received, ClientOutput.received, h]

/-- One more event, and one more value if the event is one. -/
theorem received_record (d : ClientData) (e : ClientEvent) (name : Str) :
    (d.record e).received name = d.received name ++ (e.valueOf name).toList := by
  show (d.history ++ [e]).filterMap _ = _
  rw [List.filterMap_append]
  cases he : e.valueOf name with
  | none => rw [List.filterMap_cons_none he]; rfl
  | some v => rw [List.filterMap_cons_some he]; rfl

/-- An event that is no value of the topic adds nothing. -/
theorem received_record_of_none (d : ClientData) {e : ClientEvent} {name : Str}
    (he : e.valueOf name = none) : (d.record e).received name = d.received name := by
  rw [received_record, he]
  exact List.append_nil _

@[simp]
theorem received_flushText (d : ClientData) (n : ℕ) (name : Str) :
    (d.flushText n).received name = d.received name := by
  rw [flushText]
  split
  · exact d.received_record_of_none rfl
  · rfl

@[simp]
theorem received_flushBinary (d : ClientData) (n : ℕ) (name : Str) :
    (d.flushBinary n).received name = d.received name := by
  rw [flushBinary]
  split
  · exact d.received_record_of_none rfl
  · rfl

/-- A text message is no value. It may hand over the text cache before it. -/
@[simp]
theorem received_appendText (d : ClientData) (m : TextMessage) (name : Str) :
    (d.appendText m).received name = d.received name := by
  have hrecord : ((d.flushText m.text.length).record (.text m)).received name = _ :=
    received_record_of_none _ rfl
  exact hrecord.trans (received_flushText d _ name)

@[simp]
theorem received_assignId (d : ClientData) (topic name : Str) :
    (d.assignId topic).received name = d.received name :=
  received_of_history (d.history_assignId topic) name

@[simp]
theorem received_announceTopic (d : ClientData) (topic : Topic) (name : Str) :
    (d.announceTopic topic).received name = d.received name := by
  rw [announceTopic]
  split
  · rfl
  · exact (received_appendText _ _ name).trans (received_assignId d _ name)

@[simp]
theorem received_announceTopicToPublisher (d : ClientData) (topic : Topic) (pubuid : Int32)
    (name : Str) : (d.announceTopicToPublisher topic pubuid).received name = d.received name :=
  (received_appendText _ _ name).trans (received_assignId d _ name)

@[simp]
theorem received_sendPropertyUpdate (d : ClientData) (topic : Topic) (ack : Bool) (name : Str) :
    (d.sendPropertyUpdate topic ack).received name = d.received name :=
  received_appendText d _ name

/-- This is the function that sends a value, and it sends one. -/
theorem received_sendTopicUpdate [FloatCodec] (d : ClientData) (topic : Topic) (time : UInt64)
    (name : Str) : (d.sendTopicUpdate topic time).received name =
      d.received name ++ if topic.name = name then [topic.value.sent] else [] := by
  let u := d.topicUpdate topic time
  let d₀ : ClientData := { d with
    topicData := d.topicData.insert topic.name { id := u.id, initialPublish := true } }
  have hrecord := (d₀.flushBinary u.bytes.length).received_record (.update topic.name u) name
  rw [received_flushBinary] at hrecord
  refine hrecord.trans (congrArg (d.received name ++ ·) ?_)
  rw [ClientEvent.valueOf]
  split <;> rfl

end ClientData

namespace ClientOutput.Fed

variable {d d' : ClientData}

/-- The link speaks of the flags and the values. -/
theorem of_eq (h : d.Fed) (hpublished : ∀ name, d'.published name = d.published name)
    (hreceived : ∀ name, d'.received name = d.received name) : d'.Fed := by
  intro name
  rw [hpublished, hreceived, h name]

/-- The entries stay the same, with their flags. -/
theorem of_topicData (h : d.Fed) (hdata : d'.topicData = d.topicData)
    (hreceived : ∀ name, d'.received name = d.received name) : d'.Fed :=
  h.of_eq (fun name ↦ by rw [published, published, hdata]) hreceived

/-- A topic that is numbered has not been sent. -/
theorem published_assignId (d : ClientData) (topic name : Str) :
    (d.assignId topic).published name = d.published name := by
  by_cases hmem : topic ∈ d.topicData
  · rw [ClientData.assignId_of_mem hmem]
  · rw [ClientData.assignId_of_not_mem hmem, published, published, AList.lookup_insert_ite]
    split
    · next heq =>
      rw [heq, AList.lookup_eq_none.2 hmem]
      rfl
    · rfl

/-- Numbering a topic sends nothing. -/
theorem assignId (h : d.Fed) (topic : Str)
    (hdata : d'.topicData = (d.assignId topic).topicData)
    (hreceived : ∀ name, d'.received name = d.received name) : d'.Fed := by
  refine h.of_eq (fun name ↦ ?_) hreceived
  rw [← published_assignId d topic, published, published, hdata]

/-- The first value and every other one. -/
theorem sendTopicUpdate [FloatCodec] (h : d.Fed) (topic : Topic) (time : UInt64) :
    (d.sendTopicUpdate topic time).Fed := by
  intro name
  have hname := h name
  rw [published] at hname
  rw [published, ClientData.topicData_sendTopicUpdate, AList.lookup_insert_ite,
    ClientData.received_sendTopicUpdate]
  obtain rfl | hne := eq_or_ne topic.name name
  · rw [if_pos rfl, if_pos rfl]
    cases d.received topic.name <;> rfl
  · rw [if_neg hne.symm, if_neg hne, List.append_nil, hname]

end ClientOutput.Fed

/-- Every move of a client keeps it. -/
theorem ClientMove.fed [FloatCodec] {K : Allow} {topics : Topics} {self : Bool} {d d' : ClientData}
    (h : ClientMove K topics self d d') (hd : d.Fed) : d'.Fed := by
  cases h with
  | announce => exact hd.assignId _ (d.topicData_announceTopic _).1 (by simp)
  | @announceToPublisher _ _ _ t => exact hd.assignId t.1.name (by simp) (by simp)
  | announceSelf => exact hd.assignId _ rfl (by simp)
  | update _ _ time => exact hd.sendTopicUpdate _ time
  | properties | flushText | flushBinary => exact hd.of_topicData (by simp) (by simp)
  | callback e he =>
    refine hd.of_topicData rfl fun name ↦ d.received_record_of_none ?_
    cases e with
    | text | update | sentText | sentBinary => cases he
    | announcedCallback | updateCallback | propertiesCallback => rfl
  | @unnumbered _ name' =>
    refine hd.of_eq (fun name ↦ ?_) fun _ ↦ rfl
    rw [ClientOutput.published, ClientOutput.published, AList.lookup_subscript]
    split
    · next heq =>
      rw [heq]
      cases d.topicData.lookup name' <;> rfl
    · rfl
  | subscribe | unsubscribe | publish | unpublish | nullSubscription | nullPublisher =>
    exact hd.of_topicData rfl fun _ ↦ rfl

/-- The same of every client. -/
def Instance.Fed (st : Instance) : Prop :=
  st.AllClients fun _ _ d ↦ d.Fed

theorem Changes.fed [FloatCodec] {K : Allow} {st s : Instance} (h : Changes K st s)
    (hst : st.Fed) : s.Fed :=
  h.allClients (fun hm hd ↦ hm.fed hd) (fun _ hd ↦ hd) (fun _ _ _ _ ↦ rfl) hst

/-! ### What a state has sent -/

/-- The values of a topic that the client with this connection was sent. The server's own topics are
left out. -/
def Instance.received (st : Instance) (guid : Guid) (name : Str) : List (NTDataType × Bytes) :=
  if name.isMeta then [] else (st.remote guid).elim [] (·.received name)

section

variable {st s : Instance} {guid : Guid} {d d' : ClientData} {name : Str}

theorem received_of_isMeta (hmeta : name.isMeta) : st.received guid name = [] :=
  if_pos hmeta

theorem received_of_remote (hd : st.clients.lookup guid = some (.remote d))
    (hmeta : name.isMeta = false) : st.received guid name = d.received name := by
  rw [Instance.received, if_neg (by simp [hmeta]), Instance.remote_eq_some.2 hd, Option.elim_some]

/-- Only the data behind the guid are looked at. -/
theorem received_congr (h : s.clients.lookup guid = st.clients.lookup guid) (name : Str) :
    s.received guid name = st.received guid name := by
  rw [Instance.received, Instance.received, Instance.remote, Instance.remote, h]

/-- The topics and the local client are no part of it. -/
theorem received_eq (h : s.clients = st.clients) : s.received = st.received := by
  funext guid name
  exact received_congr (by rw [h]) name

/-- A client is told something else. -/
theorem received_setClient (hd : st.Behind guid d)
    (h : ∀ name, d'.received name = d.received name) :
    (st.setClient guid d').received = st.received := by
  rcases hd with ⟨hself, -⟩ | hd
  · rw [Instance.setClient_of_self hself]
    exact received_eq rfl
  · rw [Instance.setClient_of_remote hd]
    funext guid' name
    obtain rfl | hne := eq_or_ne guid' guid
    · cases hmeta : name.isMeta with
      | true => rw [received_of_isMeta hmeta, received_of_isMeta hmeta]
      | false =>
        rw [received_of_remote hd hmeta, received_of_remote (AList.lookup_insert _) hmeta, h]
    · exact received_congr (AList.lookup_insert_ne hne) name

/-- A broadcast sends values of its own topic only. -/
theorem Broadcast.received_of_ne [FloatCodec] {K : Allow} {topic : Topic} {time : UInt64}
    {complete : Prop} (h : Broadcast K topic time complete st s) (hne : topic.name ≠ name) :
    s.received guid name = st.received guid name := by
  by_cases hd : ∃ d, st.clients.lookup guid = some (.remote d)
  · obtain ⟨d, hd⟩ := hd
    rcases h.remote guid d hd with ⟨-, hd'⟩ | ⟨-, hd'⟩
    · cases hmeta : name.isMeta with
      | true => rw [received_of_isMeta hmeta, received_of_isMeta hmeta]
      | false =>
        rw [received_of_remote hd hmeta, received_of_remote hd' hmeta,
          ClientData.received_sendTopicUpdate, if_neg hne, List.append_nil]
    · exact received_congr (hd'.trans hd.symm) name
  · exact received_congr (h.other guid fun d hd' ↦ hd ⟨d, hd'⟩) name

end

/-! ### Silent programs -/

/-- The program sends no value of a topic, but for the server's own. -/
abbrev Silent {α : Type} (st : Instance) (x : Except Fault α) (final : α → Instance) : Prop :=
  Ends x (fun a ↦ (final a).received = st.received) fun _ ↦ True

namespace Silent

variable {α β γ : Type} {st s : Instance} {x : Except Fault α} {final : α → Instance}
  {f : α → Except Fault β} {final' : β → Instance}

/-- Silence goes on if every continuation is silent. -/
theorem bind (hx : Silent st x final) (hf : ∀ a, Silent (final a) (f a) final') :
    Silent st (x >>= f) final' :=
  Ends.bind hx fun a ha ↦ (hf a).imp fun _ hb ↦ hb.trans ha

/-- Nothing has been sent before the program starts. -/
theorem after (h : s.received = st.received) (hx : Silent s x final) : Silent st x final :=
  hx.imp fun _ ha ↦ ha.trans h

/-- A loop is silent if every turn is. -/
theorem foldlM {f : α → γ → Except Fault α} {l : List γ}
    (hf : ∀ a c, Silent (final a) (f a c) final) {a : α} (ha : final a = st) :
    Silent st (l.foldlM f a) final :=
  Ends.foldlM (I := fun a ↦ (final a).received = st.received)
    (fun c _ a h ↦ (hf a c).imp fun _ ha' ↦ ha'.trans h) (by rw [ha])

/-- The pointer of a client is followed. -/
theorem client {f : ClientData → Except Fault β} {guid : Guid} {fault : Fault}
    (hf : ∀ d, st.Behind guid d → Silent st (f d) final') :
    Silent st (st.client guid fault >>= f) final' :=
  ((st.client_ends guid fault).mono (fun _ ↦ id) fun _ _ ↦ trivial).bind hf

end Silent

end NetworkTables
