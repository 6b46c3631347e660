import PicoRadio.NetworkTables.ReceivedValues

/-!
# Programs that send no values

Announcements, properties and the refreshing of the server's own topics are silent, and so is every
handler that is made of them. What a client subscribes to or publishes may change in them, and so
may the topics.

## How the silence is seen

No lemma here looks at the history of a client. A program is cut into lookups, changes of one client
and loops, and each of these keeps `Instance.received`: a lookup changes nothing, a change of one
client keeps it if the data of that client does (`received_setClient`), and a loop if every turn
does (`Silent.foldlM`). What the topics become does not matter, so a publication is silent although
it makes topics.

## What is left

Two programs are not silent. `sendTopicUpdate` sends a value to those who receive it, and
`publishInitialValues` sends the present values to a new subscriber. `Feeds` is about these.
-/

namespace NetworkTables

section

variable {env : Env} {st : Instance} {guid : Guid} {d : ClientData}

/-! ### Telling clients something -/

/-- The local client is told of a topic, and no other client of anything. -/
theorem received_announceTopicSelf (topic : Topic) :
    (announceTopicSelf env st topic).1.received = st.received := by
  rw [announceTopicSelf]
  split <;> exact received_eq rfl

/-- An announcement puts a text message into a cache, which is no value. -/
theorem announceTopicBody_silent {topic : Topic} (s : Instance × Bool) (guid : Guid) :
    Silent s.1 (announceTopicBody env topic s guid) Prod.fst := by
  rw [announceTopicBody]
  refine .client fun d hd ↦ Ends.bind_any fun sub ↦ ?_
  split
  · exact Ends.ok_iff.2 rfl
  · split
    · exact Ends.ok_iff.2 (received_announceTopicSelf topic)
    · exact Ends.ok_iff.2 (received_setClient hd (by simp))

theorem announceTopic_silent (topic : Topic) :
    Silent st (announceTopic env st topic) Prod.fst :=
  .foldlM announceTopicBody_silent rfl

/-- The publisher gets a message of its own, the others the one of an announcement. -/
theorem announceTopicToPublisher_silent (publisherGuid : Guid) (pubuid : Int32) (topic : Topic) :
    Silent st (announceTopicToPublisher env publisherGuid pubuid st topic) Prod.fst := by
  refine .foldlM (fun s guid ↦ ?_) rfl
  rw [announceTopicToPublisherBody]
  split
  · exact .client fun d hd ↦ Ends.ok_iff.2 (received_setClient hd (by simp))
  · exact announceTopicBody_silent s guid

/-- The local client hears of the cached topics. -/
theorem announceCachedTopicsSelf_silent : Silent st (announceCachedTopicsSelf env st) id := by
  refine .foldlM (fun s name ↦ ?_) rfl
  split
  · exact Ends.ok_iff.2 rfl
  · trivial
  · split
    · refine Ends.bind_any fun sub ↦ Ends.ok_iff.2 ?_
      split
      · exact received_announceTopicSelf _
      · rfl
    · exact Ends.ok_iff.2 rfl

/-- A client hears of the cached topics. -/
theorem announceCachedTopics_silent : Silent st (announceCachedTopics env st guid) id := by
  rw [announceCachedTopics]
  refine Ends.bind_any fun _ ↦ Silent.foldlM (fun s name ↦ ?_) rfl
  split
  · exact Ends.ok_iff.2 rfl
  · trivial
  · split
    · refine .client fun d hd ↦ Ends.bind_any fun sub ↦ Ends.ok_iff.2 ?_
      split
      · exact received_setClient hd (by simp)
      · rfl
    · exact Ends.ok_iff.2 rfl

/-- A change of properties is a text message. -/
theorem updateTopicProperties_silent (topic : Topic) (updaterGuid : Option Guid) :
    Silent st (updateTopicProperties env st topic updaterGuid) id := by
  refine .foldlM (fun s guid ↦ .client fun d hd ↦ Ends.bind_any fun sub ↦ Ends.ok_iff.2 ?_) rfl
  split
  · rfl
  · split
    · rw [sendPropertyUpdateSelf]
      split <;> exact received_eq rfl
    · exact received_setClient hd (by simp)

/-- A cache is flushed, which puts nothing into it. -/
theorem flushAll_silent {flush : ClientData → ClientData}
    (hflush : ∀ (d : ClientData) name, (flush d).received name = d.received name) :
    Silent st (flushAll env flush st) id := by
  refine .foldlM (fun s guid ↦ ?_) rfl
  split
  · exact Ends.ok_iff.2 rfl
  · exact .client fun d hd ↦ Ends.ok_iff.2 (received_setClient hd (hflush d))

theorem flushText_silent : Silent st (flushText env st) id :=
  flushAll_silent fun d name ↦ d.received_flushText _ name

theorem flushBinary_silent : Silent st (flushBinary env st) id :=
  flushAll_silent fun d name ↦ d.received_flushBinary _ name

/-- The local client is told by its callback. -/
theorem sendTopicUpdateSelf_silent (topic : Topic) (time : UInt64) :
    Silent st (sendTopicUpdateSelf env st topic time) Prod.fst := by
  rw [sendTopicUpdateSelf]
  split
  · exact Ends.ok_iff.2 rfl
  · dsimp only
    split
    · exact Ends.ok_iff.2 (received_eq rfl)
    · trivial

theorem publishInitialValuesSelf_silent : Silent st (publishInitialValuesSelf env st) id := by
  refine .foldlM (fun s name ↦ ?_) rfl
  split
  · exact Ends.ok_iff.2 rfl
  · split
    · exact Ends.ok_iff.2 rfl
    · refine Ends.bind_any fun sub ↦ ?_
      split
      · exact Ends.ok_iff.2 rfl
      · split
        · exact Ends.map (sendTopicUpdateSelf_silent _ _)
        · trivial
        · trivial

variable [FloatCodec]

/-! ### The server's own topics -/

/-- A value of the server's own topics is broadcast, and these are left out. -/
theorem storeMetaTopic_silent {name : Str} (hmeta : name.isMeta) (packed : Bytes) :
    Silent st (storeMetaTopic env st name packed) id := by
  rw [storeMetaTopic]
  split
  · next t ht =>
    refine Ends.map ((sendTopicUpdate_ends (K := .all) _ _).mono (fun r hr ↦ ?_) fun _ _ ↦ trivial)
    funext guid name'
    cases hmeta' : name'.isMeta with
    | true => exact (received_of_isMeta hmeta').trans (received_of_isMeta hmeta').symm
    | false =>
      refine hr.1.received_of_ne fun heq ↦ ?_
      have hname : name = name' := t.2.symm.trans heq
      rw [hname, hmeta'] at hmeta
      cases hmeta
  · trivial
  · trivial

theorem updateClientsMetaTopic_silent : Silent st (updateClientsMetaTopic env st) id :=
  Ends.bind_any fun _ ↦ storeMetaTopic_silent rfl _

theorem updateServerSubMetaTopic_silent : Silent st (updateServerSubMetaTopic env st) id :=
  Ends.bind_any fun _ ↦ storeMetaTopic_silent rfl _

theorem updateServerPubMetaTopic_silent : Silent st (updateServerPubMetaTopic env st) id :=
  Ends.bind_any fun _ ↦ storeMetaTopic_silent rfl _

theorem updateClientSubMetaTopic_silent : Silent st (updateClientSubMetaTopic env st guid) id :=
  Ends.bind_any fun _ ↦ Ends.bind_any fun _ ↦ storeMetaTopic_silent rfl _

theorem updateClientPubMetaTopic_silent : Silent st (updateClientPubMetaTopic env st guid) id :=
  Ends.bind_any fun _ ↦ Ends.bind_any fun _ ↦ storeMetaTopic_silent rfl _

theorem updateTopicSubMetaTopic_silent (name : Str) :
    Silent st (updateTopicSubMetaTopic env st name) id :=
  Ends.bind_any fun _ ↦ storeMetaTopic_silent rfl _

theorem updateTopicPubMetaTopic_silent (name : Str) :
    Silent st (updateTopicPubMetaTopic env st name) id :=
  Ends.bind_any fun _ ↦ storeMetaTopic_silent rfl _

/-- All the topics a subscription matches have their records stored anew. -/
theorem updateTopicSubMetaTopics_silent (sub : Subscription) :
    Silent st (updateTopicSubMetaTopics env st sub) id := by
  refine .foldlM (fun s name ↦ ?_) rfl
  split
  · exact updateTopicSubMetaTopic_silent name
  · exact Ends.ok_iff.2 rfl

/-! ### Publications -/

omit [FloatCodec] in
/-- A topic is made, and nobody hears of it yet. -/
theorem received_getOrCreateTopic (name : Str) (value : NTDataValue)
    (properties : TopicProperties) :
    (getOrCreateTopic st name value properties).1.received = st.received := by
  rw [getOrCreateTopic]
  split <;> exact received_eq rfl

omit [FloatCodec] in
theorem publishMetaTopic_silent (name : Str) :
    Silent st (publishMetaTopic env st name) Prod.fst := by
  refine .after (received_getOrCreateTopic name metaValue metaProperties) ?_
  rw [publishMetaTopic]
  split
  · exact announceTopic_silent _
  · trivial

theorem publishMetaTopicsOf_silent (name : Str) :
    Silent st (publishMetaTopicsOf env st name) Prod.fst := by
  refine (publishMetaTopic_silent _).bind fun r ↦ ?_
  split
  · refine (publishMetaTopic_silent _).bind fun r ↦ ?_
    split
    · refine (updateTopicSubMetaTopic_silent name).bind fun s ↦ ?_
      exact (updateTopicPubMetaTopic_silent name).bind fun s ↦ Ends.ok_iff.2 rfl
    · exact Ends.ok_iff.2 rfl
  · exact Ends.ok_iff.2 rfl

/-- A publication is silent whichever way the topic is announced. -/
theorem publishTopicWith_silent {announce : Instance → Topic → Except Fault (Instance × Bool)}
    (hannounce : ∀ s topic, Silent s (announce s topic) Prod.fst) (name : Str) (value : NTDataValue)
    (properties : TopicProperties) :
    Silent st (publishTopicWith env announce st name value properties) Prod.fst := by
  refine .after (received_getOrCreateTopic name value properties) ?_
  rw [publishTopicWith]
  split
  · trivial
  · refine (hannounce _ _).bind fun r ↦ ?_
    split
    · split
      · exact Ends.ok_iff.2 rfl
      · exact publishMetaTopicsOf_silent name
    · exact Ends.ok_iff.2 rfl

theorem publishTopicToPublisher_silent (name : Str) (value : NTDataValue) (publisherGuid : Guid)
    (pubuid : Int32) (properties : TopicProperties) : Silent st
      (publishTopicToPublisher env st name value publisherGuid pubuid properties) Prod.fst :=
  publishTopicWith_silent (fun _ topic ↦ announceTopicToPublisher_silent _ _ topic) _ _ _

/-- The id is read by the local client, and an entry for it may be made. -/
theorem publishTopicSelfSync_silent (name : Str) (value : NTDataValue)
    (properties : TopicProperties) :
    Silent st (publishTopicSelfSync env st name value properties) Prod.fst := by
  refine (publishTopicWith_silent (fun _ topic ↦ announceTopic_silent topic) _ _ _).bind fun r ↦ ?_
  split
  · split
    · exact Ends.ok_iff.2 (received_eq rfl)
    · trivial
    · trivial
  · exact Ends.ok_iff.2 rfl

/-! ### Handlers -/

omit [FloatCodec] in
/-- What a client subscribes to is no value. -/
theorem received_setSubscriptions (hd : st.Behind guid d)
    (subscriptions : AList fun _ : Int32 ↦ Option Subscription) :
    (st.setSubscriptions guid d subscriptions).received = st.received :=
  received_setClient hd fun _ ↦ rfl

omit [FloatCodec] in
theorem received_setPublishers (hd : st.Behind guid d)
    (publishers : AList fun _ : Int32 ↦ Option Publisher) :
    (st.setPublishers guid d publishers).received = st.received :=
  received_setClient hd fun _ ↦ rfl

/-- The values that a new subscriber is to get are sent at the end of the frame. -/
theorem handleSubscribe_silent (topics : List Str) (subuid : Int32)
    (options : SubscriptionOptions) :
    Silent st (handleSubscribe env guid topics subuid options st) id := by
  refine .client fun d hd ↦ .after (received_setSubscriptions hd
    (d.subscriptions.insert subuid (some ⟨subuid, topics, options⟩))) ?_
  refine updateClientSubMetaTopic_silent.bind fun s ↦ ?_
  exact (updateTopicSubMetaTopics_silent _).bind fun s ↦ announceCachedTopics_silent

/-- A new topic is published, and one that exists is announced to its publisher. -/
theorem publishOrAnswer_silent (name : Str) (pubuid : Int32) (type : NTDataType)
    (properties : TopicProperties) :
    Silent st (publishOrAnswer env guid name pubuid type properties st) id := by
  rw [publishOrAnswer]
  split
  · exact Ends.map (publishTopicToPublisher_silent _ _ _ _ _)
  · trivial
  · exact .client fun d hd ↦ Ends.ok_iff.2 (received_setClient hd (by simp))

/-- The publisher is remembered, the topic published and the records stored. -/
theorem handlePublish_silent (name : Str) (pubuid : Int32) (type : NTDataType)
    (properties : TopicProperties) :
    Silent st (handlePublish env guid name pubuid type properties st) id := by
  refine .client fun d hd ↦ .after
    (received_setPublishers hd (d.publishers.insert pubuid (some ⟨pubuid, name⟩))) ?_
  refine (publishOrAnswer_silent name pubuid type properties).bind fun s ↦ ?_
  exact updateClientPubMetaTopic_silent.bind fun s ↦ updateTopicPubMetaTopic_silent name

theorem handleUnsubscribe_silent (subuid : Int32) :
    Silent st (handleUnsubscribe env guid subuid st) id := by
  refine .client fun d hd ↦ ?_
  split
  · refine .after (received_setSubscriptions hd (d.subscriptions.erase subuid)) ?_
    exact updateClientSubMetaTopic_silent.bind fun s ↦ updateTopicSubMetaTopics_silent _
  · exact Ends.ok_iff.2 (received_setSubscriptions hd _)

theorem handleUnpublish_silent (pubuid : Int32) :
    Silent st (handleUnpublish env guid pubuid st) id := by
  refine .client fun d hd ↦ ?_
  split
  · refine .after (received_setPublishers hd (d.publishers.erase pubuid)) ?_
    exact updateClientPubMetaTopic_silent.bind fun s ↦ updateTopicPubMetaTopic_silent _
  · exact Ends.ok_iff.2 (received_setPublishers hd _)

omit [FloatCodec] in
theorem handleSetProperties_silent (name : Str) (persistent retained cached : Option Bool) :
    Silent st (handleSetProperties env guid name persistent retained cached st) id := by
  rw [handleSetProperties]
  split
  · exact .after (received_eq rfl) (updateTopicProperties_silent _ _)
  · exact Ends.ok_iff.2 rfl
  · exact Ends.ok_iff.2 (received_eq rfl)

/-- The messages of clients send no values; they wait for the end of the frame. -/
theorem handleMessage_silent (m : ClientMessage) : Silent st (handleMessage env guid m st) id := by
  cases m with
  | subscribe topics subuid options => exact handleSubscribe_silent topics subuid options
  | publish name pubuid type properties => exact handlePublish_silent name pubuid type properties
  | unsubscribe subuid => exact handleUnsubscribe_silent subuid
  | unpublish pubuid => exact handleUnpublish_silent pubuid
  | setproperties name persistent retained cached =>
    exact handleSetProperties_silent name persistent retained cached
  | unknown => exact Ends.ok_iff.2 rfl

/-- The values the local client is told go to its callback. -/
theorem localSubscribe_silent (topics : List Str) (subuid : Int32)
    (options : SubscriptionOptions) :
    Silent st (localSubscribe env topics subuid options st) id := by
  refine .after (received_eq rfl) (updateServerSubMetaTopic_silent.bind fun s ↦ ?_)
  exact announceCachedTopicsSelf_silent.bind fun s ↦ publishInitialValuesSelf_silent

theorem localUnsubscribe_silent (subuid : Int32) :
    Silent st (localUnsubscribe env subuid st) id := by
  rw [localUnsubscribe]
  split
  · exact .after (received_eq rfl) updateServerSubMetaTopic_silent
  · exact Ends.ok_iff.2 (received_eq rfl)

theorem publishOrLookUp_silent (name : Str) (type : NTDataType) (properties : TopicProperties) :
    Silent st (publishOrLookUp env name type properties st) Prod.fst := by
  rw [publishOrLookUp]
  split
  · exact publishTopicSelfSync_silent _ _ _
  · trivial
  · exact Ends.ok_iff.2 (received_eq rfl)

theorem localPublish_silent (name : Str) (pubuid : Int32) (type : NTDataType)
    (properties : TopicProperties) :
    Silent st (localPublish env name pubuid type properties st) Prod.fst := by
  exact .after (received_eq rfl) ((publishOrLookUp_silent name type properties).bind fun r ↦
    updateServerPubMetaTopic_silent.bind fun s ↦ Ends.ok_iff.2 rfl)

theorem localUnpublish_silent (pubuid : Int32) : Silent st (localUnpublish env pubuid st) id := by
  rw [localUnpublish]
  split
  · exact .after (received_eq rfl) updateServerPubMetaTopic_silent
  · exact Ends.ok_iff.2 (received_eq rfl)

omit [FloatCodec] in
theorem localSetProperties_silent (name : Str) (update : TopicProperties) :
    Silent st (localSetProperties env name update st) id := by
  rw [localSetProperties]
  split
  · exact .after (received_eq rfl) (updateTopicProperties_silent _ _)
  · exact Ends.ok_iff.2 rfl
  · exact Ends.ok_iff.2 (received_eq rfl)

end

end NetworkTables
