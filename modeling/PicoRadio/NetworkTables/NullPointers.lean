import PicoRadio.NetworkTables.Operations

/-!
# Null pointers in the maps

The maps of the server hold pointers, and the loops over them follow every pointer they meet. An
operation that looks an unknown uid or topic up with the subscript operator stores a null pointer in
a map; the operation itself tests for it, but the next loop over the map follows it.

In a run whose operations name only uids and topics that are known, no pointer is ever null.
-/

namespace NetworkTables

/-- Every entry of the four kinds of maps is a pointer that is not null. -/
structure Instance.NonNull (st : Instance) : Prop where
  topics : ∀ name, st.topics.lookup name ≠ some none
  clients : ∀ guid, st.clients.lookup guid ≠ some .null
  subscriptions : st.AllClients fun _ _ d ↦ ∀ uid, d.subscriptions.lookup uid ≠ some none
  publishers : st.AllClients fun _ _ d ↦ ∀ uid, d.publishers.lookup uid ≠ some none

theorem Instance.Rooted.nonNull {st : Instance} (h : st.Rooted) : st.NonNull where
  topics := h.topics
  clients := h.clients
  subscriptions := ⟨fun guid d hd ↦ (h.data.1 guid d hd).subscriptions, h.data.2.subscriptions⟩
  publishers := ⟨fun guid d hd ↦ (h.data.1 guid d hd).publishers, h.data.2.publishers⟩

/-- In a run whose operations look up what is known, every pointer leads somewhere in every state
reached. -/
theorem run_rooted [FloatCodec] {start : Env} {events : List (Env × Event)}
    (hknown : ∀ st, startServer start = .ok st →
      Guarded step (Event.Meets fun _ st op ↦ op.Known st) st events) :
    Ends (run start events) Instance.Rooted fun e ↦ e.isNull = false := by
  have hchanges := run_changes False True True (.inl trivial) fun st hst ↦
    (hknown st hst).mono fun _ _ ↦
      Event.Meets.mono fun _ _ _ h ↦ ⟨.inr h, .inl trivial, .inl trivial⟩
  exact hchanges.mono (fun st hst ↦ hst.rooted id Instance.initial_rooted)
    fun e he ↦ he.not_isNull id Instance.initial_rooted

/-- In a run whose operations look up what is known, no pointer is null in any state reached, and no
null pointer is followed on the way. -/
theorem run_nonNull [FloatCodec] (start : Env) (events : List (Env × Event))
    (hknown : ∀ st, startServer start = .ok st →
      Guarded step (Event.Meets fun _ st op ↦ op.Known st) st events) :
    Ends (run start events) Instance.NonNull fun e ↦ e.isNull = false :=
  (run_rooted hknown).imp fun _ hst ↦ hst.nonNull

set_option maxRecDepth 4000 in
/-- A client connects, subscribes and publishes, and gives its subscription up; the local client
publishes, and gives its publisher up. -/
theorem run_nonNull_sample :
    Ends (@run .fractional {} [({}, .connect (.sample 1 "a")),
        ({}, .text 1 [.subscribe [ascii "/x"] 1 .DEFAULT, .publish (ascii "/y") 2 .int {}]),
        ({}, .text 1 [.unsubscribe 1]), ({}, .publish (ascii "/x") 2 .int {}), ({}, .unpublish 2)])
      Instance.NonNull fun e ↦ e.isNull = false := by
  have hsubscribed : Ends (@run .fractional {} [({}, .connect (.sample 1 "a")),
        ({}, .text 1 [.subscribe [ascii "/x"] 1 .DEFAULT, .publish (ascii "/y") 2 .int {}])])
      (fun s ↦ ∃ d ∈ s.remote 1, (d.subscriptions.lookup 1).join.isSome) fun _ ↦ False := by
    decide +kernel
  have hpublished : Ends (@run .fractional {} [({}, .connect (.sample 1 "a")),
        ({}, .text 1 [.subscribe [ascii "/x"] 1 .DEFAULT, .publish (ascii "/y") 2 .int {}]),
        ({}, .text 1 [.unsubscribe 1]), ({}, .publish (ascii "/x") 2 .int {})])
      (fun s ↦ (s.thisClient.publishers.lookup 2).join.isSome) fun _ ↦ False := by
    decide +kernel
  refine @run_nonNull .fractional _ _ fun st hst ↦ ⟨fun _ _ _ _ ↦ trivial, fun s₁ h₁ ↦
    ⟨fun _ _ ↦ Guarded.of_forall_mem (fun op hop _ ↦ ?_) s₁, fun s₂ h₂ ↦
      ⟨fun _ _ ↦ ⟨fun d hd ↦ ?_, fun _ _ ↦ ⟨trivial, fun _ _ ↦ trivial⟩⟩, fun s₃ h₃ ↦
        ⟨fun _ ↦ trivial, fun s₄ h₄ ↦ ⟨fun _ ↦ ?_, fun _ _ ↦ trivial⟩⟩⟩⟩⟩
  · simp only [List.map_cons, List.map_nil, List.cons_append, List.nil_append, List.mem_cons,
      List.not_mem_nil, or_false] at hop
    rcases hop with rfl | rfl | rfl <;> trivial
  · have hrun₂ := @run_concat .fractional _ _ _ _ _ (@run_singleton .fractional _ _ _ _ hst h₁) h₂
    obtain ⟨d', hd', hsub⟩ := hsubscribed.of_ok hrun₂
    obtain rfl : d = d' := by
      rcases hd with ⟨hself, -⟩ | hremote
      · rw [Instance.remote_eq_some.1 hd'] at hself
        cases hself
      · exact Option.some.inj ((Instance.remote_eq_some.2 hremote).symm.trans hd')
    obtain ⟨sub, hsub⟩ := Option.isSome_iff_exists.1 hsub
    exact ⟨sub, Option.join_eq_some_iff.1 hsub⟩
  · have hrun₂ := @run_concat .fractional _ _ _ _ _ (@run_singleton .fractional _ _ _ _ hst h₁) h₂
    have hrun₄ := @run_concat .fractional _ _ _ _ _ (@run_concat .fractional _ _ _ _ _ hrun₂ h₃) h₄
    obtain ⟨pub, hpub⟩ := Option.isSome_iff_exists.1 (hpublished.of_ok hrun₄)
    exact ⟨pub, Option.join_eq_some_iff.1 hpub⟩

/-- A client unsubscribes from a uid it does not use. The null pointer this stores is followed when
the local client publishes a topic. -/
theorem unsubscribe_unknown_null :
    ¬∀ (codec : FloatCodec) (start : Env) (events : List (Env × Event)),
      Ends (@run codec start events) Instance.NonNull fun e ↦ e.isNull = false := by
  intro h
  have hnull : Ends (@run .fractional {} [({}, .connect (.sample 1 "a")),
      ({}, .text 1 [.unsubscribe 7]), ({}, .publish (ascii "/x") 1 .int {})])
      (fun _ ↦ False) (· = .nullDeref) := by
    decide +kernel
  refine (h .fractional {} _).incompatible hnull (fun _ _ ↦ id) ?_
  rintro e he rfl
  cases he

end NetworkTables
