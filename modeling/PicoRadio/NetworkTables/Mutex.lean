import PicoRadio.NetworkTables.Operations

/-!
# The mutex

Every handler takes `stateMutex` at its start and gives it back at its end. Two of them return
early from a lookup of the client, with the mutex taken: the handler of a lost connection and the
binary case of `_handleFrame`. A connection that only measures round trips is never entered into
the map of clients, so it reaches both.

The mutex is free between two events exactly as long as every event that takes it this way is about
a client in the map.
-/

namespace NetworkTables

/-- A lost connection is that of a client, and so is one that sends a value. -/
def Event.FromClient (st : Instance) (e : Env × Event) : Prop :=
  match e.2 with
  | disconnect guid => guid ∈ st.clients
  | binary guid messages => guid ∈ st.clients ∨ ∀ m ∈ messages, m.id = -1
  | connect _ | removeConnection _ | text _ _ | subscribe _ _ _ | unsubscribe _ | publish _ _ _ _
  | unpublish _ | setProperties _ _ | updateTopic _ _ _ | flush => True

/-- The mutex is free. -/
abbrev Instance.Free (st : Instance) : Prop :=
  st.mutexFree = true

section

variable [FloatCodec] {env : Env} {st : Instance}

omit [FloatCodec] in
theorem withMutex_free (hfree : st.Free) (handler : Instance → Except Fault Instance) :
    Ends (st.withMutex handler) Instance.Free fun _ ↦ True := by
  rw [Instance.withMutex, if_pos hfree]
  exact Ends.bind (Ends.of_forall (Q := fun _ ↦ True) (fun _ ↦ trivial) fun _ ↦ trivial)
    fun _ _ ↦ rfl

theorem handleMessages_free {guid : Guid} {messages : List ClientMessage} (hfree : st.Free) :
    Ends (handleMessages env guid messages st) Instance.Free fun _ ↦ True := by
  rw [handleMessages_eq]
  exact Ends.foldlM (fun op _ s hs ↦ withMutex_free hs (op.run env)) hfree

/-- The values of a client: it stays in the map while they are handled. -/
theorem handleBinary_free {guid : Guid} {messages : List BinaryMessage} (hfree : st.Free)
    (hguid : guid ∈ st.clients) :
    Ends (handleBinary env guid messages st) Instance.Free fun _ ↦ True := by
  induction messages generalizing st with
  | nil => exact hfree
  | cons m messages ih =>
    unfold handleBinary
    split
    · exact ih hfree hguid
    · have hstep := (withMutex_free hfree ((Operation.valueUpdate guid m).run env)).and
        (opStep_mem_clients env rfl (show (Operation.valueUpdate guid m).Enabled st from hguid))
      exact Ends.bind (hstep.mono (fun _ ↦ id) fun _ _ ↦ trivial) fun s hs ↦
        ih hs.1 ((hs.2 guid).2 hguid)

/-- The values of anybody else: the first of them takes the mutex for good. -/
theorem handleBinary_unknown {guid : Guid} {messages : List BinaryMessage}
    (hguid : guid ∉ st.clients) :
    Ends (handleBinary env guid messages st)
      (fun s ↦ s.Free ↔ st.Free ∧ ∀ m ∈ messages, m.id = -1) fun _ ↦ False := by
  induction messages generalizing st with
  | nil => simp [handleBinary]
  | cons m messages ih =>
    unfold handleBinary
    split
    · next hrtt =>
      refine Ends.imp (ih hguid) fun s hs ↦ hs.trans ?_
      simp [hrtt]
    · next hrtt =>
      split
      · refine Ends.imp (ih hguid) fun s hs ↦ hs.trans ?_
        simp [hrtt]
      · next htaken => simp [htaken]

/-- An event gives the mutex back exactly if it is not one of those that return early. -/
theorem step_free_iff (hfree : st.Free) (e : Env × Event) :
    Event.FromClient st e ↔ Ends (step st e) Instance.Free fun _ ↦ True := by
  obtain ⟨env, e⟩ := e
  cases e with
  | disconnect guid =>
    show guid ∈ st.clients ↔ Ends (clientDisconnected env guid st) _ _
    rw [clientDisconnected, if_pos hfree]
    split
    · next hguid => exact iff_of_true hguid (withMutex_free hfree _)
    · next hguid => exact iff_of_false hguid (by simp [Instance.Free])
  | binary guid messages =>
    show (guid ∈ st.clients ∨ ∀ m ∈ messages, m.id = -1) ↔
      Ends (handleBinary env guid messages st) _ _
    by_cases hguid : guid ∈ st.clients
    · exact iff_of_true (.inl hguid) (handleBinary_free hfree hguid)
    · rw [or_iff_right hguid]
      have h : Ends (handleBinary env guid messages st) _ _ := handleBinary_unknown hguid
      cases hx : handleBinary env guid messages st with
      | ok s => exact ((h.of_ok hx).trans (and_iff_right hfree)).symm
      | error e => exact (h.of_error hx).elim
  | connect entry =>
    refine iff_of_true trivial ?_
    show Ends (clientConnected env entry st) _ _
    unfold clientConnected
    dsimp only
    split
    · exact hfree
    · refine Ends.bind (Ends.of_forall (Q := fun _ ↦ True) (fun _ ↦ trivial) fun _ ↦ trivial)
        fun name _ ↦ ?_
      have hfree : (st.register entry).Free := hfree
      exact withMutex_free hfree _
  | removeConnection guid => exact iff_of_true trivial hfree
  | text guid messages =>
    refine iff_of_true trivial ?_
    show Ends (handleText env guid messages st) _ _
    unfold handleText
    split
    · exact handleMessages_free hfree
    · exact hfree
  | publish name pubuid type properties =>
    exact iff_of_true trivial
      (withMutex_free hfree ((Operation.publish name pubuid type properties).run env))
  | subscribe | unsubscribe | unpublish | setProperties | updateTopic | flush =>
    exact iff_of_true trivial (withMutex_free hfree _)

theorem startServer_free (start : Env) :
    Ends (startServer start) Instance.Free fun _ ↦ True := by
  have hmoves : Follows .all .initial (startServer start) id _ :=
    startServer_follows (.inl trivial) (fun _ ↦ trivial) fun _ _ ↦ trivial
  refine hmoves.mono (fun s hs ↦ ?_) fun _ _ ↦ trivial
  have hframe := hs.1.frame
  rw [id] at hframe
  rw [hframe]
  rfl

/-- The mutex is free in every state of a run between two events if and only if every event in it
that is a lost connection or brings a value is about a client in the map. -/
theorem run_free_iff (start : Env) (events : List (Env × Event)) :
    (∀ st, startServer start = .ok st → Guarded step Event.FromClient st events) ↔
      ∀ n, Ends (run start (events.take n)) Instance.Free fun _ ↦ True := by
  unfold run
  have hstart := startServer_free start
  cases hx : startServer start with
  | error e => exact iff_of_true (fun st hst ↦ by cases hst) fun _ ↦ trivial
  | ok st =>
    have hiff : Guarded step Event.FromClient st events ↔ _ :=
      Guarded.iff_forall_take (fun s a hs ↦ step_free_iff hs a) (hstart.of_ok hx)
    exact ⟨fun h ↦ hiff.1 (h st rfl), fun h s hs ↦ by cases hs; exact hiff.2 h⟩

end

/-- A connection that only measures round trips is made and lost. -/
theorem disconnect_rtt_taken :
    ¬∀ (codec : FloatCodec) (start : Env) (events : List (Env × Event)) (n : ℕ),
      Ends (@run codec start (events.take n)) Instance.Free fun _ ↦ True := by
  intro h
  have htaken : Ends (@run .fractional {}
      (List.take 2
        [({}, .connect { ClientEntry.sample 1 "a" with serverProtocol := NT_RTT_PROTOCOL }),
          ({}, .disconnect 1)]))
      (fun s ↦ s.mutexFree = false) fun _ ↦ False := by
    decide +kernel
  refine (h .fractional {} _ 2).incompatible htaken (fun s hs hs' ↦ ?_) fun _ _ ↦ id
  rw [Instance.Free, hs'] at hs
  cases hs

end NetworkTables
