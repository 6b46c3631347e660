import PicoRadio.Library.Ends
import PicoRadio.WebSocket.Sending

/-!
# Two tasks that send at the same time

`sendMutex` protects one frame. Two tasks that call `send` on one socket take turns frame by frame,
in any order. A message of one frame cannot be torn apart. A message of more frames can: the other
task may send between its first fragment and the next.
-/

namespace WebSockets

/-- The two tasks that send. -/
inductive Task
  | one
  | two
  deriving DecidableEq, Repr

/-- What the tasks have still to send, and the frames sent. -/
structure Sending where
  ws : WebSocket
  left : Task → List Fragment
  frames : List (Task × Fragment) := []

namespace Sending

/-- A task makes its next call of `sendFrame`. If that fails, its call of `send` returns. -/
def step (s : Sending) (t : Task) : Except Fault Sending :=
  match s.left t with
  | [] => .ok s
  | f :: rest => do
    let r ← s.ws.sendMasked f.header f.payload
    return {
      ws := r.2
      left := Function.update s.left t (if r.1 then rest else [])
      frames := if r.1 then s.frames ++ [(t, f)] else s.frames }

/-- Both tasks have called `send`, each with its message. -/
def start (ws : WebSocket) (messages : Task → Bytes × WebSocketMessageType) : Sending where
  ws := ws
  left t := framesOf (ws.headerOf (messages t).2.opcode (messages t).1.length) (messages t).1

/-- The tasks make their calls in this order. -/
def run (ws : WebSocket) (messages : Task → Bytes × WebSocketMessageType) (schedule : List Task) :
    Except Fault Sending :=
  schedule.foldlM step (start ws messages)

/-- No frame of one message is between two frames of the other. -/
def NotMixed (s : Sending) : Prop :=
  ∀ t u, t ≠ u → ¬[t, u, t].Sublist (s.frames.map Prod.fst)

/-- Each task sends one frame at most, now or later. -/
def Single (s : Sending) : Prop :=
  ∀ t, (s.frames.map Prod.fst).count t + (s.left t).length ≤ 1

theorem Single.step {s : Sending} (h : s.Single) (t : Task) :
    Ends (s.step t) Single fun _ ↦ True := by
  rw [Sending.step]
  cases hleft : s.left t with
  | nil => exact h
  | cons f rest =>
    refine (Ends.of_forall (Q := fun _ ↦ True) (fun _ ↦ trivial) fun _ ↦ trivial).bind fun r _ ↦ ?_
    intro u
    have hu := h u
    by_cases heq : u = t
    · subst heq
      rw [hleft, List.length_cons] at hu
      dsimp only
      rw [Function.update_self]
      cases r.1 with
      | true =>
        simp only [if_true, List.map_append, List.count_append, List.map_singleton,
          List.count_singleton_self]
        omega
      | false =>
        simp only [Bool.false_eq_true, if_false, List.length_nil]
        omega
    · dsimp only
      rw [Function.update_of_ne heq]
      cases r.1 with
      | true =>
        simpa [List.count_singleton, Ne.symm heq] using hu
      | false => exact hu

theorem Single.notMixed {s : Sending} (h : s.Single) : s.NotMixed := by
  intro t u _ hsub
  have hcount := hsub.count_le t
  have ht := h t
  simp only [List.count_cons, beq_self_eq_true, if_true, List.count_nil] at hcount
  omega

/-! ### Messages of one frame, and others -/

variable {ws : WebSocket} {messages : Task → Bytes × WebSocketMessageType}

theorem start_left_small {t : Task}
    (h : (messages t).1.length ≤ if ws.useMasking then 1452 else 1456) :
    ((start ws messages).left t).length = 1 := by
  show (framesOf _ _).length = 1
  rw [framesOf_small rfl (by rw [fragmentPayloadLength_eq]; exact h)]
  rfl

/-- A message that is larger is more than one frame. -/
theorem start_left_large {t : Task}
    (h : (if ws.useMasking then 1452 else 1456) < (messages t).1.length) :
    ∃ f g rest, (start ws messages).left t = f :: g :: rest := by
  let header := ws.headerOf (messages t).2.opcode (messages t).1.length
  have hlarge : fragmentPayloadLength header < (messages t).1.length := by
    rw [fragmentPayloadLength_eq]
    exact h
  obtain ⟨g, rest, hbehind⟩ := List.exists_cons_of_ne_nil (framesOf_continues hlarge).ne_nil
  exact ⟨_, g, rest, (framesOf_large rfl hlarge).trans (congrArg _ hbehind)⟩

/-- Every message is at least one frame. -/
theorem start_left_ne_nil (ws : WebSocket) (messages : Task → Bytes × WebSocketMessageType)
    (t : Task) : ∃ f rest, (start ws messages).left t = f :: rest := by
  by_cases h : (messages t).1.length ≤ if ws.useMasking then 1452 else 1456
  · obtain ⟨f, hf⟩ := List.length_eq_one_iff.mp (start_left_small h)
    exact ⟨f, [], hf⟩
  · obtain ⟨f, g, rest, hleft⟩ := start_left_large (not_le.mp h)
    exact ⟨f, g :: rest, hleft⟩

/-- A call that succeeds. -/
theorem step_writable {s : Sending} (h : s.ws.Writable) {t : Task} {f : Fragment}
    {rest : List Fragment} (hleft : s.left t = f :: rest) :
    ∃ ws' : WebSocket, s.step t = .ok {
        ws := ws', left := Function.update s.left t rest, frames := s.frames ++ [(t, f)] } ∧
      ws'.Writable := by
  obtain ⟨key, writes, randoms, hsend, hwrites⟩ := h.sendMasked f.header f.payload
  refine ⟨{ s.ws with
    writes, randoms, written := s.ws.written ++ [frameBuffer f.header f.payload key] }, ?_,
    ⟨h.connected, hwrites⟩⟩
  rw [step, hleft]
  dsimp only
  rw [hsend]
  rfl

/-- The other task sends after the first fragment of a message that has more. -/
theorem run_mixed (h : ws.Writable) {t u : Task} (hne : t ≠ u)
    (hlarge : (if ws.useMasking then 1452 else 1456) < (messages t).1.length) :
    Ends (run ws messages [t, u, t]) (fun s ↦ ¬s.NotMixed) fun _ ↦ False := by
  obtain ⟨f, g, rest, ht⟩ := start_left_large hlarge
  obtain ⟨e, rest', hu⟩ := start_left_ne_nil ws messages u
  obtain ⟨ws₁, h₁, hws₁⟩ := step_writable (s := start ws messages) h ht
  let s₁ : Sending :=
    ⟨ws₁, Function.update (start ws messages).left t (g :: rest), [(t, f)]⟩
  have hu₁ : s₁.left u = e :: rest' := (Function.update_of_ne hne.symm _ _).trans hu
  obtain ⟨ws₂, h₂, hws₂⟩ := step_writable (s := s₁) hws₁ hu₁
  let s₂ : Sending := ⟨ws₂, Function.update s₁.left u rest', [(t, f), (u, e)]⟩
  have ht₂ : s₂.left t = g :: rest :=
    (Function.update_of_ne hne _ _).trans (Function.update_self _ _ _)
  obtain ⟨ws₃, h₃, -⟩ := step_writable (s := s₂) hws₂ ht₂
  have hrun : run ws messages [t, u, t] = .ok
      ⟨ws₃, Function.update s₂.left t rest, [(t, f), (u, e), (t, g)]⟩ := by
    rw [run, List.foldlM_cons, h₁]
    show List.foldlM step s₁ [u, t] = _
    rw [List.foldlM_cons, h₂]
    show List.foldlM step s₂ [t] = _
    rw [List.foldlM_cons, h₃]
    rfl
  rw [hrun]
  intro hmixed
  exact hmixed t u hne (List.Sublist.refl _)

/-- Whatever the order of the tasks and the fate of their writes, two messages are not mixed exactly
if both fit into a packet. -/
theorem run_notMixed_iff (useMasking : Bool) (messages : Task → Bytes × WebSocketMessageType) :
    (∀ ws : WebSocket, ws.useMasking = useMasking → ∀ schedule : List Task,
      Ends (run ws messages schedule) NotMixed fun _ ↦ True) ↔
    ∀ t, (messages t).1.length ≤ if useMasking then 1452 else 1456 := by
  constructor
  · intro h t
    by_contra hlarge
    have hother : ∃ u, t ≠ u := by
      cases t
      · exact ⟨.two, by decide⟩
      · exact ⟨.one, by decide⟩
    obtain ⟨u, hne⟩ := hother
    have hwritable : WebSocket.Writable { useMasking } := ⟨rfl, List.forall_mem_nil _⟩
    have hrun := h { useMasking } rfl [t, u, t]
    exact hrun.incompatible (run_mixed hwritable hne (not_le.mp hlarge)) (fun _ ↦ not_not_intro)
      fun _ _ ↦ id
  · intro h ws hmasking schedule
    subst hmasking
    have hstart : (start ws messages).Single := by
      intro t
      rw [start_left_small (h t)]
      exact le_rfl
    exact (Ends.run (fun s t hs ↦ hs.step t) hstart schedule).imp fun s hs ↦ hs.notMixed

/-- Two tasks send 2000 bytes each. -/
theorem fragments_mixed :
    ¬∀ (ws : WebSocket) (messages : Task → Bytes × WebSocketMessageType) (schedule : List Task),
      Ends (run ws messages schedule) NotMixed fun _ ↦ True := by
  intro h
  obtain ⟨data, hlen⟩ : ∃ data : Bytes, data.length = 2000 :=
    ⟨.replicate 2000 7, List.length_replicate⟩
  have hwritable : WebSocket.Writable {} := ⟨rfl, List.forall_mem_nil _⟩
  have hlarge : (if WebSocket.useMasking {} then 1452 else 1456) < data.length := by
    rw [hlen]
    decide
  exact (h {} (fun _ ↦ (data, .Binary)) [.one, .two, .one]).incompatible
    (run_mixed hwritable (by decide : Task.one ≠ Task.two) hlarge) (fun _ ↦ not_not_intro)
    fun _ _ ↦ id

end Sending

end WebSockets
