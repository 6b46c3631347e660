import PicoRadio.Library.Ends
import PicoRadio.WebSocket.Handshake

/-!
# The capacity of the server

Every connection has a task of its own that runs `handleRawConnection`. The task tests whether the
server is at capacity when it has read the request, and registers the client when it has written the
response. Between the two other tasks run. So more tasks can pass the test than there is room for,
and with one client too many the test, which is for equality, lets everybody in.

## The condition

Between a task's test and its registration the others may register clients and erase some. The place
that the task has seen free is kept if they do not take it (`PlaceKept`), which is a count of the
steps between the two. The test is what makes the condition enough: a task that passes it has found
fewer clients than there may be, unless there were too many already.
-/

namespace WebSockets

/-- The maximum number of clients supported by this server. -/
def WS_SERVER_MAX_CLIENT_COUNT : ℕ := 10

/-- Client entry structure used for storing a list of connected clients. -/
structure ClientEntry where
  /-- The task that has made the entry: the pointer that `remove_if` looks for. -/
  owner : ℕ
  requestedPath : Str
  deriving DecidableEq, Repr

/-- Where a task stands. -/
inductive Phase
  /-- The request is read. -/
  | requested (path : Str) (headers : Headers)
  /-- The response is being written. -/
  | admitted (client : Accepted)
  /-- The message loop runs. -/
  | registered
  | done
  deriving DecidableEq, Repr

/-- The next step of the task registers its client. -/
def Phase.registers : Phase → Bool
  | .admitted _ => true
  | _ => false

/-- The next step of the task erases its entry. -/
def Phase.removes : Phase → Bool
  | .registered => true
  | _ => false

/-- The clients of the server, and the tasks. -/
structure WsServer where
  clients : List ClientEntry := []
  tasks : ℕ → Phase

namespace WsServer

section Run

variable (digest : Str → Bytes) (protocolCallback : Option (List Str → Str))

/-- A task goes on to its next phase. -/
def step (s : WsServer) (t : ℕ) : Except Fault WsServer :=
  match s.tasks t with
  | .requested path headers =>
    let atCapacity : Bool := s.clients.length = WS_SERVER_MAX_CLIENT_COUNT
    let client := acceptRequest digest protocolCallback atCapacity path headers
    .ok { s with tasks := Function.update s.tasks t (client.elim .done .admitted) }
  | .admitted client =>
    .ok {
      clients := s.clients ++ [⟨t, client.path⟩]
      tasks := Function.update s.tasks t .registered }
  | .registered =>
    -- `erase` of the end is an error
    if s.clients.any (·.owner = t) then
      .ok {
        clients := s.clients.eraseP (·.owner = t)
        tasks := Function.update s.tasks t .done }
    else .error .endIterator
  | .done => .ok s

/-- The tasks have read these requests. -/
def start (requests : ℕ → Str × Headers) : WsServer where
  tasks t := .requested (requests t).1 (requests t).2

/-- The tasks go on in this order. -/
def run (requests : ℕ → Str × Headers) (schedule : List ℕ) : Except Fault WsServer :=
  schedule.foldlM (step digest protocolCallback) (start requests)

end Run

/-- There are not too many clients. -/
def Bounded (s : WsServer) : Prop :=
  s.clients.length ≤ WS_SERVER_MAX_CLIENT_COUNT

instance : DecidablePred Bounded := fun s ↦
  inferInstanceAs (Decidable (s.clients.length ≤ WS_SERVER_MAX_CLIENT_COUNT))

/-! ### The places -/

section Places

variable (digest : Str → Bytes) (protocolCallback : Option (List Str → Str))

/-- How many of the steps are taken by a task in such a phase. -/
def stepsIn (p : Phase → Bool) : WsServer → List ℕ → ℕ
  | _, [] => 0
  | s, t :: schedule =>
    (p (s.tasks t)).toNat +
      match s.step digest protocolCallback t with
      | .ok s' => stepsIn p s' schedule
      | .error _ => 0

/-- How many of the steps register a client. -/
def registrations : WsServer → List ℕ → ℕ :=
  stepsIn digest protocolCallback Phase.registers

/-- How many of the steps erase an entry. -/
def removals : WsServer → List ℕ → ℕ :=
  stepsIn digest protocolCallback Phase.removes

/-- A place that was free among the clients of `s` is still free after the steps that come between
the test and the registration: they register no more clients than they erase, or there was room for
these clients too. -/
def PlaceKept (s s' : WsServer) (between : List ℕ) : Prop :=
  registrations digest protocolCallback s' between ≤ removals digest protocolCallback s' between ∨
    s.clients.length + registrations digest protocolCallback s' between <
      WS_SERVER_MAX_CLIENT_COUNT + removals digest protocolCallback s' between

end Places

/-- Every task in its message loop has its entry. -/
def Entered (s : WsServer) : Prop :=
  ∀ t, s.tasks t = .registered → ∃ entry ∈ s.clients, entry.owner = t

variable {digest : Str → Bytes} {protocolCallback : Option (List Str → Str)} {s : WsServer}

/-- The clients are counted by the steps that register and erase them. -/
theorem step_length {s' : WsServer} {t : ℕ} (h : s.step digest protocolCallback t = .ok s') :
    s'.clients.length + (s.tasks t).removes.toNat =
      s.clients.length + (s.tasks t).registers.toNat := by
  rw [step] at h
  cases hphase : s.tasks t with
  | requested path headers =>
    rw [hphase] at h
    obtain rfl := Except.ok.inj h
    rfl
  | admitted client =>
    rw [hphase] at h
    obtain rfl := Except.ok.inj h
    exact List.length_append
  | registered =>
    rw [hphase] at h
    dsimp only at h
    split at h
    · next hany =>
      obtain rfl := Except.ok.inj h
      obtain ⟨entry, hentry, -⟩ := List.any_eq_true.mp hany
      have hpos := List.length_pos_of_mem hentry
      have herase : (s.clients.eraseP (·.owner = t)).length = s.clients.length - 1 := by
        rw [List.length_eraseP, if_pos hany]
      rw [herase]
      exact Nat.sub_add_cancel hpos
    · cases h
  | done =>
    rw [hphase] at h
    obtain rfl := Except.ok.inj h
    rfl

/-- The clients after a part of the schedule: those there were, those registered, less those
erased. -/
theorem foldlM_length {s' : WsServer} {schedule : List ℕ}
    (h : schedule.foldlM (step digest protocolCallback) s = .ok s') :
    s'.clients.length + removals digest protocolCallback s schedule =
      s.clients.length + registrations digest protocolCallback s schedule := by
  rw [removals, registrations]
  induction schedule generalizing s with
  | nil =>
    obtain rfl := Except.ok.inj h
    rfl
  | cons t schedule ih =>
    rw [List.foldlM_cons] at h
    cases hx : s.step digest protocolCallback t with
    | error e =>
      rw [hx] at h
      cases h
    | ok s₁ =>
      rw [hx] at h
      have hrest := ih h
      have hstep := step_length hx
      rw [stepsIn, stepsIn, hx]
      dsimp only
      omega

/-- A task that comes to register its client has just made the test: the clients are the same, and
there are not as many of them as can be. -/
theorem step_registers {s' : WsServer} {t : ℕ} (h : s.step digest protocolCallback t = .ok s')
    (hphase : (s'.tasks t).registers = true) :
    s'.clients = s.clients ∧ s.clients.length ≠ WS_SERVER_MAX_CLIENT_COUNT := by
  rw [step] at h
  split at h
  · obtain rfl := Except.ok.inj h
    refine ⟨rfl, fun hfull ↦ ?_⟩
    dsimp only at hphase
    rw [Function.update_self, hfull, decide_eq_true rfl, acceptRequest, Bool.or_true,
      if_pos rfl] at hphase
    cases hphase
  · obtain rfl := Except.ok.inj h
    dsimp only at hphase
    rw [Function.update_self] at hphase
    cases hphase
  · split at h
    · obtain rfl := Except.ok.inj h
      dsimp only at hphase
      rw [Function.update_self] at hphase
      cases hphase
    · cases h
  · next hdone =>
    obtain rfl := Except.ok.inj h
    rw [hdone] at hphase
    cases hphase

/-- An entry that is to be erased is there. -/
theorem Entered.step (h : s.Entered) (t : ℕ) :
    Ends (s.step digest protocolCallback t) Entered fun _ ↦ False := by
  rw [WsServer.step]
  cases hphase : s.tasks t with
  | requested path headers =>
    intro u hu
    dsimp only at hu
    rw [Function.update_apply] at hu
    split at hu
    · generalize acceptRequest digest protocolCallback _ path headers = client at hu
      cases client <;> cases hu
    · exact h u hu
  | admitted client =>
    intro u hu
    by_cases heq : u = t
    · exact ⟨⟨t, client.path⟩, List.mem_append_right _ List.mem_cons_self, heq.symm⟩
    · dsimp only at hu
      rw [Function.update_of_ne heq] at hu
      obtain ⟨entry, hentry, howner⟩ := h u hu
      exact ⟨entry, List.mem_append_left _ hentry, howner⟩
  | registered =>
    obtain ⟨entry, hentry, howner⟩ := h t hphase
    have hany : s.clients.any (·.owner = t) = true :=
      List.any_eq_true.mpr ⟨entry, hentry, decide_eq_true howner⟩
    dsimp only
    rw [if_pos hany]
    intro u hu
    by_cases heq : u = t
    · subst heq
      dsimp only at hu
      rw [Function.update_self] at hu
      cases hu
    · dsimp only at hu
      rw [Function.update_of_ne heq] at hu
      obtain ⟨other, hother, howner⟩ := h u hu
      refine ⟨other, (List.mem_eraseP_of_neg ?_).mpr hother, howner⟩
      rw [howner]
      simpa using heq
  | done => exact h

/-- The bound is kept by a registration that finds its place kept, where the test was made within
the bound. -/
theorem Bounded.register {s₁ s₂ : WsServer} {t : ℕ} {between : List ℕ} (h : s.Bounded)
    (htest : s.step digest protocolCallback t = .ok s₁)
    (hphase : (s₁.tasks t).registers = true)
    (hbetween : between.foldlM (step digest protocolCallback) s₁ = .ok s₂)
    (hkept : PlaceKept digest protocolCallback s s₁ between) :
    s₂.clients.length < WS_SERVER_MAX_CLIENT_COUNT := by
  have hcount := foldlM_length hbetween
  obtain ⟨hclients, hroom⟩ := step_registers htest hphase
  rw [hclients] at hcount
  rw [Bounded] at h
  rcases hkept with hle | hlt
  · -- the test has found the number of clients different from the bound, and so below it
    omega
  · omega

end WsServer

end WebSockets
