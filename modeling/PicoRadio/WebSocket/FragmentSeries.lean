import PicoRadio.Library.History
import PicoRadio.WebSocket.Reassembly

/-!
# Frames in any order

A peer can send frames in any order. `currentFrame` is not reset when a message ends, and the
fragment path does not look at opcodes, so what `receivedCallback` gets is a message only as long as
continuations come where a series is open and control frames come in one piece
(`handleFrames_allowed`). Otherwise the callback gets a control frame as a message, or the rest of a
message that has ended; mostly the payload of that message has been freed by then.

## Frames out of place

For each frame there are the calls that it may lead to at its place (`Allowed`), and a frame that is
where it belongs (`InPlace`) leads to no other. Whether it is there can be told from the frames
before it (`Open`), whatever the callbacks do.
-/

namespace WebSockets

/-- After these frames a series of fragments is open, and this much has come of it. -/
inductive Open : List Frame → WebSocketOpCode → Bytes → Prop
  | first (before : List Frame) {f : Frame} (hopcode : f.1.opcode.isData)
      (hFIN : f.1.FIN = false) : Open (before ++ [f]) f.1.opcode f.2
  | next {before : List Frame} {opcode : WebSocketOpCode} {begun : Bytes} {f : Frame}
      (h : Open before opcode begun) (hopcode : f.1.opcode = .ContinuationFrame)
      (hFIN : f.1.FIN = false) : Open (before ++ [f]) opcode (begun ++ f.2)
  | skip {before : List Frame} {opcode : WebSocketOpCode} {begun : Bytes} {f : Frame}
      (h : Open before opcode begun) (hdata : f.1.opcode.isData = false)
      (hopcode : f.1.opcode ≠ .ContinuationFrame) : Open (before ++ [f]) opcode begun

/-- A call that a frame may lead to behind these frames: it carries a frame with a message of its
own or the first of a series, or a continuation and all that had come of its series. -/
def Allowed (before : List Frame) (f : Frame) : Call → Prop
  | .received _ opcode payload => opcode.isData ∧
      (f.1.opcode = opcode ∧ payload = f.2 ∨
        f.1.opcode = .ContinuationFrame ∧
          ∃ begun, Open before opcode begun ∧ payload = begun ++ f.2)
  | _ => True

/-- A frame where it belongs: a continuation in an open series, a control frame in one piece. -/
def InPlace (before : List Frame) (f : Frame) : Prop :=
  (f.1.opcode = .ContinuationFrame → ∃ opcode begun, Open before opcode begun) ∧
    (f.1.FIN = false → f.1.opcode.isData ∨ f.1.opcode = .ContinuationFrame)

namespace Open

variable {before : List Frame} {opcode : WebSocketOpCode} {begun : Bytes} {f : Frame}

theorem isData (h : Open before opcode begun) : opcode.isData := by
  induction h with
  | first _ hopcode _ => exact hopcode
  | next _ _ _ ih => exact ih
  | skip _ _ _ ih => exact ih

/-- How a series is open after one more frame. -/
theorem concat_cases (h : Open (before ++ [f]) opcode begun) :
    (f.1.opcode.isData ∧ f.1.FIN = false ∧ opcode = f.1.opcode ∧ begun = f.2) ∨
      (f.1.opcode = .ContinuationFrame ∧ f.1.FIN = false ∧
        ∃ begun', Open before opcode begun' ∧ begun = begun' ++ f.2) ∨
      f.1.opcode.isData = false ∧ f.1.opcode ≠ .ContinuationFrame ∧ Open before opcode begun := by
  generalize hframes : before ++ [f] = frames at h
  cases h with
  | first before' hopcode hFIN =>
    obtain ⟨-, hf⟩ := List.append_inj' hframes rfl
    obtain rfl := List.singleton_inj.mp hf
    exact .inl ⟨hopcode, hFIN, rfl, rfl⟩
  | next h hopcode hFIN =>
    obtain ⟨rfl, hf⟩ := List.append_inj' hframes rfl
    obtain rfl := List.singleton_inj.mp hf
    exact .inr (.inl ⟨hopcode, hFIN, _, h, rfl⟩)
  | skip h hdata hopcode =>
    obtain ⟨rfl, hf⟩ := List.append_inj' hframes rfl
    obtain rfl := List.singleton_inj.mp hf
    exact .inr (.inr ⟨hdata, hopcode, h⟩)

end Open

namespace WebSocket

variable {ws : WebSocket} {before : List Frame} {f : Frame}

/-- The frames are handled one after the other, as long as the socket is connected. -/
def pollFrames (frames : List Frame) (ws : WebSocket) : Except Fault WebSocket :=
  frames.foldlM (fun ws f ↦ if ws.isConnected then ws.handlePayload f.1 f.2 else .ok ws) ws

/-- Whatever frames have been handled, the next one only leads to calls that it may lead to. -/
def CallsAllowed (ws : WebSocket) (frames : List Frame) : Prop :=
  Always (fun before f ↦ Ends (ws.pollFrames before) (fun s ↦ s.isConnected →
    Ends (s.handlePayload f.1 f.2)
      (fun s' ↦ ∃ calls, s'.called = s.called ++ calls ∧ ∀ c ∈ calls, Allowed before f c)
      fun _ ↦ False) fun _ ↦ False) frames

/-- The current frame holds what has come of an open series. -/
def HoldsSeries (before : List Frame) (ws : WebSocket) : Prop :=
  ∀ opcode begun, Open before opcode begun → ws.Begun opcode begun

/-- A frame leads to allowed calls and leaves the current frame as it should be. -/
def Handled (before : List Frame) (f : Frame) (ws ws' : WebSocket) : Prop :=
  (∃ calls, ws'.called = ws.called ++ calls ∧ ∀ c ∈ calls, Allowed before f c) ∧
    ws'.HoldsSeries (before ++ [f])

/-- The callback is called if it is set. -/
theorem callReceived_notify (isFragment : Bool) (opcode : WebSocketOpCode) (payload : Bytes) :
    callReceived { ws with
        currentFrame := ⟨isFragment, opcode, .alloc payload, payload.length⟩ } =
      .ok { ws with
        currentFrame := ⟨isFragment, opcode, .alloc payload, payload.length⟩
        called := ws.called ++
          if ws.receivedCallback then [.received isFragment opcode payload] else [] } := by
  by_cases hcallback : ws.receivedCallback
  · rw [callReceived_alloc hcallback, if_pos hcallback]
  · rw [callReceived, if_neg hcallback, if_neg hcallback, List.append_nil]
    rfl

theorem allowed_notify {c : Call} (h : Allowed before f c) (b : Bool) :
    ∀ c' ∈ if b then [c] else [], Allowed before f c' := by
  cases b with
  | true => exact List.forall_mem_singleton.mpr h
  | false => exact List.forall_mem_nil _

theorem handlePayload_whole_handled (hopcode : f.1.opcode.isData) (hFIN : f.1.FIN) :
    Ends (ws.handlePayload f.1 f.2) (Handled before f ws) fun _ ↦ False := by
  have hnone (ws' : WebSocket) : ws'.HoldsSeries (before ++ [f]) := by
    intro opcode begun hopen
    rcases hopen.concat_cases with ⟨-, hno, -⟩ | ⟨-, hno, -⟩ | ⟨hno, -⟩
    · rw [hFIN] at hno
      cases hno
    · rw [hFIN] at hno
      cases hno
    · rw [hopcode] at hno
      cases hno
  cases hcallback : ws.receivedCallback with
  | true =>
    obtain ⟨currentFrame, hf⟩ := handlePayload_whole hcallback hopcode hFIN
    rw [hf]
    exact ⟨⟨_, rfl, List.forall_mem_singleton.mpr ⟨hopcode, .inl ⟨rfl, rfl⟩⟩⟩, hnone _⟩
  | false =>
    have hhandle : ws.handleFrame f.1 f.2 = .ok ws := by
      cases hop : f.1.opcode with
      | TextFrame | BinaryFrame =>
        simp only [handleFrame, hop, hFIN, hcallback, Bool.not_true, Bool.false_eq_true, if_false]
        rfl
      | _ =>
        rw [hop] at hopcode
        cases hopcode
    rw [handlePayload, hhandle]
    exact ⟨⟨[], (List.append_nil _).symm, List.forall_mem_nil _⟩, hnone _⟩

theorem handlePayload_first_handled (hopcode : f.1.opcode.isData) (hFIN : f.1.FIN = false) :
    Ends (ws.handlePayload f.1 f.2) (Handled before f ws) fun _ ↦ False := by
  have hne : f.1.opcode ≠ .ContinuationFrame := by
    intro h
    rw [h] at hopcode
    cases hopcode
  rw [handlePayload, handleFrame, hFIN, Bool.not_false, if_pos rfl, if_pos hne,
    callReceived_notify]
  simp only [ok_bind, afterFrame_alloc]
  have hallowed : Allowed before f (.received true f.1.opcode f.2) := ⟨hopcode, .inl ⟨rfl, rfl⟩⟩
  refine ⟨⟨_, rfl, allowed_notify hallowed _⟩, fun opcode begun hopen ↦ ?_⟩
  rcases hopen.concat_cases with ⟨-, -, rfl, rfl⟩ | ⟨hcont, -⟩ | ⟨hno, -⟩
  · rfl
  · exact absurd hcont hne
  · rw [hopcode] at hno
    cases hno

theorem handlePayload_continuation_handled {opcode : WebSocketOpCode} {begun : Bytes}
    (hopen : Open before opcode begun) (hws : ws.HoldsSeries before)
    (hopcode : f.1.opcode = .ContinuationFrame) :
    Ends (ws.handlePayload f.1 f.2) (Handled before f ws) fun _ ↦ False := by
  have hbegun := hws opcode begun hopen
  have hallowed (b : Bool) : Allowed before f (.received b opcode (begun ++ f.2)) :=
    ⟨hopen.isData, .inr ⟨hopcode, begun, hopen, rfl⟩⟩
  cases hFIN : f.1.FIN with
  | true =>
    rw [handlePayload, handleFrame, hFIN, hopcode, Bool.not_true, if_neg Bool.false_ne_true]
    simp only [appendPayload_begun hbegun, ok_bind, callReceived_notify]
    refine ⟨⟨_, rfl, allowed_notify (hallowed false) _⟩, fun opcode' begun' hopen' ↦ ?_⟩
    rcases hopen'.concat_cases with ⟨-, hno, -⟩ | ⟨-, hno, -⟩ | ⟨-, hno, -⟩
    · rw [hFIN] at hno
      cases hno
    · rw [hFIN] at hno
      cases hno
    · exact absurd hopcode hno
  | false =>
    rw [handlePayload, handleFrame, hFIN, Bool.not_false, if_pos rfl,
      if_neg (not_not.mpr hopcode), appendPayload_begun hbegun, ok_bind, callReceived_notify]
    simp only [ok_bind, afterFrame_alloc]
    refine ⟨⟨_, rfl, allowed_notify (hallowed true) _⟩, fun opcode' begun' hopen' ↦ ?_⟩
    rcases hopen'.concat_cases with ⟨hdata, -⟩ | ⟨-, -, begun'', hopen'', rfl⟩ | ⟨-, hno, -⟩
    · rw [hopcode] at hdata
      cases hdata
    · -- the series is the one that the current frame holds
      obtain ⟨-, rfl, halloc, hlen⟩ :=
        WebSocketFrame.mk.inj (hbegun.symm.trans (hws _ _ hopen''))
      have hread := read_alloc begun
      rw [halloc, hlen, read_alloc] at hread
      obtain rfl := Except.ok.inj hread
      rfl
    · exact absurd hopcode hno

/-- The current frame is left alone, and `receivedCallback` is not called. -/
def LeavesMessage (ws ws' : WebSocket) : Prop :=
  ws'.currentFrame = ws.currentFrame ∧
    ∃ calls, ws'.called = ws.called ++ calls ∧ ∀ c ∈ calls, c.isReceived = false

theorem Wrote.leavesMessage {ws' : WebSocket} (h : ws.Wrote ws') : ws.LeavesMessage ws' :=
  ⟨h.currentFrame, [], by rw [h.called, List.append_nil], List.forall_mem_nil _⟩

theorem close_leavesMessage (hconnected : ws.isConnected) (statusCode : UInt16) (reason : Bytes) :
    Ends (ws.close statusCode reason) ws.LeavesMessage fun _ ↦ False := by
  rw [close, assertConnected, if_pos hconnected, ok_bind]
  split
  · obtain ⟨randoms, hkey⟩ := ws.maskingKey_snd
    have hsame : isConnected { ws with randoms } := hconnected
    rw [hkey]
    refine (sendBuffer_wrote hsame _).bind fun r hr ↦ ?_
    exact hr.leavesMessage
  · split
    · exact ⟨rfl, _, rfl, List.forall_mem_singleton.mpr rfl⟩
    · exact ⟨rfl, [], (List.append_nil _).symm, List.forall_mem_nil _⟩

theorem handleFrame_control (hconnected : ws.isConnected) (hdata : f.1.opcode.isData = false)
    (hopcode : f.1.opcode ≠ .ContinuationFrame) (hFIN : f.1.FIN) :
    Ends (ws.handleFrame f.1 f.2) ws.LeavesMessage fun _ ↦ False := by
  rw [handleFrame, hFIN, Bool.not_true, if_neg Bool.false_ne_true]
  cases hop : f.1.opcode with
  | ContinuationFrame => exact absurd hop hopcode
  | TextFrame | BinaryFrame =>
    rw [hop] at hdata
    cases hdata
  | Ping =>
    refine (sendControl_wrote .Pong f.2).mono (fun _ h ↦ h.leavesMessage) fun e he ↦ ?_
    rw [hconnected] at he
    exact Bool.noConfusion he.2
  | Pong =>
    cases ws.pongCallback with
    | true => exact ⟨rfl, _, rfl, List.forall_mem_singleton.mpr rfl⟩
    | false => exact ⟨rfl, [], (List.append_nil _).symm, List.forall_mem_nil _⟩
  | ConnectionClose =>
    dsimp only
    split
    · have hsame : isConnected { ws with gracefullyClosed := true } := hconnected
      exact (close_leavesMessage hsame _ _).bind fun ws' h ↦ h
    · exact close_leavesMessage hconnected _ _
  | unnamed code => exact ⟨rfl, [], (List.append_nil _).symm, List.forall_mem_nil _⟩

/-- A control frame in one piece leads to no call of `receivedCallback`. -/
theorem handlePayload_control_handled (hws : ws.HoldsSeries before) (hconnected : ws.isConnected)
    (hdata : f.1.opcode.isData = false) (hopcode : f.1.opcode ≠ .ContinuationFrame)
    (hFIN : f.1.FIN) :
    Ends (ws.handlePayload f.1 f.2) (Handled before f ws) fun _ ↦ False := by
  refine (handleFrame_control hconnected hdata hopcode hFIN).bind fun ws' h ↦ ?_
  obtain ⟨hframe, calls, hcalled, hcalls⟩ := h
  refine ⟨⟨calls, hcalled, fun c hc ↦ ?_⟩, fun opcode begun hopen ↦ ?_⟩
  · cases c with
    | received isFragment opcode payload => exact Bool.noConfusion (hcalls _ hc)
    | pong | close => trivial
  · rcases hopen.concat_cases with ⟨hno, -⟩ | ⟨hno, -⟩ | ⟨-, -, hopen⟩
    · rw [hdata] at hno
      cases hno
    · exact absurd hno hopcode
    · have hbegun := hws _ _ hopen
      rw [Begun] at hbegun ⊢
      dsimp only
      rw [hframe, hbegun, afterFrame_alloc]

/-- A frame that is in place. -/
theorem handlePayload_handled (hws : ws.HoldsSeries before) (hconnected : ws.isConnected)
    (hplace : InPlace before f) :
    Ends (ws.handlePayload f.1 f.2) (Handled before f ws) fun _ ↦ False := by
  obtain ⟨hseries, hpiece⟩ := hplace
  by_cases hopcode : f.1.opcode = .ContinuationFrame
  · obtain ⟨opcode, begun, hopen⟩ := hseries hopcode
    exact handlePayload_continuation_handled hopen hws hopcode
  · cases hFIN : f.1.FIN with
    | false => exact handlePayload_first_handled ((hpiece hFIN).resolve_right hopcode) hFIN
    | true =>
      cases hdata : f.1.opcode.isData with
      | true => exact handlePayload_whole_handled hdata hFIN
      | false => exact handlePayload_control_handled hws hconnected hdata hopcode hFIN

/-! ### Runs -/

theorem pollFrames_concat (frames : List Frame) (f : Frame) (ws : WebSocket) :
    ws.pollFrames (frames ++ [f]) = (ws.pollFrames frames >>= fun s ↦
      if s.isConnected then s.handlePayload f.1 f.2 else .ok s) := by
  rw [pollFrames, List.foldlM_append, pollFrames]
  congr 1
  funext s
  rw [List.foldlM_cons]
  exact bind_pure _

/-- As long as the socket is connected, the current frame holds what it should. -/
theorem pollFrames_holdsSeries {frames : List Frame} (h : Always InPlace frames) (ws : WebSocket) :
    Ends (ws.pollFrames frames) (fun s ↦ s.isConnected → s.HoldsSeries frames) fun _ ↦ False := by
  induction frames using List.reverseRecOn with
  | nil =>
    intro _ opcode begun hopen
    generalize hnil : ([] : List Frame) = frames at hopen
    cases hopen <;> simp at hnil
  | append_singleton frames f ih =>
    obtain ⟨h, hplace⟩ := Always.concat_iff.mp h
    rw [pollFrames_concat]
    refine (ih h).bind fun s hs ↦ ?_
    split
    · next hconnected =>
      exact (handlePayload_handled (hs hconnected) hconnected hplace).imp fun s' hs' _ ↦ hs'.2
    · next hconnected => exact fun h ↦ absurd h hconnected

/-- **Messages are not mixed as long as every frame is in place.** -/
theorem handleFrames_allowed {frames : List Frame} (h : Always InPlace frames) (ws : WebSocket) :
    ws.CallsAllowed frames := by
  intro before f hpre
  have hbefore := h.initial ((List.prefix_append before [f]).trans hpre)
  refine (pollFrames_holdsSeries hbefore ws).imp fun s hs hconnected ↦ ?_
  exact (handlePayload_handled (hs hconnected) hconnected (h before f hpre)).imp fun s' hs' ↦ hs'.1

/-- A text in two fragments. -/
theorem handleFrames_allowed_sample :
    CallsAllowed {} [({ opcode := .TextFrame }, [1]), ({ FIN := true }, [2])] := by
  have hfirst : InPlace [] ({ opcode := .TextFrame }, [1]) :=
    ⟨fun h ↦ WebSocketOpCode.noConfusion h, fun _ ↦ .inl rfl⟩
  have hlast : InPlace ([] ++ [({ opcode := .TextFrame }, [1])]) ({ FIN := true }, [2]) :=
    ⟨fun _ ↦ ⟨_, _, .first [] rfl rfl⟩, fun h ↦ Bool.noConfusion h⟩
  exact handleFrames_allowed
    (Always.concat_iff.mpr ⟨Always.concat_iff.mpr ⟨Always.nil _, hfirst⟩, hlast⟩) {}

/-- A ping in two fragments is received as a message. -/
theorem fragmented_ping_received :
    ¬∀ (frames : List Frame) (ws : WebSocket), (∀ f ∈ frames, f.1.opcode.isNamed) →
      ws.CallsAllowed frames := by
  intro h
  obtain ⟨calls, hcalled, hallowed⟩ :=
    h [({ opcode := .Ping }, [1])] {} (by decide) [] _ (List.prefix_refl _) rfl
  have hping : [Call.received true .Ping [1]] = calls := hcalled
  exact Bool.noConfusion (hallowed (.received true .Ping [1]) (hping ▸ List.mem_cons_self)).1

end WebSocket

end WebSockets
