import Mathlib.Data.Bool.AllAny
import PicoRadio.WebSocket.Handshake

/-!
# The two handshakes of the library

The server writes `Sec-Websocket-Accept` and `Sec-Websocket-Protocol`, the client looks for
`Sec-WebSocket-Accept` and `Sec-WebSocket-Protocol` and compares to the letter. So it finds neither
in a response of the server, whatever was asked for. A callback that answers with line breaks can
write the right header itself, but then no header of the client has the answer for its value.
-/

namespace WebSockets

open Lines

/-- A client performs its handshake with a server, lines being read whole, and both end up with the
same `serverProtocol`. -/
def HandshakesAgree (digest : Str → Bytes) (guid : Bytes) (path host : Str) (protocols : List Str)
    (protocolCallback : Option (List Str → Str)) : Prop :=
  ∃ (ws : WebSocket) (accepted : Accepted) (unread unread' : List Str),
    initiateHandshake LineSource.whole digest guid path host protocols
        (linesOf CR LF accepted.response) {} =
      .ok (some accepted.serverProtocol, unread, ws) ∧
    handleRawConnection LineSource.whole digest protocolCallback false
        (ws.written.flatten.take 4) (linesOf CR LF (ws.written.flatten.drop 4)) =
      .ok (some accepted, unread')

/-! ### What is written has no line breaks -/

theorem sEncodingTable_noBreak (i : UInt8) : isBreak CR LF (sEncodingTable i) = false := by
  have htable : NoBreak CR LF ((0 : UInt8) ::
      ascii "ABCDEFGHIJKLMNOPQRSTUVWXYZabcdefghijklmnopqrstuvwxyz0123456789+/") := by
    decide
  refine htable _ ?_
  rw [sEncodingTable, List.getD_eq_getElem?_getD]
  cases hi :
    (ascii "ABCDEFGHIJKLMNOPQRSTUVWXYZabcdefghijklmnopqrstuvwxyz0123456789+/")[i.toNat]? with
  | none => exact List.mem_cons_self
  | some b => exact List.mem_cons_of_mem _ (List.mem_of_getElem? hi)

theorem base64_encode_noBreak (data : Bytes) : NoBreak CR LF (base64_encode data) := by
  induction data using base64_encode.induct with
  | case1 => exact noBreak_nil
  | case2 a =>
    simp only [base64_encode, NoBreak, List.forall_mem_append, List.forall_mem_cons,
      sEncodingTable_noBreak, true_and]
    exact ⟨List.forall_mem_nil _, (by decide : NoBreak CR LF (ascii "=="))⟩
  | case3 a b =>
    simp only [base64_encode, NoBreak, List.forall_mem_append, List.forall_mem_cons,
      sEncodingTable_noBreak, true_and]
    exact ⟨List.forall_mem_nil _, (by decide : NoBreak CR LF (ascii "="))⟩
  | case4 a b c data ih =>
    refine noBreak_append.mpr ⟨?_, ih⟩
    simp only [NoBreak, List.forall_mem_cons, sEncodingTable_noBreak, true_and]
    exact List.forall_mem_nil _

/-! ### What the client finds -/

theorem headerOf_noBreak {line name value : Str} (hline : NoBreak CR LF line)
    (h : headerOf line = some (name, value)) : NoBreak CR LF value := by
  obtain ⟨sep, -, heq⟩ := Option.map_eq_some_iff.mp h
  cases heq
  exact fun b hb ↦ hline b (List.mem_of_mem_drop hb)

theorem Headers.add_noBreak {keyName line : Str} {h : Headers} (hline : NoBreak CR LF line)
    (hprotocol : NoBreak CR LF h.protocol) : NoBreak CR LF (h.add keyName line).protocol := by
  rw [add]
  cases hheader : headerOf line with
  | none => exact hprotocol
  | some header =>
    have hvalue := @headerOf_noBreak _ header.1 _ hline hheader
    simp only [Option.elim_some, set]
    split
    · exact hprotocol
    · split
      · exact hprotocol
      · split
        · exact hprotocol
        · split
          · exact hvalue
          · exact hprotocol

/-- The protocol that is found in lines is part of a line. -/
theorem readHeaders_noBreak {keyName : Str} {h : Headers} {lines : List Str}
    (hlines : ∀ l ∈ lines, NoBreak CR LF l) (hprotocol : NoBreak CR LF h.protocol) :
    NoBreak CR LF (readHeaders LineSource.whole keyName h lines).1.protocol := by
  induction lines generalizing h with
  | nil =>
    rw [readHeaders_nil (rfl : LineSource.whole.readLine [] = ([], []))]
    exact hprotocol
  | cons l lines ih =>
    obtain ⟨hl, hlines⟩ := List.forall_mem_cons.mp hlines
    by_cases hnil : l = []
    · subst hnil
      rw [readHeaders_nil (rfl : LineSource.whole.readLine ([] :: lines) = ([], lines))]
      exact hprotocol
    · rw [readHeaders_cons hnil (rfl : LineSource.whole.readLine (l :: lines) = (l, lines))]
      exact ih hlines (Headers.add_noBreak hl hprotocol)

/-- Headers of other names leave the key as it is. -/
theorem Headers.key_foldl {keyName : Str} {lines : List Str} (h : Headers)
    (hlines : ∀ l ∈ lines, ∀ header ∈ headerOf l, header.1 ≠ keyName) :
    (lines.foldl (add keyName) h).key = h.key := by
  induction lines generalizing h with
  | nil => rfl
  | cons l lines ih =>
    obtain ⟨hl, hlines⟩ := List.forall_mem_cons.mp hlines
    have hkey : (h.add keyName l).key = h.key := by
      rw [add]
      cases hheader : headerOf l with
      | none => rfl
      | some header =>
        have hname := hl header hheader
        simp only [Option.elim_some, set, if_neg hname]
        split
        · rfl
        · split
          · rfl
          · split <;> rfl
    rw [List.foldl_cons, ih _ hlines, hkey]

/-! ### What the server writes -/

/-- The lines of a response behind the status line. -/
def responseHeaders (handshakeKey protocol : Str) : List Str :=
  [ascii "Upgrade: websocket", ascii "Connection: Upgrade",
    ascii "Sec-Websocket-Accept" ++ ascii ": " ++ handshakeKey] ++
  if protocol ≠ [] then [ascii "Sec-Websocket-Protocol" ++ ascii ": " ++ protocol] else []

/-- A property of all lines of a response behind the status line. -/
theorem forall_mem_responseHeaders {P : Str → Prop} {handshakeKey protocol : Str}
    (hupgrade : P (ascii "Upgrade: websocket")) (hconnection : P (ascii "Connection: Upgrade"))
    (haccept : P (ascii "Sec-Websocket-Accept" ++ ascii ": " ++ handshakeKey))
    (hprotocol : P (ascii "Sec-Websocket-Protocol" ++ ascii ": " ++ protocol)) :
    ∀ l ∈ responseHeaders handshakeKey protocol, P l := by
  rw [responseHeaders, List.forall_mem_append]
  constructor
  · simp only [List.forall_mem_cons, hupgrade, hconnection, haccept, true_and]
    exact List.forall_mem_nil _
  · split
    · rwa [List.forall_mem_singleton]
    · exact List.forall_mem_nil _

theorem handshakeResponse_eq (handshakeKey protocol : Str) :
    handshakeResponse handshakeKey protocol = unlines CR LF
      (ascii "HTTP/1.1 101 Switching Protocols" ::
        (responseHeaders handshakeKey protocol ++ [[]])) := by
  have hfixed :
      ascii "HTTP/1.1 101 Switching Protocols\r\nUpgrade: websocket\r\nConnection: Upgrade\r\n" =
        unlines CR LF [ascii "HTTP/1.1 101 Switching Protocols", ascii "Upgrade: websocket",
          ascii "Connection: Upgrade"] := by
    decide +kernel
  have hcrlf : ascii "\r\n" = [CR, LF] := by decide
  have haccept : ascii "Sec-Websocket-Accept: " = ascii "Sec-Websocket-Accept" ++ ascii ": " := by
    decide
  have hname : ascii "Sec-Websocket-Protocol: " = ascii "Sec-Websocket-Protocol" ++ ascii ": " := by
    decide
  rw [handshakeResponse, hfixed, hcrlf, haccept, hname, responseHeaders]
  by_cases hprotocol : protocol = []
  · simp [unlines, hprotocol]
  · simp [unlines, hprotocol]

/-- The lines of a response without line breaks in the answer of the callback. -/
theorem linesOf_handshakeResponse {handshakeKey protocol : Str}
    (hkey : NoBreak CR LF handshakeKey) (hprotocol : NoBreak CR LF protocol) :
    linesOf CR LF (handshakeResponse handshakeKey protocol) =
      ascii "HTTP/1.1 101 Switching Protocols" ::
        (responseHeaders handshakeKey protocol ++ [[]]) := by
  have hlines : ∀ l ∈ ascii "HTTP/1.1 101 Switching Protocols" ::
      (responseHeaders handshakeKey protocol ++ [[]]), NoBreak CR LF l := by
    rw [List.forall_mem_cons, List.forall_mem_append, List.forall_mem_singleton]
    refine ⟨by decide, forall_mem_responseHeaders (by decide) (by decide) ?_ ?_, noBreak_nil⟩
    · exact noBreak_append.mpr ⟨by decide, hkey⟩
    · exact noBreak_append.mpr ⟨by decide, hprotocol⟩
  rw [handshakeResponse_eq, ← List.append_nil (unlines CR LF _), linesOf_unlines hlines,
    linesOf_of_noBreak noBreak_nil, List.append_nil]

/-- The client does not find the key in the headers of a response. -/
theorem key_responseHeaders (handshakeKey protocol : Str) :
    ((responseHeaders handshakeKey protocol).foldl
      (Headers.add (ascii "Sec-WebSocket-Accept")) {}).key = [] := by
  refine Headers.key_foldl {} (forall_mem_responseHeaders ?_ ?_ ?_ ?_)
  · decide
  · decide
  · rw [headerOf_field (by decide)]
    rintro _ ⟨⟩
    dsimp only
    decide
  · rw [headerOf_field (by decide)]
    rintro _ ⟨⟩
    dsimp only
    decide

/-- The client does not find the key in a response of the server. -/
theorem readResponse_handshakeResponse {digest : Str → Bytes} {keyStr handshakeKey protocol : Str}
    (hkey : NoBreak CR LF handshakeKey) (unread : List Str) :
    readResponse LineSource.whole digest keyStr
        (linesOf CR LF (handshakeResponse handshakeKey protocol)) ≠
      .ok (some protocol, unread) := by
  intro hread
  have hprotocol : NoBreak CR LF protocol := by
    rw [← (readResponse_eq_some hread).2]
    refine readHeaders_noBreak (fun l hl ↦ ?_) noBreak_nil
    exact noBreak_of_mem_linesOf (s := handshakeResponse handshakeKey protocol)
      (List.mem_of_mem_tail hl)
  have hfeeds := LineSource.whole_feeds (ascii "HTTP/1.1 101 Switching Protocols" ::
    (responseHeaders handshakeKey protocol ++ [[]])) []
  rw [List.append_nil] at hfeeds
  have hheaders : ∀ l ∈ responseHeaders handshakeKey protocol, l ≠ [] := by
    refine forall_mem_responseHeaders (by decide) (by decide) ?_ ?_
    · exact List.append_ne_nil_of_left_ne_nil (by decide) _
    · exact List.append_ne_nil_of_left_ne_nil (by decide) _
  rw [linesOf_handshakeResponse hkey hprotocol] at hread
  have hfound := (readResponse_eq_some hread).1
  obtain ⟨t, hline, hfeeds⟩ := hfeeds
  rw [hline, readHeaders_of_feeds hheaders hfeeds] at hfound
  exact hfound (key_responseHeaders handshakeKey protocol)

/-- A client that has succeeded has read a response. -/
theorem initiateHandshake_eq_some {digest : Str → Bytes} {guid : Bytes} {path host protocol : Str}
    {protocols lines unread : List Str} {ws ws' : WebSocket}
    (h : initiateHandshake LineSource.whole digest guid path host protocols lines ws =
      .ok (some protocol, unread, ws')) :
    readResponse LineSource.whole digest (base64_encode guid) lines =
      .ok (some protocol, unread) := by
  rw [initiateHandshake] at h
  generalize ws.writeString _ = written at h
  cases written with
  | error e => cases h
  | ok written =>
    rw [ok_bind] at h
    split at h
    · cases hread : readResponse LineSource.whole digest (base64_encode guid) lines with
      | error e =>
        rw [hread] at h
        cases h
      | ok response =>
        rw [hread, ok_bind] at h
        obtain ⟨protocol', unread'⟩ := response
        cases h
        rfl
    · cases h

/-- **The two handshakes never agree.** -/
theorem handshakes_disagree (digest : Str → Bytes) (guid : Bytes) (path host : Str)
    (protocols : List Str) (protocolCallback : Option (List Str → Str)) :
    ¬HandshakesAgree digest guid path host protocols protocolCallback := by
  rintro ⟨ws, accepted, unread, unread', hclient, hserver⟩
  obtain ⟨text, hresponse⟩ := handleRawConnection_eq_some hserver
  have hread := initiateHandshake_eq_some hclient
  rw [hresponse] at hread
  exact readResponse_handshakeResponse (base64_encode_noBreak _) unread hread

/-- A client asks the host `robot` for the path `/`. -/
theorem plain_handshake_fails :
    ¬∀ (digest : Str → Bytes) (guid : Bytes) (path host : Str) (protocols : List Str)
      (protocolCallback : Option (List Str → Str)),
      (∀ b ∈ path ++ host, b ≠ SPACE ∧ isBreak CR LF b = false) →
      HandshakesAgree digest guid path host protocols protocolCallback := by
  intro h
  have hplain : ∀ b ∈ ascii "/" ++ ascii "robot", b ≠ SPACE ∧ isBreak CR LF b = false :=
    List.all_iff_forall_prop.mp (by decide)
  obtain ⟨ws, accepted, unread, unread', hclient, hserver⟩ :=
    h (fun _ ↦ []) [] (ascii "/") (ascii "robot") [] none hplain
  obtain ⟨text, hresponse⟩ := handleRawConnection_eq_some hserver
  have hread := initiateHandshake_eq_some hclient
  rw [hresponse] at hread
  exact readResponse_handshakeResponse (base64_encode_noBreak _) unread hread

end WebSockets
