import PicoRadio.WebSocket.HandshakeAgreement

/-!
# The list of protocols

The client joins the protocols that it asks for, and the server splits what it finds at the commas
and trims the parts. The client leaves out the separator behind the last protocol, and tells the
last one by its value: a protocol that is the last one and stands further ahead too loses its
separator there, and is glued to the next one.
-/

namespace WebSockets

open Lines

/-- The value of the header `Sec-WebSocket-Protocol` that `initiateHandshake` writes. -/
def protocolsValue (protocols : List Str) : Str :=
  protocols.flatMap fun protocol ↦
    protocol ++ if some protocol ≠ protocols.getLast? then ascii ", " else []

/-- A name that can stand in the list: not empty, without commas, white space and line breaks. -/
structure IsProtocolName (name : Str) : Prop where
  ne_nil : name ≠ []
  comma_not_mem : COMMA ∉ name
  not_isspace : ∀ c ∈ name, ¬isspace c

instance (name : Str) : Decidable (IsProtocolName name) :=
  decidable_of_iff (name ≠ [] ∧ COMMA ∉ name ∧ (name.all fun c ↦ !isspace c) = true)
    ⟨fun h ↦ ⟨h.1, h.2.1, by simpa using h.2.2⟩,
      fun h ↦ ⟨h.ne_nil, h.comma_not_mem, by simpa using h.not_isspace⟩⟩

/-- The server hands to the callback what the client asks for. -/
def ProtocolsArrive (protocols : List Str) : Prop :=
  requestedProtocols (protocolsValue protocols) = protocols

/-- The last protocol is not asked for twice. -/
def LastOnce (protocols : List Str) : Prop :=
  ∀ protocol, protocols.getLast? = some protocol → protocol ∉ protocols.dropLast

/-! ### Joining -/

/-- Each of some protocols, with a separator if it is not this one. -/
def joinedBefore (last : Str) (protocols : List Str) : Str :=
  protocols.flatMap fun protocol ↦ protocol ++ if protocol ≠ last then ascii ", " else []

theorem protocolsValue_concat (protocols : List Str) (last : Str) :
    protocolsValue (protocols ++ [last]) = joinedBefore last protocols ++ last := by
  rw [protocolsValue, List.getLast?_concat, List.flatMap_append, List.flatMap_singleton,
    if_neg (not_not.mpr rfl), List.append_nil]
  simp only [joinedBefore, ne_eq, Option.some.injEq]

theorem joinedBefore_cons_self (last : Str) (protocols : List Str) :
    joinedBefore last (last :: protocols) = last ++ joinedBefore last protocols := by
  rw [joinedBefore, List.flatMap_cons, if_neg (not_not.mpr rfl), List.append_nil]
  rfl

theorem joinedBefore_cons {protocol last : Str} (h : protocol ≠ last) (protocols : List Str) :
    joinedBefore last (protocol :: protocols) =
      protocol ++ COMMA :: SPACE :: joinedBefore last protocols := by
  rw [joinedBefore, List.flatMap_cons, if_pos h, List.append_assoc]
  rfl

/-! ### Splitting -/

/-- The first part ends at the first separator. -/
theorem splitOn_joinedBefore_cons {before protocol last : Str} (h : protocol ≠ last)
    (hbefore : COMMA ∉ before) (hprotocol : COMMA ∉ protocol) (protocols : List Str) :
    (before ++ (joinedBefore last (protocol :: protocols) ++ last)).splitOn COMMA =
      (before ++ protocol) :: ([SPACE] ++ (joinedBefore last protocols ++ last)).splitOn COMMA := by
  have htext : before ++ (joinedBefore last (protocol :: protocols) ++ last) =
      (before ++ protocol) ++ COMMA :: ([SPACE] ++ (joinedBefore last protocols ++ last)) := by
    rw [joinedBefore_cons h]
    simp only [List.append_assoc, List.cons_append, List.nil_append]
  rw [htext, List.splitOn_append_cons_self_of_not_mem]
  rw [List.mem_append]
  exact not_or.mpr ⟨hbefore, hprotocol⟩

/-- Without a separator there is one part. -/
theorem splitOn_joinedBefore_nil {before last : Str} (hbefore : COMMA ∉ before)
    (hlast : COMMA ∉ last) :
    (before ++ (joinedBefore last [] ++ last)).splitOn COMMA = [before ++ last] := by
  rw [joinedBefore, List.flatMap_nil, List.nil_append, List.splitOn_eq_singleton]
  rw [List.mem_append]
  exact not_or.mpr ⟨hbefore, hlast⟩

/-- The parts are counted by the separators. -/
theorem length_splitOn_joinedBefore {last : Str} (hlast : COMMA ∉ last) {protocols : List Str}
    (hprotocols : ∀ protocol ∈ protocols, COMMA ∉ protocol) {before : Str}
    (hbefore : COMMA ∉ before) :
    ((before ++ (joinedBefore last protocols ++ last)).splitOn COMMA).length =
      (protocols.filter (· ≠ last)).length + 1 := by
  induction protocols generalizing before with
  | nil =>
    rw [splitOn_joinedBefore_nil hbefore hlast]
    rfl
  | cons protocol protocols ih =>
    obtain ⟨hprotocol, hprotocols⟩ := List.forall_mem_cons.mp hprotocols
    by_cases h : protocol = last
    · -- glued to what follows
      subst h
      rw [joinedBefore_cons_self, List.append_assoc, ← List.append_assoc,
        ih hprotocols (by rw [List.mem_append]; exact not_or.mpr ⟨hbefore, hlast⟩),
        List.filter_cons_of_neg (by simp)]
    · rw [splitOn_joinedBefore_cons h hbefore hprotocol, List.length_cons,
        ih hprotocols (by decide), List.filter_cons_of_pos (by simpa using h), List.length_cons]

/-- A name is trimmed to itself, whatever white space stands before it. -/
theorem trim_name {space name : Str} (hspace : ∀ c ∈ space, isspace c)
    (hname : ∀ c ∈ name, ¬isspace c) : rtrim (ltrim (space ++ name)) = name := by
  have hleft : ltrim (space ++ name) = name := by
    rw [ltrim, List.dropWhile_append_of_pos hspace]
    exact List.dropWhile_eq_self_iff.mpr fun hpos ↦ hname _ (List.getElem_mem hpos)
  rw [hleft, rtrim, List.dropWhile_eq_self_iff.mpr, List.reverse_reverse]
  exact fun hpos ↦ hname _ (List.mem_reverse.mp (List.getElem_mem hpos))

/-- With its separators every protocol is a part. -/
theorem map_trim_splitOn_joinedBefore {last : Str} (hlast : IsProtocolName last)
    {protocols : List Str} (hprotocols : ∀ protocol ∈ protocols, IsProtocolName protocol)
    (hnot : last ∉ protocols) {space : Str} (hspace : ∀ c ∈ space, isspace c) :
    ((space ++ (joinedBefore last protocols ++ last)).splitOn COMMA).map
      (fun elem ↦ rtrim (ltrim elem)) = protocols ++ [last] := by
  have hcomma : COMMA ∉ space := fun h ↦ absurd (hspace _ h) (by decide)
  induction protocols generalizing space with
  | nil =>
    rw [splitOn_joinedBefore_nil hcomma hlast.comma_not_mem, List.map_singleton,
      trim_name hspace hlast.not_isspace, List.nil_append]
  | cons protocol protocols ih =>
    obtain ⟨hprotocol, hprotocols⟩ := List.forall_mem_cons.mp hprotocols
    obtain ⟨hne, hnot⟩ := not_or.mp (mt List.mem_cons.mpr hnot)
    rw [splitOn_joinedBefore_cons (Ne.symm hne) hcomma hprotocol.comma_not_mem, List.map_cons,
      trim_name hspace hprotocol.not_isspace,
      ih hprotocols hnot (List.forall_mem_singleton.mpr rfl) (by decide), List.cons_append]

/-! ### Both -/

theorem protocolsValue_concat_ne_nil (protocols : List Str) {last : Str} (hlast : last ≠ []) :
    protocolsValue (protocols ++ [last]) ≠ [] := by
  rw [protocolsValue_concat]
  exact List.append_ne_nil_of_right_ne_nil _ hlast

/-- **The list of protocols arrives** exactly if its last one is not asked for twice. -/
theorem protocolsArrive_iff {protocols : List Str}
    (hprotocols : ∀ protocol ∈ protocols, IsProtocolName protocol) :
    ProtocolsArrive protocols ↔ LastOnce protocols := by
  rcases List.eq_nil_or_concat' protocols with rfl | ⟨protocols, last, rfl⟩
  · exact iff_of_true rfl fun _ _ ↦ List.not_mem_nil
  · rw [List.forall_mem_append, List.forall_mem_singleton] at hprotocols
    obtain ⟨hprotocols, hlast⟩ := hprotocols
    have honce : LastOnce (protocols ++ [last]) ↔ last ∉ protocols := by
      rw [LastOnce, List.getLast?_concat, List.dropLast_concat]
      exact ⟨fun h ↦ h last rfl, fun h protocol heq ↦ Option.some.inj heq ▸ h⟩
    rw [honce, ProtocolsArrive, requestedProtocols, splitView,
      if_neg (protocolsValue_concat_ne_nil protocols hlast.ne_nil), protocolsValue_concat]
    constructor
    · -- a protocol that is glued to another leaves a part too few
      intro harrive hmem
      have hlength := congrArg List.length harrive
      have hparts := length_splitOn_joinedBefore hlast.comma_not_mem
        (fun p hp ↦ (hprotocols p hp).comma_not_mem) (List.not_mem_nil (a := COMMA))
      rw [List.nil_append] at hparts
      have hfewer : (protocols.filter (· ≠ last)).length < protocols.length :=
        List.length_filter_lt_length_iff_exists.mpr ⟨last, hmem, by simp⟩
      rw [List.length_map, hparts, List.length_append, List.length_singleton] at hlength
      omega
    · intro hnot
      have htrim := map_trim_splitOn_joinedBefore hlast hprotocols hnot (List.forall_mem_nil _)
      rwa [List.nil_append] at htrim

theorem protocolsArrive_sample : ProtocolsArrive [ascii "a", ascii "a", ascii "b"] := by
  refine (protocolsArrive_iff ?_).mpr fun protocol hlast ↦ ?_
  · simp only [List.forall_mem_cons]
    exact ⟨by decide, by decide, by decide, List.forall_mem_nil _⟩
  · obtain rfl := Option.some.inj hlast
    decide

/-- The first of two equal names is glued to the name between them. -/
theorem repeated_protocol_glued : ¬∀ protocols : List Str,
    (∀ protocol ∈ protocols, IsProtocolName protocol) → ProtocolsArrive protocols := by
  intro h
  have harrive := h [ascii "a", ascii "b", ascii "a"] (by
    simp only [List.forall_mem_cons]
    exact ⟨by decide, by decide, by decide, List.forall_mem_nil _⟩)
  exact absurd harrive (by rw [ProtocolsArrive]; decide)

/-! ### Within the handshake -/

/-- The lines of a request behind the request line. -/
def requestHeaders (host : Str) (protocols : List Str) (keyStr : Str) : List Str :=
  [ascii "Connection: Upgrade", ascii "Upgrade: websocket", ascii "Host" ++ ascii ": " ++ host,
    ascii "Sec-WebSocket-Version" ++ ascii ": " ++ ascii "13",
    ascii "Sec-WebSocket-Key" ++ ascii ": " ++ keyStr] ++
  if protocols ≠ [] then
    [ascii "Sec-WebSocket-Protocol" ++ ascii ": " ++ protocolsValue protocols] else []

theorem handshakeRequest_eq (path host : Str) (protocols : List Str) (keyStr : Str) :
    handshakeRequest path host protocols keyStr = ascii "GET " ++ unlines CR LF
      ((path ++ ascii " HTTP/1.1") :: (requestHeaders host protocols keyStr ++ [[]])) := by
  have hfixed : ascii " HTTP/1.1\r\nConnection: Upgrade\r\nUpgrade: websocket\r\nHost: " =
      ascii " HTTP/1.1" ++ [CR, LF] ++ ascii "Connection: Upgrade" ++ [CR, LF] ++
        ascii "Upgrade: websocket" ++ [CR, LF] ++ ascii "Host" ++ ascii ": " := by
    decide +kernel
  have hkey : ascii "\r\nSec-WebSocket-Version: 13\r\nSec-WebSocket-Key: " =
      [CR, LF] ++ ascii "Sec-WebSocket-Version" ++ ascii ": " ++ ascii "13" ++ [CR, LF] ++
        ascii "Sec-WebSocket-Key" ++ ascii ": " := by
    decide +kernel
  have hprotocol : ascii "\r\nSec-WebSocket-Protocol: " =
      [CR, LF] ++ ascii "Sec-WebSocket-Protocol" ++ ascii ": " := by
    decide +kernel
  have hend : ascii "\r\n\r\n" = [CR, LF, CR, LF] := by decide
  rw [handshakeRequest, hfixed, hkey, hprotocol, hend, requestHeaders]
  by_cases hprotocols : protocols = []
  · simp [unlines, hprotocols]
  · simp [unlines, hprotocols, List.length_pos_iff, protocolsValue]

/-- What the server finds in the headers of a request. -/
theorem headers_requestHeaders (host : Str) (protocols : List Str) (keyStr : Str) :
    (requestHeaders host protocols keyStr).foldl (Headers.add (ascii "Sec-WebSocket-Key")) {} =
      { foundConnectionHeader := true, foundUpgradeHeader := true, key := keyStr
        protocol := protocolsValue protocols } := by
  have hconnection : Headers.add (ascii "Sec-WebSocket-Key") {} (ascii "Connection: Upgrade") =
      { foundConnectionHeader := true } := by decide
  have hupgrade : Headers.add (ascii "Sec-WebSocket-Key") { foundConnectionHeader := true }
      (ascii "Upgrade: websocket") =
        { foundConnectionHeader := true, foundUpgradeHeader := true } := by decide
  have hother {name : Str} (hname : name ≠ ascii "Connection" ∧ name ≠ ascii "Upgrade" ∧
      name ≠ ascii "Sec-WebSocket-Key" ∧ name ≠ ascii "Sec-WebSocket-Protocol") (value : Str)
      (h : Headers) : h.set (ascii "Sec-WebSocket-Key") name value = h := by
    rw [Headers.set, if_neg fun h ↦ hname.1 h.1, if_neg fun h ↦ hname.2.1 h.1,
      if_neg hname.2.2.1, if_neg hname.2.2.2]
  rw [requestHeaders, List.foldl_append, List.foldl_cons, hconnection, List.foldl_cons, hupgrade,
    List.foldl_cons, Headers.add_field _ _ (by decide), hother (by decide), List.foldl_cons,
    Headers.add_field _ _ (by decide), hother (by decide), List.foldl_cons,
    Headers.add_field _ _ (by decide), List.foldl_nil, Headers.set,
    if_neg fun h ↦ absurd h.1 (by decide), if_neg fun h ↦ absurd h.1 (by decide), if_pos rfl]
  split
  · rw [List.foldl_cons, Headers.add_field _ _ (by decide), List.foldl_nil, Headers.set,
      if_neg fun h ↦ absurd h.1 (by decide), if_neg fun h ↦ absurd h.1 (by decide),
      if_neg (by decide), if_pos rfl]
  · next hnil =>
    rw [not_not.mp hnil]
    rfl

/-- The server asks its callback for one of the protocols that it finds in the request. -/
theorem handleRawConnection_request (digest : Str → Bytes) (protocolCallback : List Str → Str)
    {path host keyStr : Str} {protocols : List Str} (hpath : NoBreak CR LF path)
    (hhost : NoBreak CR LF host) (hkey : NoBreak CR LF keyStr) (hne : keyStr ≠ [])
    (hprotocols : NoBreak CR LF (protocolsValue protocols)) :
    ∃ accepted unread, handleRawConnection LineSource.whole digest (some protocolCallback) false
        ((handshakeRequest path host protocols keyStr).take 4)
        (linesOf CR LF ((handshakeRequest path host protocols keyStr).drop 4)) =
          .ok (some accepted, unread) ∧
      accepted.serverProtocol =
        protocolCallback (requestedProtocols (protocolsValue protocols)) := by
  have hheaders : ∀ l ∈ requestHeaders host protocols keyStr, NoBreak CR LF l ∧ l ≠ [] := by
    rw [requestHeaders, List.forall_mem_append]
    constructor
    · simp only [List.forall_mem_cons]
      refine ⟨⟨by decide, by decide⟩, ⟨by decide, by decide⟩, ⟨?_, ?_⟩, ⟨by decide, by decide⟩,
        ⟨?_, ?_⟩, List.forall_mem_nil _⟩
      · exact noBreak_append.mpr ⟨by decide, hhost⟩
      · exact List.append_ne_nil_of_left_ne_nil (by decide) _
      · exact noBreak_append.mpr ⟨by decide, hkey⟩
      · exact List.append_ne_nil_of_left_ne_nil (by decide) _
    · split
      · exact List.forall_mem_singleton.mpr ⟨noBreak_append.mpr ⟨by decide, hprotocols⟩,
          List.append_ne_nil_of_left_ne_nil (by decide) _⟩
      · exact List.forall_mem_nil _
  have hlines : ∀ l ∈ (path ++ ascii " HTTP/1.1") :: (requestHeaders host protocols keyStr ++ [[]]),
      NoBreak CR LF l := by
    rw [List.forall_mem_cons, List.forall_mem_append, List.forall_mem_singleton]
    exact ⟨noBreak_append.mpr ⟨hpath, by decide⟩, fun l hl ↦ (hheaders l hl).1, noBreak_nil⟩
  have hpart : ∃ part, (splitView SPACE (path ++ ascii " HTTP/1.1"))[0]? = some part := by
    rw [splitView, if_neg (List.append_ne_nil_of_right_ne_nil _ (by decide))]
    obtain ⟨part, parts, hparts⟩ := List.exists_cons_of_ne_nil
      (List.splitOn_ne_nil SPACE (path ++ ascii " HTTP/1.1"))
    exact ⟨part, by rw [hparts]; rfl⟩
  obtain ⟨part, hpart⟩ := hpart
  have hfeeds := LineSource.whole_feeds (requestHeaders host protocols keyStr ++ [[]]) []
  rw [List.append_nil] at hfeeds
  rw [handshakeRequest_eq, List.take_left' (by decide), List.drop_left' (by decide),
    ← List.append_nil (unlines CR LF _), linesOf_unlines hlines, linesOf_of_noBreak noBreak_nil,
    List.append_nil, handleRawConnection, if_neg (not_not.mpr rfl)]
  have hread : LineSource.whole.readLine ((path ++ ascii " HTTP/1.1") ::
      (requestHeaders host protocols keyStr ++ [[]])) =
        (path ++ ascii " HTTP/1.1", requestHeaders host protocols keyStr ++ [[]]) := rfl
  simp only [hread, hpart, readHeaders_of_feeds (fun l hl ↦ (hheaders l hl).2) hfeeds,
    headers_requestHeaders]
  have htest : ¬(!true || !true || keyStr.isEmpty || false) = true := by
    simpa using hne
  rw [acceptRequest, if_neg htest]
  exact ⟨_, _, rfl, rfl⟩

end WebSockets
