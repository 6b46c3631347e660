import PicoRadio.WebSocket.LineSource

/-!
# The handshake

`initiateHandshake` writes a request and reads the response line by line, `handleRawConnection`
reads a request and writes the response. Both collect the headers they know in the same loop, the
one looking for `Sec-WebSocket-Accept` and the other for `Sec-WebSocket-Key`.

The digest of SHA-1 is a parameter, `protocolCallback` a function of the protocols that were asked
for.
-/

namespace WebSockets

/-- The number of the WebSocket protocol that both sides append to the key. -/
def WS_GUID : Str := ascii "258EAFA5-E914-47DA-95CA-C5AB0DC85B11"

def COLON : UInt8 := 58

def SPACE : UInt8 := 32

def COMMA : UInt8 := 44

/-- `views::split`. The empty range has no parts. -/
def splitView (separator : UInt8) (s : Str) : List Str :=
  if s = [] then [] else s.splitOn separator

/-- `s.find(c, start)` -/
def find (c : UInt8) (s : Str) (start : ℕ) : Option ℕ :=
  ((s.drop start).findIdx? (· == c)).map (start + ·)

def isspace (c : UInt8) : Bool :=
  c = 32 ∨ 9 ≤ c ∧ c ≤ 13

/-- Trim from start. -/
def ltrim (s : Str) : Str :=
  s.dropWhile isspace

/-- Trim from end. -/
def rtrim (s : Str) : Str :=
  (s.reverse.dropWhile isspace).reverse

def sEncodingTable (i : UInt8) : UInt8 :=
  (ascii "ABCDEFGHIJKLMNOPQRSTUVWXYZabcdefghijklmnopqrstuvwxyz0123456789+/").getD i.toNat 0

/-- Three bytes at a time are written as four characters. -/
def base64_encode : Bytes → Str
  | [] => []
  | [a] => [sEncodingTable (a >>> 2 &&& 0x3F), sEncodingTable ((a &&& 0x3) <<< 4)] ++ ascii "=="
  | [a, b] =>
    [sEncodingTable (a >>> 2 &&& 0x3F), sEncodingTable ((a &&& 0x3) <<< 4 ||| (b &&& 0xF0) >>> 4),
      sEncodingTable ((b &&& 0xF) <<< 2)] ++ ascii "="
  | a :: b :: c :: data =>
    [sEncodingTable (a >>> 2 &&& 0x3F), sEncodingTable ((a &&& 0x3) <<< 4 ||| (b &&& 0xF0) >>> 4),
      sEncodingTable ((b &&& 0xF) <<< 2 ||| (c &&& 0xC0) >>> 6), sEncodingTable (c &&& 0x3F)] ++
        base64_encode data

/-- `sha1.update(text)` and `sha1.final()`. -/
def sha1 (digest : Str → Bytes) (text : Str) : Str :=
  base64_encode (digest text)

/-! ### Headers -/

/-- What the loop over the header lines collects. -/
structure Headers where
  foundConnectionHeader : Bool := false
  foundUpgradeHeader : Bool := false
  /-- `acceptKey` on the side of the client, `clientKey` on the side of the server. -/
  key : Str := []
  /-- `acceptedProtocol` or `protocols`. -/
  protocol : Str := []
  deriving DecidableEq, Repr

/-- The name and the value of a header line. -/
def headerOf (line : Str) : Option (Str × Str) :=
  (find COLON line 0).map fun sep ↦
    let valueStart := (find SPACE line sep).getD sep
    (line.take sep, line.drop (valueStart + 1))

namespace Headers

/-- A header counts if its name is one of these, to the letter. -/
def set (keyName : Str) (h : Headers) (name value : Str) : Headers :=
  if name = ascii "Connection" ∧ value = ascii "Upgrade" then
    { h with foundConnectionHeader := true }
  else if name = ascii "Upgrade" ∧ value = ascii "websocket" then
    { h with foundUpgradeHeader := true }
  else if name = keyName then { h with key := value }
  else if name = ascii "Sec-WebSocket-Protocol" then { h with protocol := value }
  else h

/-- A line is read. -/
def add (keyName : Str) (h : Headers) (line : Str) : Headers :=
  (headerOf line).elim h fun header ↦ h.set keyName header.1 header.2

end Headers

/-! ### Header lines -/

theorem find_append {c : UInt8} {l : Str} (hl : c ∉ l) (rest : Str) :
    find c (l ++ c :: rest) 0 = some l.length := by
  have hfind : (l ++ c :: rest).findIdx? (· == c) = some l.length := by
    rw [List.findIdx?_append, List.findIdx?_eq_none_iff.mpr fun b hb ↦ ?_, Option.none_or,
      List.findIdx?_cons, if_pos (beq_self_eq_true c), Option.map_some, Nat.zero_add]
    rw [beq_eq_false_iff_ne]
    rintro rfl
    exact hl hb
  rw [find, List.drop_zero, hfind, Option.map_some, Nat.zero_add]

/-- A header as both sides write it. -/
theorem headerOf_field {name : Str} (hname : COLON ∉ name) (value : Str) :
    headerOf (name ++ ascii ": " ++ value) = some (name, value) := by
  have hline : name ++ ascii ": " ++ value = name ++ COLON :: SPACE :: value := by
    rw [List.append_assoc]
    rfl
  have hspace : find SPACE (name ++ COLON :: SPACE :: value) name.length =
      some (name.length + 1) := by
    rw [find, List.drop_left]
    rfl
  rw [headerOf, hline, find_append hname, Option.map_some]
  dsimp only
  rw [hspace, Option.getD_some, List.take_left, ← hline, List.drop_left']
  rw [List.length_append]
  rfl

theorem Headers.add_field (keyName : Str) (h : Headers) {name : Str} (hname : COLON ∉ name)
    (value : Str) : h.add keyName (name ++ ascii ": " ++ value) = h.set keyName name value := by
  rw [add, headerOf_field hname, Option.elim_some]

section Source

variable {σ : Type} (src : LineSource σ)

/-- Reads lines until an empty one. -/
def readHeaders (keyName : Str) (h : Headers) (s : σ) : Headers × σ :=
  let r := src.readLine s
  if r.1 = [] then (h.add keyName r.1, r.2)
  else readHeaders keyName (h.add keyName r.1) r.2
termination_by src.left s
decreasing_by exact src.left_lt s ‹_›

/-! ### The client -/

/-- The request of `initiateHandshake`. A comma follows each protocol that is not the last one. -/
def handshakeRequest (path host : Str) (protocols : List Str) (keyStr : Str) : Str :=
  ascii "GET " ++ path ++
    ascii " HTTP/1.1\r\nConnection: Upgrade\r\nUpgrade: websocket\r\nHost: " ++ host ++
    ascii "\r\nSec-WebSocket-Version: 13\r\nSec-WebSocket-Key: " ++ keyStr ++
    (if protocols.length > 0 then
      ascii "\r\nSec-WebSocket-Protocol: " ++ protocols.flatMap fun protocol ↦
        protocol ++ if some protocol ≠ protocols.getLast? then ascii ", " else []
    else []) ++
    ascii "\r\n\r\n"

/-- The protocol that is taken over, if the headers of the response are as they should be. -/
def acceptedProtocol (digest : Str → Bytes) (keyStr : Str) (h : Headers) : Option Str :=
  if !h.foundConnectionHeader || !h.foundUpgradeHeader || h.key.isEmpty then none
  else if h.key ≠ sha1 digest (keyStr ++ WS_GUID) then none
  else some h.protocol

/-- Reads the response: whether `initiateHandshake` returns true, and then with which
`serverProtocol`. -/
def readResponse (digest : Str → Bytes) (keyStr : Str) (s : σ) : Except Fault (Option Str × σ) :=
  let r := src.readLine s
  match (splitView SPACE r.1)[1]? with
  | none => .error .endIterator
  | some status =>
    if status ≠ ascii "101" then .ok (none, r.2)
    else
      let h := readHeaders src (ascii "Sec-WebSocket-Accept") {} r.2
      .ok (acceptedProtocol digest keyStr h.1, h.2)

/-- `stream->writeString`, which is done without the mutex. -/
def WebSocket.writeString (s : Str) (ws : WebSocket) : Except Fault (Bool × WebSocket) :=
  { ws with writes := ws.writes.tail }.writeBytes (ws.writes.headD .all) s

/-- Performs the handshake of a client with a random key. -/
def initiateHandshake (digest : Str → Bytes) (guid : Bytes) (path host : Str) (protocols : List Str)
    (s : σ) (ws : WebSocket) : Except Fault (Option Str × σ × WebSocket) := do
  let keyStr := base64_encode guid
  let written ← ws.writeString (handshakeRequest path host protocols keyStr)
  if written.1 then
    let response ← readResponse src digest keyStr s
    return (response.1, response.2, written.2)
  else return (none, s, written.2)

/-! ### The server -/

/-- A connection that becomes a client. -/
structure Accepted where
  path : Str
  response : Str
  serverProtocol : Str
  deriving DecidableEq, Repr

/-- The response to a request with this key. -/
def handshakeResponse (handshakeKey acceptedProtocol : Str) : Str :=
  ascii "HTTP/1.1 101 Switching Protocols\r\nUpgrade: websocket\r\nConnection: Upgrade\r\n" ++
    ascii "Sec-Websocket-Accept: " ++ handshakeKey ++ ascii "\r\n" ++
    (if acceptedProtocol ≠ [] then
      ascii "Sec-Websocket-Protocol: " ++ acceptedProtocol ++ ascii "\r\n"
    else []) ++
    ascii "\r\n"

/-- `requestedProtocols` -/
def requestedProtocols (protocols : Str) : List Str :=
  (splitView COMMA protocols).map fun elem ↦ rtrim (ltrim elem)

/-- The answer to the headers of a request. -/
def acceptRequest (digest : Str → Bytes) (protocolCallback : Option (List Str → Str))
    (atCapacity : Bool) (path : Str) (h : Headers) : Option Accepted :=
  if !h.foundConnectionHeader || !h.foundUpgradeHeader || h.key.isEmpty || atCapacity then none
  else
    let handshakeKey := sha1 digest (h.key ++ WS_GUID)
    let serverProtocol := protocolCallback.elim [] fun f ↦ f (requestedProtocols h.protocol)
    some { path, serverProtocol, response := handshakeResponse handshakeKey serverProtocol }

/-- `handleRawConnection`, up to the response, with the four bytes that it reads first. A connection
that does not become a client is closed. -/
def handleRawConnection (digest : Str → Bytes) (protocolCallback : Option (List Str → Str))
    (atCapacity : Bool) (methodBuf : Bytes) (s : σ) : Except Fault (Option Accepted × σ) :=
  if methodBuf ≠ ascii "GET " then .ok (none, s)
  else
    let r := src.readLine s
    match (splitView SPACE r.1)[0]? with
    | none => .error .endIterator
    | some path =>
      let h := readHeaders src (ascii "Sec-WebSocket-Key") {} r.2
      .ok (acceptRequest digest protocolCallback atCapacity path h.1, h.2)

/-! ### The loop over the headers -/

variable {src} {keyName : Str} {h : Headers} {s s' : σ}

theorem readHeaders_nil (hread : src.readLine s = ([], s')) :
    readHeaders src keyName h s = (h, s') := by
  rw [readHeaders]
  simp only [hread, if_true]
  rfl

theorem readHeaders_cons {l : Str} (hl : l ≠ []) (hread : src.readLine s = (l, s')) :
    readHeaders src keyName h s = readHeaders src keyName (h.add keyName l) s' := by
  conv => lhs; rw [readHeaders]
  simp only [hread, if_neg hl]

/-- Lines and an empty line are read. -/
theorem readHeaders_of_feeds {lines : List Str} (hlines : ∀ l ∈ lines, l ≠ [])
    (hfeeds : src.Feeds s (lines ++ [[]]) s') :
    readHeaders src keyName h s = (lines.foldl (Headers.add keyName) h, s') := by
  induction lines generalizing h s with
  | nil =>
    obtain ⟨t, hread, rfl⟩ := hfeeds
    exact readHeaders_nil hread
  | cons l lines ih =>
    obtain ⟨hl, hlines⟩ := List.forall_mem_cons.mp hlines
    obtain ⟨t, hread, hfeeds⟩ := hfeeds
    rw [readHeaders_cons hl hread, ih hlines hfeeds, List.foldl_cons]

/-- The response is read from lines as from a list of them. -/
theorem readResponse_of_feeds {digest : Str → Bytes} {keyStr statusLine : Str} {headers : List Str}
    (hheaders : ∀ l ∈ headers, l ≠ []) (hfeeds : src.Feeds s (statusLine :: headers ++ [[]]) s')
    (hstatus : (splitView SPACE statusLine)[1]? = some (ascii "101")) :
    readResponse src digest keyStr s = .ok (acceptedProtocol digest keyStr
      (headers.foldl (Headers.add (ascii "Sec-WebSocket-Accept")) {}), s') := by
  obtain ⟨t, hread, hfeeds⟩ := hfeeds
  rw [readResponse]
  simp only [hread, hstatus, ne_eq, not_true_eq_false, if_false]
  rw [readHeaders_of_feeds hheaders hfeeds]

/-- A client that accepts has found a key and the protocol that it takes over. -/
theorem readResponse_eq_some {digest : Str → Bytes} {keyStr protocol : Str}
    (hread : readResponse src digest keyStr s = .ok (some protocol, s')) :
    let h := readHeaders src (ascii "Sec-WebSocket-Accept") {} (src.readLine s).2
    h.1.key ≠ [] ∧ h.1.protocol = protocol := by
  rw [readResponse] at hread
  dsimp only at hread ⊢
  split at hread
  · cases hread
  · split at hread
    · cases hread
    · have haccepted := congrArg Prod.fst (Except.ok.inj hread)
      dsimp only at haccepted
      rw [acceptedProtocol] at haccepted
      split at haccepted
      · cases haccepted
      · next htest =>
        split at haccepted
        · cases haccepted
        · exact ⟨fun hkey ↦ htest (by simp [hkey]), Option.some.inj haccepted⟩

/-- A client that is accepted gets the response to some key, with the protocol of its socket. -/
theorem handleRawConnection_eq_some {digest : Str → Bytes}
    {protocolCallback : Option (List Str → Str)} {atCapacity : Bool} {methodBuf : Bytes}
    {accepted : Accepted}
    (h : handleRawConnection src digest protocolCallback atCapacity methodBuf s =
      .ok (some accepted, s')) :
    ∃ text, accepted.response =
      handshakeResponse (sha1 digest text) accepted.serverProtocol := by
  rw [handleRawConnection] at h
  split at h
  · cases h
  · dsimp only at h
    split at h
    · cases h
    · have haccepted := congrArg Prod.fst (Except.ok.inj h)
      dsimp only at haccepted
      rw [acceptRequest] at haccepted
      split at haccepted
      · cases haccepted
      · obtain rfl := Option.some.inj haccepted
        exact ⟨_, rfl⟩

end Source

end WebSockets
