import PicoRadio.Dhcp.Leases

/-!
# Options

The options of a message are a list behind its header, each with its length, and end with a mark.
`opt_find` walks along the lengths. In a message whose options are such a list it finds the first
option that it looks for (`opt_find_encode`); so a packet with well formed options is read without a
fault, and what is done does not depend on what was on the stack (`process_packet`).

The server writes such a list itself: `reply_eq` says what it sends, byte for byte.

## Messages that are well formed

`Message` is a message whose options are a list in which each has its length, with the end mark
behind them and maybe more behind that. What a client asks for can then be read off the list
(`asks`). The single bytes without a length that padding may consist of are none of these options:
the walk takes the byte after them for their length.

In a packet that does not have this form the walk may come to the bytes that lay on the stack, or
leave the message, which is a fault.
-/

namespace Dhcp

open Cells

/-- An option. Its length fits into a byte, and it is not taken for the end. -/
structure Opt where
  cmd : UInt8
  data : Bytes
  cmd_ne : cmd ≠ DHCP_OPT_END
  length_lt : data.length < 256

/-- An option in a message. -/
def Opt.bytes (o : Opt) : Bytes :=
  o.cmd :: o.data.length.toUInt8 :: o.data

/-- Options in a message. -/
def encode (os : List Opt) : Bytes :=
  os.flatMap Opt.bytes

/-- Where the first option of this kind begins. -/
def offset (cmd : UInt8) : List Opt → Option ℕ
  | [] => none
  | o :: os => if o.cmd = cmd then some 0 else (offset cmd os).map (o.bytes.length + ·)

/-- The data of the first option of this kind. -/
def optionData (cmd : UInt8) (os : List Opt) : Option Bytes :=
  (os.find? fun o ↦ o.cmd = cmd).map Opt.data

theorem encode_cons (o : Opt) (os : List Opt) : encode (o :: os) = o.bytes ++ encode os :=
  List.flatMap_cons

theorem length_bytes (o : Opt) : o.bytes.length = o.data.length + 2 :=
  rfl

/-! ### The walk -/

theorem load_append (pre : Bytes) (a : UInt8) (l : Bytes) {i : ℕ} (hi : i = pre.length) :
    load (pre ++ a :: l) i = .ok a := by
  subst hi
  refine load_of_getElem? ?_
  rw [List.getElem?_append_right le_rfl, Nat.sub_self]
  rfl

section Walk

variable {opt : Bytes} {cmd : UInt8} {i : ℕ}

theorem opt_find_of_end (h : load opt i = .ok DHCP_OPT_END) : opt_find opt cmd i = .ok none := by
  rw [opt_find]
  split
  · rw [h, ok_bind, if_pos rfl]
    rfl
  · rfl

theorem opt_find_of_found (hi : i < 308) (hcmd : cmd ≠ DHCP_OPT_END) (h : load opt i = .ok cmd) :
    opt_find opt cmd i = .ok (some i) := by
  rw [opt_find, if_pos hi, h, ok_bind, if_neg hcmd, if_pos rfl]
  rfl

theorem opt_find_of_other (hi : i < 308) {c length : UInt8} (hend : c ≠ DHCP_OPT_END)
    (hc : c ≠ cmd) (h : load opt i = .ok c) (hlength : load opt (i + 1 : ℕ) = .ok length) :
    opt_find opt cmd i = opt_find opt cmd (i + 2 + length.toNat) := by
  rw [opt_find, if_pos hi, h, ok_bind, if_neg hend, if_neg hc, hlength, ok_bind]

end Walk

/-- In a list of options the walk finds the first one of its kind. -/
theorem opt_find_encode {cmd : UInt8} (hcmd : cmd ≠ DHCP_OPT_END) (os : List Opt) (pre l : Bytes)
    (hfits : pre.length + (encode os).length < 308) :
    opt_find (pre ++ (encode os ++ DHCP_OPT_END :: l)) cmd pre.length =
      .ok ((offset cmd os).map (pre.length + ·)) := by
  induction os generalizing pre with
  | nil => exact opt_find_of_end (load_append pre _ l rfl)
  | cons o os ih =>
    rw [encode_cons, List.length_append, length_bytes] at hfits
    rw [encode_cons, offset]
    have hlist : pre ++ (o.bytes ++ encode os ++ DHCP_OPT_END :: l) = pre ++ o.cmd ::
        (o.data.length.toUInt8 :: (o.data ++ (encode os ++ DHCP_OPT_END :: l))) := by
      rw [Opt.bytes, List.append_assoc]
      rfl
    have hload : load (pre ++ (o.bytes ++ encode os ++ DHCP_OPT_END :: l)) pre.length =
        .ok o.cmd := by
      rw [hlist]
      exact load_append pre _ _ rfl
    rcases eq_or_ne o.cmd cmd with rfl | hne
    · rw [if_pos rfl, opt_find_of_found (by omega) hcmd hload]
      rfl
    · have hlength : load (pre ++ (o.bytes ++ encode os ++ DHCP_OPT_END :: l))
          (pre.length + 1 : ℕ) = .ok o.data.length.toUInt8 := by
        rw [hlist, ← List.singleton_append, ← List.append_assoc]
        exact load_append _ _ _ (by rw [List.length_append, List.length_singleton])
      have hnat : o.data.length.toUInt8.toNat = o.data.length :=
        UInt8.toNat_ofNat_of_lt' o.length_lt
      have hpre : pre.length + 2 + o.data.length = (pre ++ o.bytes).length := by
        rw [List.length_append, length_bytes]
        omega
      rw [if_neg hne, opt_find_of_other (by omega) o.cmd_ne hne hload hlength, hnat, hpre,
        List.append_assoc, ← List.append_assoc pre, ih (pre ++ o.bytes)
          (by rw [List.length_append, length_bytes]; omega), Option.map_map]
      congr 1
      refine congrArg (Option.map · _) (funext fun k ↦ ?_)
      rw [Function.comp, List.length_append, Nat.add_assoc]

theorem optionData_cons (cmd : UInt8) (o : Opt) (os : List Opt) :
    optionData cmd (o :: os) = if o.cmd = cmd then some o.data else optionData cmd os := by
  rw [optionData, List.find?_cons]
  by_cases h : o.cmd = cmd
  · simp [h]
  · simp [h, optionData]

theorem offset_eq_none {cmd : UInt8} {os : List Opt} :
    offset cmd os = none ↔ optionData cmd os = none := by
  induction os with
  | nil => exact iff_of_true rfl rfl
  | cons o os ih =>
    rw [offset, optionData_cons]
    split
    · simp
    · rw [Option.map_eq_none_iff, ih]

/-- What lies behind the head of an option that was found. -/
theorem getElem?_offset {cmd : UInt8} {os : List Opt} {k : ℕ} (hk : offset cmd os = some k)
    (l : Bytes) : ∃ data, optionData cmd os = some data ∧
      ∀ (j : ℕ) (hj : j < data.length), (encode os ++ l)[k + 2 + j]? = some data[j] := by
  induction os generalizing k with
  | nil => cases hk
  | cons o os ih =>
    rw [offset] at hk
    rw [optionData_cons, encode_cons, List.append_assoc]
    split at hk
    · next heq =>
      obtain rfl := Option.some.inj hk
      refine ⟨o.data, if_pos heq, fun j hj ↦ ?_⟩
      have hindex : 0 + 2 + j = j + 1 + 1 := by omega
      rw [Opt.bytes, hindex, List.cons_append, List.cons_append, List.getElem?_cons_succ,
        List.getElem?_cons_succ, List.getElem?_append_left hj, List.getElem?_eq_getElem hj]
    · next hne =>
      obtain ⟨k', hk', rfl⟩ := Option.map_eq_some_iff.mp hk
      obtain ⟨data, hdata, hbytes⟩ := ih hk'
      refine ⟨data, (if_neg hne).trans hdata, fun j hj ↦ ?_⟩
      have hindex : o.bytes.length + k' + 2 + j - o.bytes.length = k' + 2 + j := by omega
      rw [List.getElem?_append_right (by omega), hindex]
      exact hbytes j hj

/-! ### Well formed packets -/

/-- A message with a header of the usual size, options that fit into it, and maybe more. -/
structure Message where
  header : Vector UInt8 optionsOffset
  options : List Opt
  rest : Bytes := []
  fits : (encode options).length < 308
  /-- If there is a type of the message, it is not empty. -/
  type : ∀ data ∈ optionData DHCP_OPT_MSG_TYPE options, data ≠ []
  /-- An address has four bytes. -/
  requested : ∀ data ∈ optionData DHCP_OPT_REQUESTED_IP options, 4 ≤ data.length

/-- The packet in which a message arrives. -/
def Message.packet (m : Message) (stack : Vector UInt8 messageSize) (clock : ℕ → ℕ) : Packet where
  data := m.header.toList ++ (encode m.options ++ DHCP_OPT_END :: m.rest)
  stack := stack
  clock := clock

/-- What the options ask for. -/
def asks (ip : Ip) (os : List Opt) : Request :=
  let type := (optionData DHCP_OPT_MSG_TYPE os).bind List.head?
  if type = some DHCPDISCOVER then .discover
  else if type = some DHCPREQUEST then
    (optionData DHCP_OPT_REQUESTED_IP os).elim .ignored fun data ↦
      if data.take 3 = ip.toList.take 3 then .request (data.getD 3 0 - DHCPS_BASE_IP).toNat
      else .ignored
  else .ignored

section Message

variable (m : Message) (stack : Vector UInt8 messageSize) (clock : ℕ → ℕ)

theorem options_packet :
    ∃ l, (m.packet stack clock).options = encode m.options ++ DHCP_OPT_END :: l := by
  have hheader : m.header.toList.length = optionsOffset := m.header.length_toList
  have hfits := m.fits
  have hcore : (m.header.toList ++ (encode m.options ++ [DHCP_OPT_END])).length ≤ messageSize := by
    rw [List.length_append, List.length_append, hheader, optionsOffset, messageSize,
      List.length_singleton]
    omega
  have hdata : (m.packet stack clock).data =
      m.header.toList ++ (encode m.options ++ [DHCP_OPT_END]) ++ m.rest := by
    rw [Message.packet, List.append_assoc, List.append_assoc, List.singleton_append]
  refine ⟨m.rest.take (messageSize -
    (m.header.toList ++ (encode m.options ++ [DHCP_OPT_END])).length) ++
      stack.toList.drop (m.packet stack clock).data.length, ?_⟩
  have hstack : (m.packet stack clock).stack = stack := rfl
  rw [Packet.options, Packet.message, hstack, hdata, List.take_append, List.take_of_length_le hcore,
    List.append_assoc, List.append_assoc, List.drop_left' hheader, List.append_assoc,
    List.singleton_append]

theorem opt_find_packet {cmd : UInt8} (hcmd : cmd ≠ DHCP_OPT_END) :
    opt_find (m.packet stack clock).options cmd 0 = .ok (offset cmd m.options) := by
  obtain ⟨l, hl⟩ := options_packet m stack clock
  have hfind := @opt_find_encode cmd hcmd m.options [] l
    (by rw [List.length_nil, Nat.zero_add]; exact m.fits)
  rw [hl]
  simpa using hfind

/-- A packet that is too short has no options. -/
theorem options_of_short (h : (m.packet stack clock).data.length < DHCP_MIN_SIZE) :
    m.options = [] := by
  have hheader : m.header.toList.length = optionsOffset := m.header.length_toList
  rcases hoptions : m.options with _ | ⟨o, os⟩
  · rfl
  · rw [Message.packet, hoptions, encode_cons, List.length_append, List.length_append,
      List.length_append, List.length_cons, length_bytes, hheader, optionsOffset,
      DHCP_MIN_SIZE] at h
    omega

/-- The data of an option can be read behind its head. -/
theorem load_packet {cmd : UInt8} {k : ℕ} (hk : offset cmd m.options = some k) :
    ∃ data, optionData cmd m.options = some data ∧ ∀ (j : ℕ) (hj : j < data.length),
      load (m.packet stack clock).options (k + 2 + j : ℕ) = .ok data[j] := by
  obtain ⟨l, hl⟩ := options_packet m stack clock
  obtain ⟨data, hdata, hbytes⟩ := getElem?_offset hk (DHCP_OPT_END :: l)
  refine ⟨data, hdata, fun j hj ↦ ?_⟩
  rw [hl]
  exact load_of_getElem? (hbytes j hj)

theorem take_three {l : Bytes} (h : 3 ≤ l.length) : l.take 3 = [l[0], l[1], l[2]] := by
  rw [List.take_succ_eq_append_getElem (by omega), List.take_succ_eq_append_getElem (by omega),
    List.take_succ_eq_append_getElem (by omega), List.take_zero]
  rfl

/-- The comparison of three bytes. -/
theorem take_three_iff {data : Bytes} (h : 4 ≤ data.length) (ip : Ip) :
    data.take 3 = ip.toList.take 3 ↔ data[0] = ip[0] ∧ data[1] = ip[1] ∧ data[2] = ip[2] := by
  have hip : ip.toList.length = 4 := ip.length_toList
  rw [take_three (by omega), take_three (by omega)]
  simp only [Vector.getElem_toList, List.cons.injEq, and_true]

/-- The address that is requested is read. -/
theorem readRequested_packet (ip : Ip) :
    (m.packet stack clock).readRequested ip =
      .ok ((optionData DHCP_OPT_REQUESTED_IP m.options).elim .ignored fun data ↦
        if data.take 3 = ip.toList.take 3 then .request (data.getD 3 0 - DHCPS_BASE_IP).toNat
        else .ignored) := by
  rw [Packet.readRequested, opt_find_packet m stack clock (by decide), ok_bind]
  rcases hk : offset DHCP_OPT_REQUESTED_IP m.options with _ | k
  · rw [offset_eq_none.mp hk]
    rfl
  · obtain ⟨data, hdata, hload⟩ := load_packet m stack clock hk
    have hlength := m.requested data hdata
    dsimp only
    rw [hdata, hload 0 (by omega), hload 1 (by omega), hload 2 (by omega), hload 3 (by omega)]
    simp only [ok_bind, Option.elim_some]
    rw [List.getD_eq_getElem?_getD, List.getElem?_eq_getElem hlength, Option.getD_some]
    have hiff := take_three_iff hlength ip
    split
    · next hother =>
      rw [if_neg (by tauto)]
      rfl
    · next hsame =>
      rw [if_pos (by tauto)]
      rfl

/-- A message is read as its options say, whatever lies on the stack. -/
theorem read_packet (ip : Ip) : (m.packet stack clock).read ip = .ok (asks ip m.options) := by
  rw [Packet.read, asks]
  split
  · next hshort =>
    rw [options_of_short m stack clock hshort]
    rfl
  · rw [opt_find_packet m stack clock (by decide), ok_bind]
    rcases hk : offset DHCP_OPT_MSG_TYPE m.options with _ | k
    · rw [offset_eq_none.mp hk]
      rfl
    · obtain ⟨data, hdata, hload⟩ := load_packet m stack clock hk
      have hpos := List.length_pos_of_ne_nil (m.type data hdata)
      have hhead : data.head? = some data[0] :=
        List.head?_eq_getElem? ▸ List.getElem?_eq_getElem hpos
      dsimp only
      rw [hdata, Option.bind_some, hhead, hload 0 hpos, ok_bind, readRequested_packet]
      simp only [Option.some.injEq]
      split
      · rfl
      · split
        · rfl
        · rfl

end Message

/-! ### The reply -/

/-- The options of a reply. -/
def replyOptions (d : Server) (type : UInt8) : List Opt :=
  [⟨DHCP_OPT_MSG_TYPE, [type], by decide, by simp⟩,
    ⟨DHCP_OPT_SERVER_ID, d.ip.toList, by decide, by simp⟩,
    ⟨DHCP_OPT_SUBNET_MASK, d.nm.toList, by decide, by simp⟩,
    ⟨DHCP_OPT_ROUTER, d.ip.toList, by decide, by simp⟩,
    ⟨DHCP_OPT_DNS, d.ip.toList, by decide, by simp⟩,
    ⟨DHCP_OPT_IP_LEASE_TIME, bigEndian 4 DEFAULT_LEASE_TIME_S, by decide, by simp⟩]

/-- A reply: the header of the packet with another operation and the address of the lease, and the
options of the server. -/
def datagram (d : Server) (header : Bytes) (answer : UInt8 × ℕ) : Bytes :=
  DHCPOFFER :: (header.take 16).drop 1 ++
    (d.ip.toList.take 3 ++ [DHCPS_BASE_IP + answer.2.toUInt8]) ++ header.drop 20 ++
      encode (replyOptions d answer.1) ++ [DHCP_OPT_END]

section Reply

variable {d : Server} {p : Packet}

theorem copy_of_le {cells src : Bytes} {i : ℕ} (h : i + src.length ≤ cells.length) :
    copy cells i src = .ok (cells.take i ++ src ++ cells.drop (i + src.length)) := by
  rw [copy, if_pos h]

/-- An option is written behind what is written. -/
theorem opt_write_n_append (cmd : UInt8) (data : Bytes) {pre l : Bytes}
    (h : data.length + 2 ≤ l.length) :
    opt_write_n cmd data (pre ++ l, pre.length) =
      .ok (pre ++ (cmd :: data.length.toUInt8 :: data) ++ l.drop (data.length + 2),
        (pre ++ (cmd :: data.length.toUInt8 :: data)).length) := by
  have hcopy := @copy_append _ pre l (cmd :: data.length.toUInt8 :: data) pre.length rfl h
  rw [opt_write_n]
  dsimp only
  rw [hcopy, List.length_append]
  rfl

/-- The operation and the address are written into the header. -/
theorem copy_header {header l address : Bytes} (hheader : header.length = 240)
    (haddress : address.length = 4) : copy (header ++ l) 0 [DHCPOFFER] =
        .ok (DHCPOFFER :: header.drop 1 ++ l) ∧ copy (DHCPOFFER :: header.drop 1 ++ l) 16 address =
      .ok (DHCPOFFER :: (header.take 16).drop 1 ++ address ++ header.drop 20 ++ l) := by
  constructor
  · rw [copy_of_le (by simp; omega), List.length_singleton,
      List.drop_append_of_le_length (by omega)]
    rfl
  · rw [copy_of_le (by simp [haddress]; omega), haddress, List.cons_append, List.take_succ_cons,
      List.drop_succ_cons, List.take_append_of_le_length (by simp; omega),
      List.drop_append_of_le_length (by simp; omega), List.drop_drop, List.drop_take]
    simp

/-- The header comes from the packet. -/
theorem message_eq (hp : ¬p.data.length < DHCP_MIN_SIZE) :
    p.message = p.data.take optionsOffset ++ p.options ∧ p.options.length = 308 := by
  rw [DHCP_MIN_SIZE] at hp
  have hlength : p.message.length = messageSize := by
    rw [Packet.message, List.length_append, List.length_take, List.length_drop,
      Vector.length_toList, messageSize]
    omega
  have htake : p.message.take optionsOffset = p.data.take optionsOffset := by
    rw [Packet.message, List.take_append_of_le_length, List.take_take, messageSize, optionsOffset]
    · rfl
    · rw [List.length_take, messageSize, optionsOffset]
      omega
  refine ⟨?_, ?_⟩
  · rw [← htake, Packet.options, List.take_append_drop]
  · rw [Packet.options, List.length_drop, hlength]
    rfl

/-- What is sent, byte for byte: nothing of the stack is in it. -/
theorem reply_eq (hp : ¬p.data.length < DHCP_MIN_SIZE) (answer : UInt8 × ℕ) :
    d.reply p answer = .ok (datagram d (p.data.take optionsOffset) answer) := by
  obtain ⟨hmessage, hl⟩ := message_eq hp
  have hheader : (p.data.take optionsOffset).length = 240 := by
    rw [DHCP_MIN_SIZE] at hp
    rw [List.length_take, optionsOffset]
    omega
  have haddress : (d.ip.toList.take 3 ++ [DHCPS_BASE_IP + answer.2.toUInt8]).length = 4 := by
    rw [List.length_append, List.length_take, Vector.length_toList]
    rfl
  have hip : d.ip.toList.length = 4 := d.ip.length_toList
  have hnm : d.nm.toList.length = 4 := d.nm.length_toList
  rw [Server.reply, hmessage, datagram]
  generalize p.data.take optionsOffset = header at *
  generalize p.options = l at *
  obtain ⟨hop, hyiaddr⟩ := copy_header (l := l) hheader haddress
  rw [hop, ok_bind, hyiaddr, ok_bind]
  have hstart : (DHCPOFFER :: (header.take 16).drop 1 ++
      (d.ip.toList.take 3 ++ [DHCPS_BASE_IP + answer.2.toUInt8]) ++ header.drop 20).length =
        optionsOffset := by
    rw [List.length_append, List.length_append, haddress, List.length_cons, List.length_drop,
      List.length_drop, List.length_take, hheader]
    rfl
  generalize DHCPOFFER :: (header.take 16).drop 1 ++
    (d.ip.toList.take 3 ++ [DHCPS_BASE_IP + answer.2.toUInt8]) ++ header.drop 20 = start at *
  have htype : [answer.1].length = 1 := rfl
  have htime : (bigEndian 4 DEFAULT_LEASE_TIME_S).length = 4 := length_bigEndian 4 _
  rw [← hstart, opt_write_u8, opt_write_n_append _ _ (by rw [hl, htype]; omega), ok_bind,
    opt_write_n_append _ _ (by simp only [List.length_drop, hl, htype, hip]; omega), ok_bind,
    opt_write_n_append _ _ (by simp only [List.length_drop, hl, htype, hip, hnm]; omega), ok_bind,
    opt_write_n_append _ _ (by simp only [List.length_drop, hl, htype, hip, hnm]; omega), ok_bind,
    opt_write_n_append _ _ (by simp only [List.length_drop, hl, htype, hip, hnm]; omega), ok_bind,
    opt_write_u32, opt_write_n_append _ _
      (by simp only [List.length_drop, hl, htype, hip, hnm, htime]; omega), ok_bind,
    copy_append rfl
      (by simp only [List.length_drop, hl, htype, hip, hnm, htime, List.length_singleton]; omega),
    ok_bind]
  refine congrArg Except.ok ?_
  rw [List.take_left' (by rw [List.length_append]; rfl)]
  simp only [encode, replyOptions, Opt.bytes, List.flatMap_cons, List.flatMap_nil,
    List.append_assoc, List.append_nil]

/-- The client finds the options of the server in what is sent. -/
theorem opt_find_datagram (d : Server) {header : Bytes} (hheader : header.length = optionsOffset)
    (answer : UInt8 × ℕ) {cmd : UInt8} (hcmd : cmd ≠ DHCP_OPT_END) :
    opt_find ((datagram d header answer).drop optionsOffset) cmd 0 =
      .ok (offset cmd (replyOptions d answer.1)) := by
  have hstart : (DHCPOFFER :: (header.take 16).drop 1 ++
      (d.ip.toList.take 3 ++ [DHCPS_BASE_IP + answer.2.toUInt8]) ++ header.drop 20).length =
        optionsOffset := by
    simp [hheader, optionsOffset]
  have hlength : (encode (replyOptions d answer.1)).length = 33 := by
    simp [encode, replyOptions, Opt.bytes]
  have hfind := @opt_find_encode cmd hcmd (replyOptions d answer.1) [] []
    (by rw [hlength]; decide)
  rw [datagram, List.append_assoc, List.drop_left' hstart]
  simpa using hfind

theorem discover_congr {q : Packet} (hchaddr : p.chaddr = q.chaddr) (hclock : p.clock = q.clock)
    (i yi : ℕ) (lease : Vector Lease DHCPS_MAX_IP) :
    discover p i yi lease = discover q i yi lease := by
  have hticks : p.ticks = q.ticks := by
    funext i
    rw [Packet.ticks, Packet.ticks, hclock]
  induction i, yi, lease using discover.induct p with
  | case1 i yi lease hi hmac =>
    rw [discover_match hi hmac, discover_match hi (hmac.trans hchaddr)]
  | case2 i lease hi hmac hexpired ih =>
    rw [discover_expired hi hmac hexpired, ih]
    rw [hchaddr] at hmac
    rw [hticks] at hexpired
    rw [discover_expired hi hmac hexpired]
  | case3 i lease hi hmac hexpired ih =>
    rw [dite_eq_ite] at ih
    rw [discover_free hi hmac hexpired, ih]
    rw [hchaddr] at hmac
    rw [hticks] at hexpired
    rw [discover_free hi hmac hexpired]
  | case4 i yi lease hi hmac hyi ih =>
    rw [discover_chosen hi hmac hyi, ih]
    rw [hchaddr] at hmac
    rw [discover_chosen hi hmac hyi]
  | case5 i yi lease hi => rw [discover_end hi, discover_end hi]

/-- What is done depends on the client and the clock only. -/
theorem act_congr {q : Packet} (hchaddr : p.chaddr = q.chaddr) (hclock : p.clock = q.clock)
    (r : Request) : d.act p r = d.act q r := by
  cases r with
  | discover => rw [Server.act, Server.act, discover_congr hchaddr hclock]
  | request yi => rw [Server.act, Server.act, Packet.ticks, Packet.ticks, hchaddr, hclock]
  | ignored => rfl

/-- The hardware address is in the header. -/
theorem chaddr_packet (m : Message) (stack : Vector UInt8 messageSize) (clock : ℕ → ℕ) :
    (m.packet stack clock).chaddr = .ofFn fun i ↦ m.header.toList.getD (28 + i) 0 := by
  have hheader : m.header.toList.length = 240 := m.header.length_toList
  have hdata : 240 ≤ (m.packet stack clock).data.length := by
    rw [Message.packet, List.length_append, hheader]
    exact Nat.le_add_right _ _
  have hlt : ∀ i < 6, 28 + i < ((m.packet stack clock).data.take messageSize).length := by
    intro i hi
    rw [List.length_take, messageSize]
    omega
  refine Vector.ext fun i hi ↦ ?_
  have hsize : 28 + i < messageSize := by
    rw [messageSize]
    omega
  rw [Packet.chaddr, Vector.getElem_ofFn, Vector.getElem_ofFn, List.getD_eq_getElem?_getD,
    List.getD_eq_getElem?_getD, Packet.message, List.getElem?_append_left (hlt i hi),
    List.getElem?_take_of_lt hsize, Message.packet, List.getElem?_append_left (by omega)]

/-- A packet with a well formed message is handled without a fault: what is done is what the
options ask for, and it is the same whatever lies on the stack. -/
theorem process_packet (d : Server) (m : Message) (clock : ℕ → ℕ)
    (stack stack' : Vector UInt8 messageSize) :
    d.dhcp_server_process (m.packet stack clock) =
      .ok ((d.act (m.packet stack' clock) (asks d.ip m.options)).1.map
          (datagram d m.header.toList),
        (d.act (m.packet stack' clock) (asks d.ip m.options)).2) := by
  have hchaddr : (m.packet stack clock).chaddr = (m.packet stack' clock).chaddr := by
    rw [chaddr_packet, chaddr_packet]
  have hact := @act_congr d _ _ hchaddr rfl (asks d.ip m.options)
  rw [process_ok (read_packet m stack clock d.ip), hact]
  rcases hanswer : (d.act (m.packet stack' clock) (asks d.ip m.options)).1 with _ | answer
  · rfl
  · have hlong : ¬(m.packet stack clock).data.length < DHCP_MIN_SIZE := by
      intro hshort
      rw [options_of_short m stack clock hshort] at hanswer
      cases hanswer
    have hheader : (m.packet stack clock).data.take optionsOffset = m.header.toList :=
      List.take_left' m.header.length_toList
    rw [Option.mapM_some, reply_eq hlong, hheader]
    rfl

/-- A request for an address, with a host name before it and a list of parameters behind it. -/
def Message.sample : Message where
  header := (Vector.replicate optionsOffset 0).set 33 1 (by decide)
  options := [⟨12, [112, 105, 99, 111], by decide, by decide⟩,
    ⟨DHCP_OPT_MSG_TYPE, [3], by decide, by decide⟩,
    ⟨DHCP_OPT_REQUESTED_IP, [10, 67, 31, 17], by decide, by decide⟩,
    ⟨55, [1, 3, 6], by decide, by decide⟩]
  rest := [0, 0]
  fits := by decide
  type := by decide
  requested := by decide

/-- The address is acknowledged, whether there are zeros on the stack or not. -/
theorem process_packet_sample :
    sampleServer.dhcp_server_process (Message.sample.packet (.replicate messageSize 255) id) =
        .ok ((some (DHCPACK, 1)).map (datagram sampleServer Message.sample.header.toList),
          (sampleServer.act (Message.sample.packet (.replicate messageSize 0) id)
            (.request 1)).2) := by
  have hasks : asks sampleServer.ip Message.sample.options = .request 1 := by decide
  have hprocess := process_packet sampleServer .sample id (.replicate messageSize 255)
    (.replicate messageSize 0)
  rw [hasks] at hprocess
  refine hprocess.trans ?_
  have hanswer : (sampleServer.act (Message.sample.packet (.replicate messageSize 0) id)
      (.request 1)).1 = some (DHCPACK, 1) := by
    decide +kernel
  rw [hanswer]

end Reply

end Dhcp
