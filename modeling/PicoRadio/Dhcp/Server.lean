import PicoRadio.Bytes
import PicoRadio.Library.Cells

/-!
# The DHCP server

`dhcp_server_process` answers one packet. It copies the packet over a `dhcp_msg_t` on its stack,
decides on an answer, and writes the answer over the message. What the packet does not fill is
whatever lay on the stack, and a read behind the message is a fault; both are in the model, since
`opt_find` looks for options wherever their lengths lead it.

The clock is read once for each lease that is looked at, so `clock i` is its reading for lease `i`,
in milliseconds since the start. The code sees the low 32 bits of it.
-/

namespace Dhcp

open Cells

def DHCPDISCOVER : UInt8 := 1

def DHCPOFFER : UInt8 := 2

def DHCPREQUEST : UInt8 := 3

def DHCPACK : UInt8 := 5

def DHCP_OPT_SUBNET_MASK : UInt8 := 1

def DHCP_OPT_ROUTER : UInt8 := 3

def DHCP_OPT_DNS : UInt8 := 6

def DHCP_OPT_REQUESTED_IP : UInt8 := 50

def DHCP_OPT_IP_LEASE_TIME : UInt8 := 51

def DHCP_OPT_MSG_TYPE : UInt8 := 53

def DHCP_OPT_SERVER_ID : UInt8 := 54

def DHCP_OPT_END : UInt8 := 255

/-- A day. -/
def DEFAULT_LEASE_TIME_S : ℕ := 24 * 60 * 60

/-- The last byte of the first address that is leased. -/
def DHCPS_BASE_IP : UInt8 := 16

/-- The number of addresses. -/
abbrev DHCPS_MAX_IP : ℕ := 8

/-- A shorter packet is ignored. -/
def DHCP_MIN_SIZE : ℕ := 240 + 3

/-- `sizeof(dhcp_msg_t)` -/
def messageSize : ℕ := 548

/-- Where the options begin, behind the magic cookie. -/
def optionsOffset : ℕ := 240

/-- The hardware address of a client. -/
abbrev Mac := Vector UInt8 6

/-- An address in network order. -/
abbrev Ip := Vector UInt8 4

/-- The hardware address of a lease that has no client. -/
def noMac : Mac := .replicate 6 0

/-- `dhcp_server_lease_t` -/
structure Lease where
  mac : Mac := noMac
  expiry : UInt16 := 0
  deriving DecidableEq, Repr

/-- `dhcp_server_t` -/
structure Server where
  ip : Ip
  nm : Ip
  lease : Vector Lease DHCPS_MAX_IP := .replicate DHCPS_MAX_IP {}
  deriving DecidableEq, Repr

/-- `dhcp_server_init` -/
def dhcp_server_init (ip nm : Ip) : Server :=
  { ip, nm }

/-- A packet arrives. -/
structure Packet where
  data : Bytes
  /-- What `dhcp_msg` holds before the packet is copied. -/
  stack : Vector UInt8 messageSize
  /-- The readings of the clock. -/
  clock : ℕ → ℕ

/-- `cyw43_hal_ticks_ms` -/
def Packet.ticks (p : Packet) (i : ℕ) : UInt32 :=
  (p.clock i).toUInt32

/-- `dhcp_msg`, with the packet copied over it. -/
def Packet.message (p : Packet) : Bytes :=
  p.data.take messageSize ++ p.stack.toList.drop p.data.length

/-- `dhcp_msg.chaddr`, as far as it is compared. -/
def Packet.chaddr (p : Packet) : Mac :=
  .ofFn fun i ↦ p.message.getD (28 + i) 0

/-- The options, up to the end of the message. -/
def Packet.options (p : Packet) : Bytes :=
  p.message.drop optionsOffset

/-- `opt_find`, from `i` on: the index of the option in `opt`. -/
def opt_find (opt : Bytes) (cmd : UInt8) (i : ℕ) : Except Fault (Option ℕ) :=
  if i < 308 then do
    let o ← load opt i
    if o = DHCP_OPT_END then return none
    else if o = cmd then return some i
    else
      let length ← load opt (i + 1 : ℕ)
      opt_find opt cmd (i + 2 + length.toNat)
  else return none
termination_by 308 - i

/-! ### The answer -/

/-- `(int32_t)(expiry - cyw43_hal_ticks_ms()) < 0` -/
def Lease.expired (lease : Lease) (ticks : UInt32) : Bool :=
  ((lease.expiry.toUInt32 <<< 16 ||| 0xffff) - ticks).toInt32 < 0

/-- `memset(lease.mac, 0, MAC_LEN)` -/
def Lease.clear (lease : Lease) : Lease :=
  { lease with mac := noMac }

/-- The loop over the leases, from `i` on. The lease that it ends with is `DHCPS_MAX_IP` if there is
none. -/
def discover (p : Packet) (i yi : ℕ) (lease : Vector Lease DHCPS_MAX_IP) :
    ℕ × Vector Lease DHCPS_MAX_IP :=
  if h : i < DHCPS_MAX_IP then
    if lease[i].mac = p.chaddr then (i, lease)
    else if yi = DHCPS_MAX_IP then
      if lease[i].expired (p.ticks i) then discover p (i + 1) i (lease.set i lease[i].clear)
      else discover p (i + 1) (if lease[i].mac = noMac then i else yi) lease
    else discover p (i + 1) yi lease
  else (yi, lease)

/-- The lease after an acknowledgement. -/
def Lease.acknowledge (mac : Mac) (ticks : UInt32) : Lease :=
  { mac, expiry := ((ticks + (DEFAULT_LEASE_TIME_S * 1000).toUInt32) >>> 16).toUInt16 }

/-- What a packet asks for. -/
inductive Request
  | discover
  /-- The lease with this index. -/
  | request (yi : ℕ)
  /-- Nothing that is answered. -/
  | ignored
  deriving DecidableEq, Repr

/-- The requested address: that of a lease, if it is in the network of the server. -/
def Packet.readRequested (p : Packet) (ip : Ip) : Except Fault Request := do
  match ← opt_find p.options DHCP_OPT_REQUESTED_IP 0 with
  | none => return .ignored
  | some o =>
    let a ← load p.options (o + 2 : ℕ)
    let b ← load p.options (o + 3 : ℕ)
    let c ← load p.options (o + 4 : ℕ)
    if a ≠ ip[0] ∨ b ≠ ip[1] ∨ c ≠ ip[2] then return .ignored
    else
      let last ← load p.options (o + 5 : ℕ)
      return .request (last - DHCPS_BASE_IP).toNat

/-- The packet is read, by a server with this address. -/
def Packet.read (p : Packet) (ip : Ip) : Except Fault Request :=
  if p.data.length < DHCP_MIN_SIZE then return .ignored
  else do
    match ← opt_find p.options DHCP_OPT_MSG_TYPE 0 with
    | none => return .ignored
    | some msgtype =>
      let type ← load p.options (msgtype + 2 : ℕ)
      if type = DHCPDISCOVER then return .discover
      else if type = DHCPREQUEST then p.readRequested ip
      else return .ignored

/-- What is decided on: the type of the answer and the index of a lease. -/
def Server.act (d : Server) (p : Packet) : Request → Option (UInt8 × ℕ) × Server
  | .discover =>
    let r := discover p 0 DHCPS_MAX_IP d.lease
    (if r.1 = DHCPS_MAX_IP then none else some (DHCPOFFER, r.1), { d with lease := r.2 })
  | .request yi =>
    if h : yi < DHCPS_MAX_IP then
      let mac := d.lease[yi].mac
      if mac = p.chaddr ∨ mac = noMac then
        (some (DHCPACK, yi),
          { d with lease := d.lease.set yi (.acknowledge p.chaddr (p.ticks yi)) })
      else (none, d)
    else (none, d)
  | .ignored => (none, d)

/-- The part of the handling that decides on the answer. -/
def Server.answer (d : Server) (p : Packet) : Except Fault (Option (UInt8 × ℕ) × Server) :=
  d.act p <$> p.read d.ip

/-! ### The reply -/

/-- `opt_write_n`: the message and where the next option goes. -/
def opt_write_n (cmd : UInt8) (data : Bytes) (r : Bytes × ℕ) : Except Fault (Bytes × ℕ) := do
  let option := cmd :: data.length.toUInt8 :: data
  return (← copy r.1 r.2 option, r.2 + option.length)

/-- An option of one byte. -/
def opt_write_u8 (cmd val : UInt8) (r : Bytes × ℕ) : Except Fault (Bytes × ℕ) :=
  opt_write_n cmd [val] r

/-- An option of four bytes, the high one first. -/
def opt_write_u32 (cmd : UInt8) (val : ℕ) (r : Bytes × ℕ) : Except Fault (Bytes × ℕ) :=
  opt_write_n cmd (bigEndian 4 val) r

/-- The bytes that are sent: the message with the answer written over it. -/
def Server.reply (d : Server) (p : Packet) (answer : UInt8 × ℕ) : Except Fault Bytes := do
  let message ← copy p.message 0 [DHCPOFFER]
  let message ← copy message 16 (d.ip.toList.take 3 ++ [DHCPS_BASE_IP + answer.2.toUInt8])
  let r ← opt_write_u8 DHCP_OPT_MSG_TYPE answer.1 (message, optionsOffset)
  let r ← opt_write_n DHCP_OPT_SERVER_ID d.ip.toList r
  let r ← opt_write_n DHCP_OPT_SUBNET_MASK d.nm.toList r
  let r ← opt_write_n DHCP_OPT_ROUTER d.ip.toList r
  let r ← opt_write_n DHCP_OPT_DNS d.ip.toList r
  let r ← opt_write_u32 DHCP_OPT_IP_LEASE_TIME DEFAULT_LEASE_TIME_S r
  let message ← copy r.1 r.2 [DHCP_OPT_END]
  return message.take (r.2 + 1)

/-- A packet is handled: the datagram that is broadcast, if there is one. -/
def Server.dhcp_server_process (d : Server) (p : Packet) :
    Except Fault (Option Bytes × Server) := do
  let r ← d.answer p
  let datagram ← r.1.mapM (d.reply p)
  return (datagram, r.2)

end Dhcp
