import PicoRadio.Dhcp.Server

/-!
# Leases

The server keeps 16 bits of the end of a lease and compares them with a clock of 32 bits. `Held`
says of a lease that a client has it since a certain time; it is kept by every packet that comes
before the lease is over (`Held.act`), so during that time nobody else gets the address and the
client gets it again.

An offer is no promise: `offer_honoured` says that it is one as long as nobody else is given the
address.

## The clock

The 16 bits that are kept are those above the lowest 16 of the clock, so the end of a lease is known
up to about a minute, and the comparison is right only for times that are not too far from each
other. `Held` therefore bounds the time since the lease was given, and the packets of a run must
come in the order of the clock (`Timely`).
-/

namespace Dhcp

open Cells

/-- The duration of a lease, in milliseconds. -/
def leaseTime : ℕ := DEFAULT_LEASE_TIME_S * 1000

/-- The comparison with the clock, as one of natural numbers. -/
theorem expired_eq (lease : Lease) (now : UInt32) : lease.expired now =
    decide (2 ^ 31 ≤ ((lease.expiry.toNat * 2 ^ 16 + 65535) + (2 ^ 32 - now.toNat)) % 2 ^ 32) := by
  have he := lease.expiry.toNat_lt
  have hword : (lease.expiry.toUInt32 <<< 16 ||| 0xffff).toNat =
      lease.expiry.toNat * 2 ^ 16 + 65535 := by
    have hshift : lease.expiry.toNat <<< 16 % 2 ^ 32 = lease.expiry.toNat <<< 16 := by
      rw [Nat.shiftLeft_eq]
      exact Nat.mod_eq_of_lt (by omega)
    rw [UInt32.toNat_or, UInt32.toNat_shiftLeft, UInt16.toNat_toUInt32]
    show lease.expiry.toNat <<< 16 % 2 ^ 32 ||| 65535 = _
    rw [hshift, ← Nat.shiftLeft_add_eq_or_of_lt (by omega), Nat.shiftLeft_eq]
  have hsub : ((lease.expiry.toUInt32 <<< 16 ||| 0xffff) - now).toNat =
      ((lease.expiry.toNat * 2 ^ 16 + 65535) + (2 ^ 32 - now.toNat)) % 2 ^ 32 := by
    rw [UInt32.toNat_sub, hword, Nat.add_comm]
  rw [Lease.expired, decide_eq_decide, Int32.lt_iff_toInt_lt, ← hsub]
  generalize (lease.expiry.toUInt32 <<< 16 ||| 0xffff) - now = x
  have hneg : x.toInt32.toInt < 0 ↔ 2 ^ 32 ≤ 2 * x.toNat := BitVec.toInt_neg_iff
  exact hneg.trans (by omega)

theorem leaseTime_eq : leaseTime = 86400000 := rfl

/-- What is kept of the end of a lease: its upper half. -/
theorem toNat_acknowledge_expiry (mac : Mac) (t : ℕ) :
    (Lease.acknowledge mac t.toUInt32).expiry.toNat = (t + 86400000) % 2 ^ 32 / 2 ^ 16 := by
  have hticks : (t.toUInt32 + (DEFAULT_LEASE_TIME_S * 1000).toUInt32).toNat =
      (t + 86400000) % 2 ^ 32 := by
    have hlease : (DEFAULT_LEASE_TIME_S * 1000).toUInt32.toNat = 86400000 := by decide
    rw [UInt32.toNat_add, hlease, Nat.toUInt32, UInt32.toNat_ofNat']
    omega
  have hshift : ((t.toUInt32 + (DEFAULT_LEASE_TIME_S * 1000).toUInt32) >>> 16).toNat =
      (t + 86400000) % 2 ^ 32 / 2 ^ 16 := by
    rw [UInt32.toNat_shiftRight, hticks]
    exact Nat.shiftRight_eq_div_pow _ _
  have hlt := Nat.mod_lt (t + 86400000) (by decide : 0 < 2 ^ 32)
  rw [Lease.acknowledge, UInt32.toNat_toUInt16, hshift]
  omega

/-- A lease does not expire before its time, also where the clock wraps around. -/
theorem not_expired (mac : Mac) {t now : ℕ} (hle : t ≤ now) (hlt : now ≤ t + leaseTime) :
    (Lease.acknowledge mac t.toUInt32).expired now.toUInt32 = false := by
  rw [leaseTime_eq] at hlt
  rw [expired_eq, decide_eq_false_iff_not, toNat_acknowledge_expiry, Nat.toUInt32,
    UInt32.toNat_ofNat']
  omega

/-! ### The loop over the leases -/

section Loop

variable {p : Packet} {i yi : ℕ} {lease : Vector Lease DHCPS_MAX_IP}

/-- The loop stops at a lease of the client. -/
theorem discover_match (hi : i < DHCPS_MAX_IP) (hmac : lease[i].mac = p.chaddr) :
    discover p i yi lease = (i, lease) := by
  rw [discover, dif_pos hi, if_pos hmac]

/-- Where none is chosen yet, a lease that is over is cleared and chosen. -/
theorem discover_expired (hi : i < DHCPS_MAX_IP) (hmac : lease[i].mac ≠ p.chaddr)
    (hexpired : lease[i].expired (p.ticks i) = true) :
    discover p i DHCPS_MAX_IP lease = discover p (i + 1) i (lease.set i lease[i].clear) := by
  rw [discover, dif_pos hi, if_neg hmac, if_pos rfl, if_pos hexpired]

/-- Where none is chosen yet, a free lease is chosen, and one of another client is not. -/
theorem discover_free (hi : i < DHCPS_MAX_IP) (hmac : lease[i].mac ≠ p.chaddr)
    (hexpired : ¬lease[i].expired (p.ticks i) = true) :
    discover p i DHCPS_MAX_IP lease = discover p (i + 1)
      (if lease[i].mac = noMac then i else DHCPS_MAX_IP) lease := by
  rw [discover, dif_pos hi, if_neg hmac, if_pos rfl, if_neg hexpired]

/-- Once one is chosen, the leases of others are passed over. -/
theorem discover_chosen (hi : i < DHCPS_MAX_IP) (hmac : lease[i].mac ≠ p.chaddr)
    (hyi : yi ≠ DHCPS_MAX_IP) : discover p i yi lease = discover p (i + 1) yi lease := by
  rw [discover, dif_pos hi, if_neg hmac, if_neg hyi]

/-- The loop has seen all leases. -/
theorem discover_end (hi : ¬i < DHCPS_MAX_IP) : discover p i yi lease = (yi, lease) := by
  rw [discover, dif_neg hi]

/-- The leases that are not expired stay as they are, the others may be cleared. -/
theorem getElem_discover (p : Packet) (i yi : ℕ) (lease : Vector Lease DHCPS_MAX_IP) (j : ℕ)
    (hj : j < DHCPS_MAX_IP) : (discover p i yi lease).2[j] = lease[j] ∨
      lease[j].expired (p.ticks j) = true ∧ (discover p i yi lease).2[j] = lease[j].clear := by
  induction i, yi, lease using discover.induct p with
  | case1 i yi lease hi hmac => exact Or.inl (by rw [discover_match hi hmac])
  | case2 i lease hi hmac hexpired ih =>
    rw [discover_expired hi hmac hexpired]
    rw [Vector.getElem_set] at ih
    split at ih
    · next heq =>
      subst heq
      exact Or.inr ⟨hexpired, ih.elim id And.right⟩
    · exact ih
  | case3 i lease hi hmac hexpired ih =>
    rw [discover_free hi hmac hexpired]
    exact ih
  | case4 i yi lease hi hmac hyi ih =>
    rw [discover_chosen hi hmac hyi]
    exact ih
  | case5 i yi lease hi => exact Or.inl (by rw [discover_end hi])

/-- The lease that is offered is free, or belongs to the client. -/
theorem discover_offers (hyi : ∀ h : yi < DHCPS_MAX_IP, lease[yi].mac = noMac)
    (hle : yi ≤ DHCPS_MAX_IP) : (discover p i yi lease).1 ≤ DHCPS_MAX_IP ∧
      ∀ h : (discover p i yi lease).1 < DHCPS_MAX_IP,
        (discover p i yi lease).2[(discover p i yi lease).1].mac = p.chaddr ∨
          (discover p i yi lease).2[(discover p i yi lease).1].mac = noMac := by
  induction i, yi, lease using discover.induct p with
  | case1 i yi lease hi hmac =>
    rw [discover_match hi hmac]
    exact ⟨hi.le, fun _ ↦ Or.inl hmac⟩
  | case2 i lease hi hmac hexpired ih =>
    rw [discover_expired hi hmac hexpired]
    refine ih (fun h ↦ ?_) hi.le
    rw [Vector.getElem_set_self]
    rfl
  | case3 i lease hi hmac hexpired ih =>
    rw [discover_free hi hmac hexpired]
    split at ih
    · next hfree =>
      rw [if_pos hfree]
      exact ih (fun _ ↦ hfree) hi.le
    · next hfree =>
      rw [if_neg hfree]
      exact ih (fun h ↦ absurd h (Nat.lt_irrefl _)) le_rfl
  | case4 i yi lease hi hmac hyi' ih =>
    rw [discover_chosen hi hmac hyi']
    exact ih hyi hle
  | case5 i yi lease hi =>
    rw [discover_end hi]
    exact ⟨hle, fun h ↦ Or.inr (hyi h)⟩

/-- A client that has a lease is offered it. -/
theorem discover_finds {j : ℕ} (hij : i ≤ j) (hj : j < DHCPS_MAX_IP)
    (hmac : lease[j].mac = p.chaddr) : ∃ h : (discover p i yi lease).1 < DHCPS_MAX_IP,
      (discover p i yi lease).2[(discover p i yi lease).1].mac = p.chaddr := by
  induction i, yi, lease using discover.induct p with
  | case1 i yi lease hi hfound =>
    rw [discover_match hi hfound]
    exact ⟨hi, hfound⟩
  | case2 i lease hi hne hexpired ih =>
    have hlt : i ≠ j := fun h ↦ hne (by subst h; exact hmac)
    rw [discover_expired hi hne hexpired]
    refine ih (by omega) ?_
    rw [Vector.getElem_set_ne _ _ hlt]
    exact hmac
  | case3 i lease hi hne hexpired ih =>
    have hlt : i ≠ j := fun h ↦ hne (by subst h; exact hmac)
    rw [discover_free hi hne hexpired]
    exact ih (by omega) hmac
  | case4 i yi lease hi hne hyi ih =>
    have hlt : i ≠ j := fun h ↦ hne (by subst h; exact hmac)
    rw [discover_chosen hi hne hyi]
    exact ih (by omega) hmac
  | case5 i yi lease hi => omega

end Loop

/-! ### A lease that is held -/

/-- A client has a lease since `t`, and it may have been renewed until `now`. -/
structure Held (mac : Mac) (i : Fin DHCPS_MAX_IP) (t now : ℕ) (d : Server) : Prop where
  lease : ∃ t', t ≤ t' ∧ t' ≤ now ∧ d.lease[i] = .acknowledge mac t'.toUInt32

/-- The readings of the clock for this packet. -/
def Packet.Within (p : Packet) (start stop : ℕ) : Prop :=
  ∀ i, start ≤ p.clock i ∧ p.clock i ≤ stop

section Held

variable {mac : Mac} {i : Fin DHCPS_MAX_IP} {t now : ℕ} {d d' : Server} {p : Packet}

/-- The lease has the address of the client. -/
theorem Held.client (h : Held mac i t now d) : d.lease[i].mac = mac := by
  obtain ⟨t', -, -, hlease⟩ := h.lease
  rw [hlease]
  rfl

/-- What is held is held later as well. -/
theorem Held.mono {now' : ℕ} (h : Held mac i t now d) (hnow : now ≤ now') :
    Held mac i t now' d := by
  obtain ⟨t', hle, hle', hlease⟩ := h.lease
  exact ⟨t', hle, hle'.trans hnow, hlease⟩

/-- The lease is not cleared before it is over. -/
theorem Held.discover (h : Held mac i t now d) (hp : p.Within now (t + leaseTime)) :
    (Dhcp.discover p 0 DHCPS_MAX_IP d.lease).2[i] = d.lease[i] := by
  obtain ⟨t', hle, hle', hlease⟩ := h.lease
  rcases getElem_discover p 0 DHCPS_MAX_IP d.lease i i.isLt with hsame | ⟨hexpired, -⟩
  · exact hsame
  · have hnot := @not_expired mac t' (p.clock i) (hle'.trans (hp i).1) ((hp i).2.trans (by omega))
    rw [← hlease] at hnot
    exact absurd hexpired (by rw [Packet.ticks]; exact Bool.eq_false_iff.mp hnot)

/-- Who acts on the lease is the client who has it. -/
theorem Held.act (h : Held mac i t now d) (hmac : mac ≠ noMac) (hp : p.Within now (t + leaseTime))
    (r : Request) : Held mac i t (p.clock i) (d.act p r).2 := by
  cases r with
  | discover =>
    obtain ⟨t', hle, hle', hlease⟩ := h.lease
    exact ⟨t', hle, hle'.trans (hp i).1, (h.discover hp).trans hlease⟩
  | ignored => exact h.mono (hp i).1
  | request yi =>
    rw [Server.act]
    split
    · next hyi =>
      dsimp only
      split
      · next hallowed =>
        -- whoever may have the address of the lease is the client that holds it
        have hclient : i.val = yi → p.chaddr = mac := by
          rintro rfl
          rcases hallowed with hsame | hfree
          · exact hsame.symm.trans h.client
          · exact absurd (h.client.symm.trans hfree) hmac
        obtain ⟨t', hle, hle', hlease⟩ := h.lease
        have hset : (d.lease.set yi (.acknowledge p.chaddr (p.ticks yi)))[i] =
            if yi = i.val then .acknowledge p.chaddr (p.ticks yi) else d.lease[i] :=
          Vector.getElem_set _ _
        rcases eq_or_ne yi i.val with rfl | hne
        · rw [if_pos rfl] at hset
          refine ⟨p.clock i, hle.trans (hle'.trans (hp i).1), le_rfl, hset.trans ?_⟩
          rw [hclient rfl, Packet.ticks]
        -- a request for another address leaves the lease
        · rw [if_neg hne] at hset
          exact ⟨t', hle, hle'.trans (hp i).1, hset.trans hlease⟩
      · exact h.mono (hp i).1
    · exact h.mono (hp i).1

/-- The client gets the lease again. -/
theorem Held.renews (h : Held mac i t now d) (hclient : p.chaddr = mac) :
    (d.act p (.request i)).1 = some (DHCPACK, i.val) := by
  have hmac : d.lease[i.val].mac = p.chaddr := h.client.trans hclient.symm
  rw [Server.act, dif_pos i.isLt]
  dsimp only
  rw [if_pos (Or.inl hmac)]

end Held

/-- What an acknowledgement says about the lease, and what it does to it. -/
theorem act_ack {d : Server} {p : Packet} {r : Request} {i : ℕ}
    (hr : (d.act p r).1 = some (DHCPACK, i)) : ∃ hi : i < DHCPS_MAX_IP,
      (d.lease[i].mac = p.chaddr ∨ d.lease[i].mac = noMac) ∧ (d.act p r).2 =
        { d with lease := d.lease.set i (.acknowledge p.chaddr (p.ticks i)) } := by
  cases r with
  | discover =>
    rw [Server.act] at hr
    dsimp only at hr
    split at hr
    · cases hr
    · cases hr
  | ignored => cases hr
  | request yi =>
    rw [Server.act] at hr ⊢
    split at hr
    · next hyi =>
      dsimp only at hr
      split at hr
      · next hallowed =>
        obtain rfl : yi = i := congrArg Prod.snd (Option.some.inj hr)
        refine ⟨hyi, hallowed, ?_⟩
        rw [dif_pos hyi]
        dsimp only
        rw [if_pos hallowed]
      · cases hr
    · cases hr

/-- Nobody else gets a lease that is held. -/
theorem Held.refuses {mac : Mac} {i : Fin DHCPS_MAX_IP} {t now : ℕ} {d : Server} {p : Packet}
    (h : Held mac i t now d) (hmac : mac ≠ noMac) {r : Request}
    (hr : (d.act p r).1 = some (DHCPACK, i.val)) : p.chaddr = mac := by
  obtain ⟨_, hsame | hfree, -⟩ := act_ack hr
  · exact hsame.symm.trans h.client
  · exact absurd (h.client.symm.trans hfree) hmac

/-- A lease that has been acknowledged is held. -/
theorem held_of_ack {d : Server} {p : Packet} {r : Request} {i : Fin DHCPS_MAX_IP}
    (hr : (d.act p r).1 = some (DHCPACK, i.val)) :
    Held p.chaddr i (p.clock i) (p.clock i) (d.act p r).2 := by
  obtain ⟨_, -, hact⟩ := act_ack hr
  rw [hact]
  exact ⟨p.clock i, le_rfl, le_rfl, Vector.getElem_set_self _⟩

/-! ### Runs -/

namespace Server

/-- What is answered to a packet. -/
def answers (d : Server) (p : Packet) : Except Fault (Option (UInt8 × ℕ)) :=
  Prod.fst <$> d.answer p

/-- The server after a packet. -/
def step (d : Server) (p : Packet) : Except Fault Server :=
  Prod.snd <$> d.dhcp_server_process p

/-- The server after these packets. -/
def run (d : Server) (ps : List Packet) : Except Fault Server :=
  ps.foldlM step d

end Server

variable {d d' : Server} {p : Packet}

/-- An answer comes from a packet that was read. -/
theorem answers_ok {answer : Option (UInt8 × ℕ)} (h : d.answers p = .ok answer) :
    ∃ r, p.read d.ip = .ok r ∧ answer = (d.act p r).1 := by
  rw [Server.answers, Server.answer] at h
  cases hr : p.read d.ip with
  | error e =>
    rw [hr] at h
    cases h
  | ok r =>
    rw [hr] at h
    exact ⟨r, rfl, (Except.ok.inj h).symm⟩

/-- A packet that cannot be read is a fault. -/
theorem process_error {e : Fault} (hr : p.read d.ip = .error e) :
    d.dhcp_server_process p = .error e := by
  rw [Server.dhcp_server_process, Server.answer, hr]
  rfl

/-- What is done with a packet, and the reply to it. -/
theorem process_ok {r : Request} (hr : p.read d.ip = .ok r) : d.dhcp_server_process p =
    (fun datagram ↦ (datagram, (d.act p r).2)) <$> (d.act p r).1.mapM (d.reply p) := by
  rw [Server.dhcp_server_process, Server.answer, hr]
  rfl

/-- The leases after a packet. -/
theorem step_ok (h : d.step p = .ok d') : ∃ r, p.read d.ip = .ok r ∧ d' = (d.act p r).2 := by
  rw [Server.step] at h
  cases hr : p.read d.ip with
  | error e =>
    rw [process_error hr] at h
    cases h
  | ok r =>
    refine ⟨r, rfl, ?_⟩
    rw [process_ok hr] at h
    cases hreply : (d.act p r).1.mapM (d.reply p) with
    | error e =>
      rw [hreply] at h
      cases h
    | ok datagram =>
      rw [hreply] at h
      exact (Except.ok.inj h).symm

/-- An answer and the server after it come from one reading of the packet. -/
theorem answers_step {answer : Option (UInt8 × ℕ)} (h : d.answers p = .ok answer)
    (hstep : d.step p = .ok d') :
    ∃ r, p.read d.ip = .ok r ∧ (d.act p r).1 = answer ∧ d' = (d.act p r).2 := by
  obtain ⟨r, hr, rfl⟩ := answers_ok h
  obtain ⟨r', hr', rfl⟩ := step_ok hstep
  obtain rfl := Except.ok.inj (hr.symm.trans hr')
  exact ⟨r, hr, rfl, rfl⟩

/-- The answer to what a packet asks for. -/
theorem answers_of_read {r : Request} (hr : p.read d.ip = .ok r) :
    d.answers p = .ok (d.act p r).1 := by
  rw [Server.answers, Server.answer, hr]
  rfl

/-- The first packet, and then the others. -/
theorem run_cons {ps : List Packet} (h : d.run (p :: ps) = .ok d') :
    ∃ d₁, d.step p = .ok d₁ ∧ d₁.run ps = .ok d' := by
  rw [Server.run, List.foldlM_cons] at h
  cases hstep : d.step p with
  | error e =>
    rw [hstep] at h
    cases h
  | ok d₁ =>
    rw [hstep] at h
    exact ⟨d₁, rfl, h⟩

/-- The clock does not go back from one packet to the next. -/
def Timely (ps : List Packet) : Prop :=
  ps.Pairwise fun p q ↦ ∀ i j, p.clock i ≤ q.clock j

/-- The lease is held while packets come that are not too late. -/
theorem Held.run {mac : Mac} {i : Fin DHCPS_MAX_IP} {t now now' : ℕ} {ps : List Packet}
    (h : Held mac i t now d) (hmac : mac ≠ noMac) (htimely : Timely ps)
    (hps : ∀ p ∈ ps, p.Within now (t + leaseTime)) (hnow : now ≤ now')
    (hlast : ∀ p ∈ ps, p.clock i ≤ now') (hrun : d.run ps = .ok d') : Held mac i t now' d' := by
  -- on the packets; the time of the last one seen moves forward with them
  induction ps generalizing d now with
  | nil =>
    obtain rfl := Except.ok.inj hrun
    exact h.mono hnow
  | cons p ps ih =>
    obtain ⟨d₁, hstep, hrun⟩ := run_cons hrun
    obtain ⟨r, -, rfl⟩ := step_ok hstep
    obtain ⟨hp, hps⟩ := List.forall_mem_cons.mp hps
    obtain ⟨hlastp, hlast⟩ := List.forall_mem_cons.mp hlast
    obtain ⟨hlater, htimely⟩ := List.pairwise_cons.mp htimely
    exact ih (h.act hmac hp r) htimely (fun q hq j ↦ ⟨hlater q hq i j, (hps q hq j).2⟩) hlastp hlast
      hrun

/-- A server without leases. -/
def sampleServer : Server :=
  dhcp_server_init #v[10, 67, 31, 1] #v[255, 255, 255, 0]

/-- A packet with these options. -/
def samplePacket (client : UInt8) (options : Bytes) (now : ℕ) : Packet where
  data := .replicate 28 0 ++ [2, 0, 0, 0, 0, client] ++ .replicate 206 0 ++ options
  stack := .replicate messageSize 0
  clock _ := now

/-- A request for this address. -/
def sampleRequest (client last : UInt8) (now : ℕ) : Packet :=
  samplePacket client [53, 1, 3, 50, 4, 10, 67, 31, last, 255] now

theorem clock_sample (client : UInt8) (options : Bytes) (now i : ℕ) :
    (samplePacket client options now).clock i = now :=
  rfl

theorem clock_request (client last : UInt8) (now i : ℕ) :
    (sampleRequest client last now).clock i = now :=
  rfl

section Acknowledged

variable {d₁ d₂ : Server} {q : Packet} {between : List Packet} {i : ℕ}

/-- Up to a packet that is not too late, an acknowledged lease is held. -/
theorem held_until (htimely : Timely (p :: between ++ [q])) (hclient : p.chaddr ≠ noMac)
    (hp : d.answers p = .ok (some (DHCPACK, i))) (hstep : d.step p = .ok d₁)
    (hrun : d₁.run between = .ok d₂) {j : ℕ} (hq : q.clock j ≤ p.clock i + leaseTime) :
    ∃ hi : i < DHCPS_MAX_IP, Held p.chaddr ⟨i, hi⟩ (p.clock i) (q.clock j) d₂ := by
  obtain ⟨r, -, hr, rfl⟩ := answers_step hp hstep
  obtain ⟨hi, -⟩ := act_ack hr
  obtain ⟨htimely, -, hbefore⟩ := List.pairwise_append.mp htimely
  obtain ⟨hlater, htimely⟩ := List.pairwise_cons.mp htimely
  have hbefore : ∀ p' ∈ p :: between, ∀ k, p'.clock k ≤ q.clock j := fun p' hp' k ↦
    hbefore p' hp' q (List.mem_singleton_self q) k j
  refine ⟨hi, (@held_of_ack d p r ⟨i, hi⟩ hr).run hclient htimely (fun p' hp' k ↦ ?_)
    (hbefore p List.mem_cons_self i)
    (fun p' hp' ↦ hbefore p' (List.mem_cons_of_mem p hp') i) hrun⟩
  exact ⟨hlater p' hp' i k, (hbefore p' (List.mem_cons_of_mem p hp') k).trans hq⟩

/-- An address that has been acknowledged to a client is not acknowledged to another one before the
lease is over. -/
theorem leases_exclusive (htimely : Timely (p :: between ++ [q])) (hclient : p.chaddr ≠ noMac)
    (hp : d.answers p = .ok (some (DHCPACK, i))) (hstep : d.step p = .ok d₁)
    (hrun : d₁.run between = .ok d₂) (hq : d₂.answers q = .ok (some (DHCPACK, i)))
    (hne : q.chaddr ≠ p.chaddr) (j : ℕ) : p.clock i + leaseTime < q.clock j := by
  -- before its end the lease is held, and a held lease is refused to others
  by_contra hlate
  obtain ⟨hi, hheld⟩ := held_until htimely hclient hp hstep hrun (Nat.le_of_not_lt hlate)
  obtain ⟨r, -, hr⟩ := answers_ok hq
  exact hne (hheld.refuses hclient hr.symm)

/-- The lease is over, and a packet has cleared it. -/
theorem leases_exclusive_sample :
    (((sampleServer.act (sampleRequest 1 16 0) (.request 0)).2.act
      (samplePacket 2 [53, 1, 1, 255] 86500000) .discover).2.answers
        (sampleRequest 2 16 86500009)) = .ok (some (DHCPACK, 0)) ∧ 0 + leaseTime < 86500009 := by
  refine ⟨by decide +kernel, @leases_exclusive sampleServer (sampleRequest 1 16 0)
    (sampleServer.act (sampleRequest 1 16 0) (.request 0)).2
    ((sampleServer.act (sampleRequest 1 16 0) (.request 0)).2.act
      (samplePacket 2 [53, 1, 1, 255] 86500000) .discover).2 (sampleRequest 2 16 86500009)
    [samplePacket 2 [53, 1, 1, 255] 86500000] 0 ?_ (by decide +kernel) (by decide +kernel)
    (by decide +kernel) (by decide +kernel) (by decide +kernel) (by decide +kernel) 0⟩
  simp [Timely, clock_sample, clock_request]

/-- Until the lease is over the client gets it again, and is offered a lease of its own. -/
theorem lease_kept (htimely : Timely (p :: between ++ [q])) (hclient : p.chaddr ≠ noMac)
    (hp : d.answers p = .ok (some (DHCPACK, i))) (hstep : d.step p = .ok d₁)
    (hrun : d₁.run between = .ok d₂) (hsame : q.chaddr = p.chaddr)
    (hq : ∀ j, q.clock j ≤ p.clock i + leaseTime) :
    (q.read d₂.ip = .ok (.request i) → d₂.answers q = .ok (some (DHCPACK, i))) ∧
      (q.read d₂.ip = .ok .discover → ∃ j, ∃ hj : j < DHCPS_MAX_IP,
        d₂.answers q = .ok (some (DHCPOFFER, j)) ∧
          (d₂.act q .discover).2.lease[j].mac = p.chaddr) := by
  obtain ⟨hi, hheld⟩ := held_until htimely hclient hp hstep hrun (hq 0)
  refine ⟨fun hread ↦ ?_, fun hread ↦ ?_⟩
  · rw [answers_of_read hread, hheld.renews hsame]
  · obtain ⟨hj, hmac⟩ := @discover_finds q 0 DHCPS_MAX_IP d₂.lease i (Nat.zero_le i) hi
      (hheld.client.trans hsame.symm)
    refine ⟨_, hj, ?_, hmac.trans hsame⟩
    rw [answers_of_read hread, Server.act]
    dsimp only
    rw [if_neg (Nat.ne_of_lt hj)]

/-- A client renews its lease just in time, or asks for an address once more, after another client
has asked for the address and got a different one. -/
theorem lease_kept_sample :
    (((sampleServer.act (sampleRequest 1 16 0) (.request 0)).2.act
        (sampleRequest 2 16 40000000) (.request 0)).2.act
          (sampleRequest 2 17 50000000) (.request 1)).2.answers
            (sampleRequest 1 16 86400000) = .ok (some (DHCPACK, 0)) ∧
      ∃ j, ∃ hj : j < DHCPS_MAX_IP,
        (((sampleServer.act (sampleRequest 1 16 0) (.request 0)).2.act
          (sampleRequest 2 16 40000000) (.request 0)).2.act
            (sampleRequest 2 17 50000000) (.request 1)).2.answers
              (samplePacket 1 [53, 1, 1, 255] 86400000) = .ok (some (DHCPOFFER, j)) ∧
        ((((sampleServer.act (sampleRequest 1 16 0) (.request 0)).2.act
          (sampleRequest 2 16 40000000) (.request 0)).2.act
            (sampleRequest 2 17 50000000) (.request 1)).2.act
              (samplePacket 1 [53, 1, 1, 255] 86400000) .discover).2.lease[j].mac =
          (sampleRequest 1 16 0).chaddr := by
  refine ⟨(@lease_kept sampleServer (sampleRequest 1 16 0)
    (sampleServer.act (sampleRequest 1 16 0) (.request 0)).2 _ (sampleRequest 1 16 86400000)
    [sampleRequest 2 16 40000000, sampleRequest 2 17 50000000] 0 ?_ (by decide +kernel)
    (by decide +kernel) (by decide +kernel) (by decide +kernel) (by decide +kernel)
    fun _ ↦ ?_).1 (by decide +kernel),
    (@lease_kept sampleServer (sampleRequest 1 16 0)
    (sampleServer.act (sampleRequest 1 16 0) (.request 0)).2 _
    (samplePacket 1 [53, 1, 1, 255] 86400000)
    [sampleRequest 2 16 40000000, sampleRequest 2 17 50000000] 0 ?_ (by decide +kernel)
    (by decide +kernel) (by decide +kernel) (by decide +kernel) (by decide +kernel)
    fun _ ↦ ?_).2 (by decide +kernel)⟩
  · simp [Timely, clock_request]
  · exact Nat.le_of_eq (Nat.zero_add _).symm
  · simp [Timely, clock_request, clock_sample]
  · exact Nat.le_of_eq (Nat.zero_add _).symm

/-! ### Offers -/

/-- A lease that the client can get. -/
def Open (mac : Mac) (i : Fin DHCPS_MAX_IP) (d : Server) : Prop :=
  d.lease[i].mac = mac ∨ d.lease[i].mac = noMac

/-- It stays so unless another client gets it. -/
theorem Open.act {mac : Mac} {i : Fin DHCPS_MAX_IP} {r : Request} (h : Open mac i d)
    (hothers : (d.act p r).1 = some (DHCPACK, i.val) → p.chaddr = mac) :
    Open mac i (d.act p r).2 := by
  cases r with
  | discover =>
    rcases getElem_discover p 0 DHCPS_MAX_IP d.lease i i.isLt with hsame | ⟨-, hclear⟩
    · exact h.imp (congrArg Lease.mac hsame).trans (congrArg Lease.mac hsame).trans
    · exact Or.inr (congrArg Lease.mac hclear)
  | ignored => exact h
  | request yi =>
    rw [Server.act] at hothers ⊢
    split at hothers
    · next hyi =>
      rw [dif_pos hyi]
      dsimp only at hothers ⊢
      split at hothers
      · next hallowed =>
        rw [if_pos hallowed]
        have hset : (d.lease.set yi (.acknowledge p.chaddr (p.ticks yi)))[i] =
            if yi = i.val then .acknowledge p.chaddr (p.ticks yi) else d.lease[i] :=
          Vector.getElem_set _ _
        rcases eq_or_ne yi i.val with rfl | hne
        · rw [if_pos rfl] at hset
          exact Or.inl ((congrArg Lease.mac hset).trans (hothers rfl))
        · rw [if_neg hne] at hset
          exact h.imp (congrArg Lease.mac hset).trans (congrArg Lease.mac hset).trans
      · next hrefused =>
        rw [if_neg hrefused]
        exact h
    · next hyi =>
      rw [dif_neg hyi]
      exact h

/-- A lease that has been offered. -/
theorem open_of_offer {r : Request} (hr : (d.act p r).1 = some (DHCPOFFER, i)) :
    ∃ hi : i < DHCPS_MAX_IP, Open p.chaddr ⟨i, hi⟩ (d.act p r).2 := by
  cases r with
  | discover =>
    obtain ⟨hle, hoffers⟩ := @discover_offers p 0 DHCPS_MAX_IP d.lease
      (fun h ↦ absurd h (Nat.lt_irrefl _)) le_rfl
    rw [Server.act] at hr
    dsimp only at hr
    split at hr
    · cases hr
    · next hne =>
      obtain rfl : (discover p 0 DHCPS_MAX_IP d.lease).1 = i :=
        congrArg Prod.snd (Option.some.inj hr)
      exact ⟨by omega, hoffers (by omega)⟩
  | ignored => cases hr
  | request yi =>
    rw [Server.act] at hr
    split at hr
    · dsimp only at hr
      split at hr
      · cases hr
      · cases hr
    · cases hr

/-- A client gets the address that it has been offered, unless it has been acknowledged to another
one in the meantime. -/
theorem offer_honoured (hp : d.answers p = .ok (some (DHCPOFFER, i))) (hstep : d.step p = .ok d₁)
    (hothers : Guarded Server.step
      (fun s r ↦ s.answers r = .ok (some (DHCPACK, i)) → r.chaddr = p.chaddr) d₁ between)
    (hrun : d₁.run between = .ok d₂) (hsame : q.chaddr = p.chaddr)
    (hq : q.read d₂.ip = .ok (.request i)) : d₂.answers q = .ok (some (DHCPACK, i)) := by
  obtain ⟨r, -, hr, rfl⟩ := answers_step hp hstep
  obtain ⟨hi, hopen⟩ := open_of_offer hr
  have hends : Ends (between.foldlM Server.step (d.act p r).2) (Open p.chaddr ⟨i, hi⟩)
      fun _ ↦ True := by
    refine hothers.run_ends (fun s p' hs hguard ↦ ?_) hopen
    refine Ends.iff_forall.mpr ⟨fun s' hs' ↦ ?_, fun _ _ ↦ trivial⟩
    obtain ⟨r', hr', rfl⟩ := step_ok hs'
    exact hs.act fun hack ↦ hguard (by rw [answers_of_read hr', hack])
  have hallowed : d₂.lease[i].mac = p.chaddr ∨ d₂.lease[i].mac = noMac := hends.of_ok hrun
  rw [answers_of_read hq, Server.act, dif_pos hi]
  dsimp only
  rw [hsame, if_pos hallowed]

/-- Another client takes another address between the offer and the request. -/
theorem offer_honoured_sample :
    (sampleServer.act (samplePacket 1 [53, 1, 1, 255] 0) .discover).1 = some (DHCPOFFER, 0) ∧
      ((sampleServer.act (samplePacket 1 [53, 1, 1, 255] 0) .discover).2.act
        (sampleRequest 2 17 5) (.request 1)).2.answers (sampleRequest 1 16 9) =
          .ok (some (DHCPACK, 0)) := by
  refine ⟨by decide +kernel, @offer_honoured sampleServer (samplePacket 1 [53, 1, 1, 255] 0)
    (sampleServer.act (samplePacket 1 [53, 1, 1, 255] 0) .discover).2
    ((sampleServer.act (samplePacket 1 [53, 1, 1, 255] 0) .discover).2.act
      (sampleRequest 2 17 5) (.request 1)).2 (sampleRequest 1 16 9) [sampleRequest 2 17 5] 0
    (by decide +kernel) (by decide +kernel) ⟨fun h ↦ ?_, fun _ _ ↦ trivial⟩ (by decide +kernel)
    (by decide +kernel) (by decide +kernel)⟩
  revert h
  decide +kernel

end Acknowledged

end Dhcp
