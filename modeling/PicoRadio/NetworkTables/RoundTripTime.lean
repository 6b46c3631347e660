import PicoRadio.NetworkTables.UpdateRoundTrip

/-!
# Measuring the time of the server

A client sends its own time in an array of four with the id -1. The server sends the same value back
with its time in the second place, and the client sets its offset so that its clock, moved by it,
shows the time of the server and half of the time the exchange took.

The time of the client is packed as an unsigned integer. The server reads it as a signed one if it
is small, and packs what it has read, so the reply reaches the client with either type and each has
a branch of its own. Both branches see the same number (`handleRtt_eq`), and for times below
`2 ^ 63` neither wraps around: the client's `getServerTime` is exact (`getServerTime_measured`).
-/

open Msgpack Msgpack.Unpacker

/-! ### Numbers without wrap-around -/

namespace NetworkTables

theorem toInt_toInt64 {v : UInt64} (h : v.toNat < 2 ^ 63) : v.toInt64.toInt = v.toNat := by
  show v.toBitVec.toInt = v.toBitVec.toNat
  exact BitVec.toInt_eq_toNat_of_lt (by
    show 2 * v.toNat < 2 ^ 64
    omega)

theorem toNat_toUInt64 {i : Int64} (h : 0 ≤ i.toInt) : (i.toUInt64.toNat : ℤ) = i.toInt := by
  have hint : i.toInt = (i.toUInt64.toNat : ℤ).bmod (2 ^ 64) := BitVec.toInt_eq_toNat_bmod _
  have hlt : i.toUInt64.toNat < 2 ^ 64 := i.toUInt64.toNat_lt
  rw [Int.bmod_def] at hint
  split at hint <;> omega

theorem toInt_sub {i j : Int64} (hlow : -2 ^ 63 ≤ i.toInt - j.toInt)
    (hhigh : i.toInt - j.toInt < 2 ^ 63) : (i - j).toInt = i.toInt - j.toInt := by
  rw [Int64.toInt_sub]
  exact Int.bmod_eq_of_le (by omega) (by omega)

theorem toInt_neg {i : Int64} (h : 0 ≤ i.toInt) : (-i).toInt = -i.toInt := by
  have hlt : i.toInt < 2 ^ 63 := i.toInt_lt
  rw [Int64.toInt_neg]
  exact Int.bmod_eq_of_le (by omega) (by omega)

theorem toInt_half {i : Int64} (h : 0 ≤ i.toInt) : (i / 2).toInt = i.toInt / 2 := by
  have hlt : i.toInt < 2 ^ 63 := i.toInt_lt
  have hdiv : i.toInt.tdiv 2 = i.toInt / 2 := Int.tdiv_eq_ediv_of_nonneg h
  rw [Int64.toInt_div]
  show (i.toInt.tdiv 2).bmod (2 ^ 64) = _
  rw [hdiv]
  exact Int.bmod_eq_of_le (by omega) (by omega)

theorem toNat_add {a b : UInt64} (h : a.toNat + b.toNat < 2 ^ 64) :
    (a + b).toNat = a.toNat + b.toNat := by
  rw [UInt64.toNat_add, Nat.mod_eq_of_lt h]

/-! ### The client -/

/-- An instance in client mode, and how often it has asked for the time. -/
structure Client where
  inst : Instance
  reads : ℕ

section

-- what `get_absolute_time` returns, from one call to the next
variable (clock : ℕ → UInt64)

/-- `get_absolute_time`. -/
def getAbsoluteTime : StateM Client UInt64 :=
  fun c ↦ (clock c.reads, { c with reads := c.reads + 1 })

/-- `getServerTime`, at the next reading of the clock. -/
def Client.getServerTime (c : Client) : UInt64 :=
  NetworkTables.getServerTime { absoluteTime := fun _ ↦ clock c.reads } c.inst

/-- `sendRTT`, up to the call of `send`. -/
def sendRTT : StateM Client Bytes := do
  let data ← getAbsoluteTime clock
  return packArrayHeader 4 ++ packInt64 (-1) ++ packUInt64 0 ++ packUInt8 NTDataType.int.code ++
    packUInt64 data

/-- The offset that brings a clock from the one time to the other. -/
def timeOffset (serverTime time : UInt64) : Int64 :=
  if serverTime > time then (serverTime - time).toInt64 else -(time - serverTime).toInt64

/-- Compare the time of the server with the clock. -/
def setServerTime (serverTime : UInt64) : StateM Client Unit := do
  let time ← getAbsoluteTime clock
  modify fun c ↦ { c with inst.serverTimeOffset := timeOffset serverTime time }

/-- The answer to a measurement. -/
def handleRtt (timestamp : UInt64) (data : NTDataValue) : StateM Client Unit := do
  if data.type = .uint then
    let rtt := (← getAbsoluteTime clock) - data.bits
    setServerTime clock (timestamp + rtt / 2)
  else if data.type = .int then
    let rtt := (← getAbsoluteTime clock).toInt64 - data.i
    setServerTime clock (timestamp + (rtt / 2).toUInt64)

/-- What a client does with an update: one with another id is nothing to it. -/
def handleClientArray (m : BinaryMessage) : StateM Client Unit :=
  if m.id = -1 then handleRtt clock m.timestamp m.data else pure ()

/-- The loop over a binary frame in client mode, for at most so many passes. -/
def clientLoop [FloatDecoder] : ℕ → Unpacker → Client → Option Client
  | 0, _, _ => none
  | passes + 1, u, c =>
    let r := unpackMessage u
    let c := r.1.elim c fun m ↦ (handleClientArray clock m c).2
    if r.2.ec = some .outOfRange then some c else clientLoop passes r.2 c

/-- The binary case of `_handleFrame` in client mode, for at most so many passes. -/
def handleClientFrame [FloatDecoder] (payload : Bytes) (passes : ℕ) (c : Client) : Option Client :=
  clientLoop clock passes (.setData payload) c

variable {clock}

/-- A payload that can be read to its end is handled update by update. -/
theorem clientLoop_of_unpackMessages [FloatDecoder] {passes : ℕ} {u v : Unpacker}
    {messages : List BinaryMessage}
    (h : unpackMessages passes u = some (messages, v)) (c : Client) :
    clientLoop clock passes u c =
      some (messages.foldl (fun c m ↦ (handleClientArray clock m c).2) c) := by
  induction passes generalizing u v messages c with
  | zero => cases h
  | succ passes ih =>
    rw [clientLoop]
    have hread : Yields unpackMessage u (unpackMessage u).1 (unpackMessage u).2 := rfl
    rw [unpackMessages_succ hread] at h
    -- what this pass has handled comes first in the list
    have hfirst (rest : List BinaryMessage) :
        ((unpackMessage u).1.toList ++ rest).foldl (fun c m ↦ (handleClientArray clock m c).2) c =
          rest.foldl (fun c m ↦ (handleClientArray clock m c).2)
            ((unpackMessage u).1.elim c fun m ↦ (handleClientArray clock m c).2) := by
      cases (unpackMessage u).1 <;> rfl
    split at h
    · next hec =>
      obtain ⟨rfl, -⟩ := Prod.mk.inj (Option.some.inj h)
      rw [if_pos hec, ← List.append_nil (Option.toList _), hfirst]
      rfl
    · next hec =>
      obtain ⟨r, hr, heq⟩ := Option.map_eq_some_iff.1 h
      rw [if_neg hec, ← (Prod.mk.inj heq).1, hfirst]
      exact ih hr _

/-! ### The offset -/

/-- A clock that is moved by the offset shows the time of the server, and goes on from there. -/
theorem toNat_getServerTime {env : Env} {st : Instance} {serverTime time : UInt64}
    (hoffset : st.serverTimeOffset = timeOffset serverTime time)
    (hle : time.toNat ≤ (env.absoluteTime st).toNat) (hlt : (env.absoluteTime st).toNat < 2 ^ 63)
    (hserver : serverTime.toNat < 2 ^ 63) :
    (NetworkTables.getServerTime env st).toNat =
      serverTime.toNat + ((env.absoluteTime st).toNat - time.toNat) := by
  rw [NetworkTables.getServerTime, hoffset, timeOffset]
  by_cases hahead : serverTime > time
  · -- the server is ahead, and the offset is positive
    have hless : time.toNat < serverTime.toNat := UInt64.lt_iff_toNat_lt.1 hahead
    have hsub := UInt64.toNat_sub_of_le serverTime time (UInt64.le_of_lt hahead)
    have hint := toInt_toInt64 (v := serverTime - time) (by omega)
    have hpos : (serverTime - time).toInt64 > 0 := by
      refine Int64.lt_iff_toInt_lt.2 ?_
      rw [hint]
      show (0 : ℤ) < _
      omega
    rw [if_pos hahead, if_pos hpos, toNat_add]
    all_goals rw [UInt64.toUInt64_toInt64]
    all_goals omega
  · -- the server is behind or level, and the offset is subtracted
    have hless : serverTime.toNat ≤ time.toNat :=
      UInt64.le_iff_toNat_le.1 (UInt64.not_lt.1 hahead)
    have hsub := UInt64.toNat_sub_of_le time serverTime (UInt64.not_lt.1 hahead)
    have hint := toInt_toInt64 (v := time - serverTime) (by omega)
    have hneg := toInt_neg (i := (time - serverTime).toInt64) (by omega)
    have hpos : ¬-(time - serverTime).toInt64 > 0 := by
      intro h
      have h := Int64.lt_iff_toInt_lt.1 h
      rw [hneg, hint] at h
      have h : (0 : ℤ) < _ := h
      omega
    rw [if_neg hahead, if_neg hpos, Int64.neg_neg, UInt64.toUInt64_toInt64,
      UInt64.toNat_sub_of_le _ _ (UInt64.le_iff_toNat_le.2 (by omega))]
    omega

variable {timestamp n₁ n₂ : UInt64} {data : NTDataValue} {c : Client}

/-- Either branch takes the time of the exchange, halves it and adds it to the time of
the server. -/
theorem handleRtt_eq {t : ℕ} (hcontent : data.content = .integer t)
    (ht : t ≤ (clock c.reads).toNat) (hlt : (clock c.reads).toNat < 2 ^ 63)
    (hserver : timestamp.toNat + ((clock c.reads).toNat - t) / 2 < 2 ^ 63) :
    ∃ serverTime : UInt64, serverTime.toNat = timestamp.toNat + ((clock c.reads).toNat - t) / 2 ∧
      (handleRtt clock timestamp data c).2 =
        { inst := { c.inst with serverTimeOffset := timeOffset serverTime (clock (c.reads + 1)) },
          reads := c.reads + 2 } := by
  have hsum (half : UInt64) (hhalf : half.toNat = ((clock c.reads).toNat - t) / 2) :
      (timestamp + half).toNat = timestamp.toNat + ((clock c.reads).toNat - t) / 2 := by
    rw [toNat_add (by omega), hhalf]
  rw [handleRtt]
  split_ifs with huint hint
  · -- the unsigned branch
    have hbits : data.bits.toNat = t := by
      rw [NTDataValue.content, huint] at hcontent
      exact Int.ofNat.inj (NTDataValue.Content.integer.inj hcontent)
    have hsub := UInt64.toNat_sub_of_le (clock c.reads) data.bits
      (UInt64.le_iff_toNat_le.2 (by omega))
    refine ⟨_, hsum ((clock c.reads - data.bits) / 2) ?_, rfl⟩
    rw [UInt64.toNat_div, hsub, hbits]
    rfl
  · -- the signed branch
    have hi : data.i.toInt = t := by
      rw [NTDataValue.content, hint] at hcontent
      exact NTDataValue.Content.integer.inj hcontent
    have hclock := toInt_toInt64 hlt
    have hsub := toInt_sub (i := (clock c.reads).toInt64) (j := data.i) (by omega) (by omega)
    have hhalf := toInt_half (i := (clock c.reads).toInt64 - data.i) (by omega)
    have hnat := toNat_toUInt64 (i := ((clock c.reads).toInt64 - data.i) / 2) (by omega)
    exact ⟨_, hsum (((clock c.reads).toInt64 - data.i) / 2).toUInt64 (by omega), rfl⟩
  · -- no other type holds an integer
    rw [NTDataValue.content] at hcontent
    cases htype : data.type <;> simp_all

end

/-! ### The exchange -/

section

variable [FloatCodec] [FloatDecoder] {clock : ℕ → UInt64}

omit [FloatDecoder] in
/-- The frame a client sends is an update of an unsigned integer. -/
theorem sendRTT_eq (c : Client) :
    (sendRTT clock c).1 = Update.bytes ⟨-1, 0, { type := .uint, bits := clock c.reads }⟩ := by
  rw [Update.bytes, ValueUpdate.bytes, Int64.ofInt_toInt]
  rfl

omit [FloatCodec] [FloatDecoder] in
/-- An integer, of either type. -/
theorem packable_of_content {v : NTDataValue} {n : ℤ} (h : v.content = .integer n) :
    v.Packable ∧ v.strings = [] := by
  rw [NTDataValue.content] at h
  rw [NTDataValue.Packable, NTDataValue.strings]
  cases htype : v.type <;> simp_all

/-- The frame of one update of an integer. -/
theorem unpackMessages_integer {up : Update} {n : ℤ} (h : up.value.content = .integer n) :
    ∃ m u, unpackMessages 2 (.setData up.bytes) = some ([m], u) ∧ up.ReadAs m := by
  obtain ⟨hpackable, hstrings⟩ := packable_of_content h
  obtain ⟨messages, hread, hsame⟩ := @Update.unpackMessages_updates _ _ [up]
    (List.forall_mem_singleton.2 hpackable)
    (List.forall_mem_singleton.2 (hstrings ▸ List.forall_mem_nil _))
  obtain ⟨m, rest, hm, hrest, rfl⟩ := List.forall₂_cons_left_iff.1 hsame
  obtain rfl := List.forall₂_nil_left_iff.1 hrest
  have hbytes : [up].flatMap Update.bytes = up.bytes := List.flatMap_singleton _ _
  rw [hbytes] at hread
  exact ⟨m, _, hread, hm⟩

omit [FloatDecoder] in
/-- The answer to a measurement is an update too. -/
theorem rttReply_eq {env : Env} {st : Instance} {m : BinaryMessage} (hid : m.id = -1)
    (htype : m.type = m.data.getAPIType.code) :
    rttReply env st m = Update.bytes ⟨-1, NetworkTables.getServerTime env st, m.data⟩ := by
  rw [Update.bytes, ValueUpdate.bytes, Int64.ofInt_toInt, rttReply, hid, htype]

/-- The server answers with its time and the integer it has read. -/
theorem handleBinaryFrame_rtt {env : Env} {guid : Guid} {st : Instance} {c : Client} :
    ∃ data : NTDataValue, data.content = .integer (clock c.reads).toNat ∧
      handleBinaryFrame env guid (sendRTT clock c).1 2 st = some (.ok { st with
        rttReplies := st.rttReplies ++
          [(guid, Update.bytes ⟨-1, NetworkTables.getServerTime env st, data⟩)] }) := by
  obtain ⟨m, u, hread, hid, -, htype, hapi, hcontent⟩ := @unpackMessages_integer _ _
    ⟨-1, 0, { type := .uint, bits := clock c.reads }⟩ _ rfl
  refine ⟨m.data, hcontent, ?_⟩
  have htype : m.type = m.data.getAPIType.code := by rw [htype, hapi]
  rw [handleBinaryFrame, sendRTT_eq, binaryLoop_eq_handleBinary hread, handleBinary, if_pos hid,
    rttReply_eq hid htype]
  rfl

/-- The client that handles the answer has the time of the server. -/
theorem handleClientFrame_rtt {data : NTDataValue} {serverTime t : UInt64} {c : Client}
    (hcontent : data.content = .integer t.toNat) (ht : t ≤ clock c.reads)
    (hlt : (clock c.reads).toNat < 2 ^ 63)
    (hserver : serverTime.toNat + ((clock c.reads).toNat - t.toNat) / 2 < 2 ^ 63) :
    ∃ estimate : UInt64,
      estimate.toNat = serverTime.toNat + ((clock c.reads).toNat - t.toNat) / 2 ∧
      handleClientFrame clock (Update.bytes ⟨-1, serverTime, data⟩) 2 c = some
        { inst := { c.inst with serverTimeOffset := timeOffset estimate (clock (c.reads + 1)) },
          reads := c.reads + 2 } := by
  obtain ⟨m, u, hread, hid, htime, -, -, hm⟩ := @unpackMessages_integer _ _
    ⟨-1, serverTime, data⟩ _ hcontent
  obtain ⟨estimate, hestimate, hrtt⟩ := @handleRtt_eq clock m.timestamp _ _ _ (hm.trans hcontent)
    (UInt64.le_iff_toNat_le.1 ht) hlt (htime ▸ hserver)
  rw [show m.timestamp = serverTime from htime] at hestimate
  refine ⟨estimate, hestimate, ?_⟩
  rw [handleClientFrame, clientLoop_of_unpackMessages hread, List.foldl_cons, handleClientArray,
    if_pos hid, hrtt]
  rfl

end

/-- A frame of `sendRTT` is answered by the server, and the client that handles the answer knows
the time of the server, up to half of the time between sending and handling. -/
theorem getServerTime_measured [FloatCodec] [FloatDecoder] (env : Env) (guid : Guid)
    (server : Instance) (clock : ℕ → UInt64) (sender c : Client)
    (ht : clock sender.reads ≤ clock c.reads)
    (h₁ : clock c.reads ≤ clock (c.reads + 1)) (h₂ : clock (c.reads + 1) ≤ clock (c.reads + 2))
    (hlt : (clock (c.reads + 2)).toNat < 2 ^ 63)
    (hserver : (getServerTime env server).toNat +
      ((clock c.reads).toNat - (clock sender.reads).toNat) / 2 < 2 ^ 63) :
    ∃ reply, (∃ passes, handleBinaryFrame env guid (sendRTT clock sender).1 passes server =
        some (.ok { server with rttReplies := server.rttReplies ++ [(guid, reply)] })) ∧
      ∃ passes c', handleClientFrame clock reply passes c = some c' ∧
        (c'.getServerTime clock).toNat = (getServerTime env server).toNat +
          ((clock c.reads).toNat - (clock sender.reads).toNat) / 2 +
          ((clock (c.reads + 2)).toNat - (clock (c.reads + 1)).toNat) := by
  have h₁ := UInt64.le_iff_toNat_le.1 h₁
  have h₂ := UInt64.le_iff_toNat_le.1 h₂
  obtain ⟨data, hcontent, hreply⟩ := @handleBinaryFrame_rtt _ _ clock env guid server sender
  obtain ⟨estimate, hestimate, hframe⟩ := handleClientFrame_rtt hcontent ht (by omega) hserver
  refine ⟨_, ⟨_, hreply⟩, _, _, hframe, ?_⟩
  rw [← hestimate]
  -- the third reading is the one in `getServerTime`
  exact @toNat_getServerTime { absoluteTime := fun _ ↦ clock (c.reads + 2) } _ _ _ rfl h₂ hlt
    (by omega)

/-- An instance without a table, and with a clock that has been read so often. -/
def Client.sample (reads : ℕ) : Client where
  inst := { thisClient := { guid := 0, name := ascii "fake_server" } }
  reads := reads

/-- Four readings of a clock. -/
def sampleClock (k : ℕ) : UInt64 :=
  [1000, 1200, 1205, 1210].getD k 0

/-- A client asks at 1000, and at 1200 it hears that the time is 100. -/
theorem getServerTime_measured_sample :
    ∃ reply, (∃ passes, @handleBinaryFrame .fractional .fractional { absoluteTime := fun _ ↦ 100 } 1
        (sendRTT sampleClock (.sample 0)).1 passes (Client.sample 0).inst =
          some (.ok { (Client.sample 0).inst with
            rttReplies := (Client.sample 0).inst.rttReplies ++ [(1, reply)] })) ∧
      ∃ passes c', @handleClientFrame sampleClock .fractional reply passes (.sample 1) = some c' ∧
        (c'.getServerTime sampleClock).toNat = 205 :=
  @getServerTime_measured .fractional .fractional { absoluteTime := fun _ ↦ 100 } 1
    (Client.sample 0).inst sampleClock (.sample 0) (.sample 1) (by decide) (by decide) (by decide)
    (by decide) (by decide)

end NetworkTables
