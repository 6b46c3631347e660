import Mathlib.Data.List.TakeWhile
import PicoRadio.Library.JsonText
import PicoRadio.NetworkTables.Operations

/-!
# Names of clients

A client that asks for a name is called by it with a number behind an `@`. The number is larger than
those that the connected clients of this name have, as `nextClientWithName` counts them: a name
counts if its first `@` stands where the number begins. So a name that contains an `@` itself counts
for nobody, and each client that asks for it gets the number `1`. Counting also wraps around: a name
can carry any number behind its first `@`, since clients choose what they ask for.

`NameTaken` says when a new client is called like one that is connected, and `run_namesDistinct`
that otherwise the names stay different.

## Numbers

The next number is one more than the largest that is counted, so it is new unless counting misses a
name or wraps around. Numbers are compared as numbers and names as texts; the two go together
because a number has one decimal form.
-/

namespace NetworkTables

open Json

/-! ### Names and numbers -/

/-- The sign between a name and its number. -/
abbrev atSign : UInt8 :=
  '@'.toNat.toUInt8

/-- The name with a number. -/
def numbered (name : Str) (num : UInt32) : Str :=
  name ++ ascii "@" ++ decimal num.toNat

theorem numbered_eq (name : Str) (num : UInt32) :
    numbered name num = name ++ atSign :: decimal num.toNat :=
  List.append_assoc ..

/-- The number in a client's name that counts for another name. A number too large leaves the
variable as it was. -/
def countedNumber (env : Env) (guid : Guid) (name n : Str) : Option UInt32 :=
  if n.startsWith name && n.findIdx? (· = atSign) = some name.length then
    match fromChars (n.drop (name.length + 1)) with
    | .value i => some i
    | .outOfRange => some (env.uninit guid)
    | .invalidArgument => none
  else none

/-- The number of a name counts. -/
theorem countedNumber_numbered {env : Env} {guid : Guid} {name : Str} (hname : atSign ∉ name)
    (num : UInt32) : countedNumber env guid name (numbered name num) = some num := by
  have hstarts : (numbered name num).startsWith name = true := by
    rw [Str.startsWith, List.isPrefixOf_iff_prefix, numbered_eq]
    exact List.prefix_append _ _
  have hfind : (numbered name num).findIdx? (· = atSign) = some name.length := by
    rw [numbered_eq, List.findIdx?_append, List.findIdx?_eq_none_iff.mpr fun c hc ↦ ?_]
    · rw [List.findIdx?_cons, if_pos (decide_eq_true rfl)]
      simp
    · exact decide_eq_false fun heq ↦ hname (heq ▸ hc)
  have hdrop : (numbered name num).drop (name.length + 1) = decimal num.toNat := by
    rw [numbered_eq, ← List.drop_drop, List.drop_left]
    rfl
  have hdigits : (decimal num.toNat).takeWhile (fun c ↦ 0x30 ≤ c ∧ c ≤ 0x39) =
      decimal num.toNat :=
    List.takeWhile_eq_self_iff.mpr fun c hc ↦ decide_eq_true ((isDigits_decimal _).2 c hc)
  have hvalue : (decimal num.toNat).foldl (fun n c ↦ 10 * n + (c.toNat - 0x30)) 0 = num.toNat :=
    digitsValue_decimal _
  have hfrom : fromChars (decimal num.toNat) = .value num := by
    simp only [fromChars, hdigits, hvalue]
    rw [if_neg (isDigits_decimal _).1, if_pos num.toNat_lt]
    simp
  rw [countedNumber, hstarts, hfind, hdrop, hfrom]
  simp

/-- Nothing counts for a name that contains an `@`. -/
theorem countedNumber_of_mem {env : Env} {guid : Guid} {name n : Str} (hname : atSign ∈ name) :
    countedNumber env guid name n = none := by
  refine if_neg fun h ↦ ?_
  rw [Bool.and_eq_true, Str.startsWith, List.isPrefixOf_iff_prefix] at h
  obtain ⟨⟨rest, rfl⟩, hfind⟩ := h
  obtain ⟨i, hi, heq⟩ := List.mem_iff_getElem.mp hname
  obtain ⟨_, -, hbefore⟩ := List.findIdx?_eq_some_iff_getElem.mp (of_decide_eq_true hfind)
  refine hbefore i hi (decide_eq_true ?_)
  rw [List.getElem_append_left hi, heq]

/-! ### The next number -/

/-- The name of a connected client. -/
def Instance.clientName (st : Instance) (guid : Guid) : Option Str :=
  (st.remote guid).map (·.name)

theorem Instance.clientName_of_lookup {st : Instance} {guid : Guid} {d : ClientData}
    (hd : st.clients.lookup guid = some (.remote d)) : st.clientName guid = some d.name := by
  rw [clientName, remote_eq_some.mpr hd]
  rfl

/-- A client counts for the name. -/
def Instance.Counts (st : Instance) (env : Env) (name : Str) (i : UInt32) : Prop :=
  ∃ guid n, st.clientName guid = some n ∧ countedNumber env guid name n = some i

theorem le_max_iff' {a b c : UInt32} : c ≤ max a b ↔ c ≤ a ∨ c ≤ b := by
  show c ≤ (if a ≤ b then b else a) ↔ _
  split <;> (simp only [UInt32.le_iff_toNat_le] at *; omega)

theorem max_eq_or (a b : UInt32) : max a b = a ∨ max a b = b := by
  show (if a ≤ b then b else a) = a ∨ (if a ≤ b then b else a) = b
  split <;> simp

/-- The number that is given next is `1` or one more than a number that counts, and no number that
counts is larger. -/
theorem nextClientWithName_ends (env : Env) (st : Instance) (name : Str) :
    Ends (nextClientWithName env st name)
      (fun num ↦ (∀ i, st.Counts env name i → i + 1 ≤ num) ∧
        (num = 1 ∨ ∃ i, st.Counts env name i ∧ num = i + 1)) fun _ ↦ True := by
  let I (done : List Guid) (num : UInt32) : Prop :=
    (∀ guid ∈ done, ∀ n i, st.clientName guid = some n → countedNumber env guid name n = some i →
      i + 1 ≤ num) ∧ (num = 1 ∨ ∃ i, st.Counts env name i ∧ num = i + 1)
  -- a client that counts for the name raises the number above its own
  have hraise {done : List Guid} {guid : Guid} {num i : UInt32} {n : Str} (hI : I done num)
      (hn : st.clientName guid = some n) (hi : countedNumber env guid name n = some i) :
      I (done ++ [guid]) (max num (i + 1)) := by
    refine ⟨fun guid' hmem n' i' hn' hi' ↦ le_max_iff'.mpr ?_, ?_⟩
    · rcases List.mem_append.mp hmem with hmem | hmem
      · exact .inl (hI.1 guid' hmem n' i' hn' hi')
      · rw [List.eq_of_mem_singleton hmem, hn] at hn'
        obtain rfl := Option.some.inj hn'
        rw [List.eq_of_mem_singleton hmem, hi] at hi'
        obtain rfl := Option.some.inj hi'
        exact .inr (UInt32.le_refl _)
    · rcases max_eq_or num (i + 1) with heq | heq
      · rw [heq]
        exact hI.2
      · exact .inr ⟨i, ⟨guid, n, hn, hi⟩, heq⟩
  have hkeep {done : List Guid} {guid : Guid} {num : UInt32} (hI : I done num)
      (hnone : ∀ n, st.clientName guid = some n → countedNumber env guid name n = none) :
      I (done ++ [guid]) num := by
    refine ⟨fun guid' hmem n i hn hi ↦ ?_, hI.2⟩
    rcases List.mem_append.mp hmem with hmem | hmem
    · exact hI.1 guid' hmem n i hn hi
    · rw [List.eq_of_mem_singleton hmem] at hn hi
      cases (hnone n hn).symm.trans hi
  have hloop : Ends (nextClientWithName env st name) (I (env.guids.keys st.clients))
      fun _ ↦ True := by
    refine Ends.foldlM_visited (fun done guid rest _ num hI ↦ ?_)
      ⟨fun _ h ↦ absurd h List.not_mem_nil, .inl rfl⟩
    split
    · next hself =>
      refine hkeep hI fun n hn ↦ ?_
      rw [Instance.clientName, Instance.remote, of_decide_eq_true hself] at hn
      cases hn
    · next hself =>
      refine ((st.client_ends guid .nullDeref).mono (fun _ ↦ id) fun _ _ ↦ trivial).bind
        fun d hd ↦ ?_
      have hd : st.clients.lookup guid = some (.remote d) := by
        rcases hd with ⟨hd, -⟩ | hd
        · exact absurd (decide_eq_true hd) hself
        · exact hd
      have hname := Instance.clientName_of_lookup hd
      split
      · next hcounts =>
        split
        · next i hi =>
          exact hraise hI hname (by rw [countedNumber, if_pos hcounts, hi])
        · next hi =>
          exact hraise hI hname (by rw [countedNumber, if_pos hcounts, hi])
        · next hi =>
          refine hkeep hI fun n hn ↦ ?_
          obtain rfl := Option.some.inj (hname.symm.trans hn)
          rw [countedNumber, if_pos hcounts, hi]
      · next hcounts =>
        refine hkeep hI fun n hn ↦ ?_
        obtain rfl := Option.some.inj (hname.symm.trans hn)
        rw [countedNumber, if_neg hcounts]
  refine hloop.imp fun num hI ↦ ⟨?_, hI.2⟩
  rintro i ⟨guid, n, hn, hi⟩
  obtain ⟨d, hd, -⟩ := Option.map_eq_some_iff.mp hn
  have hguid : guid ∈ st.clients := AList.mem_of_lookup (Instance.remote_eq_some.mp hd)
  exact hI.1 guid (env.guids.mem_keys.mpr hguid) n i hn hi

/-! ### Names in use -/

/-- No two clients that are connected at the same time are called the same. -/
def Instance.NamesDistinct (st : Instance) : Prop :=
  ∀ guid guid' n, st.clientName guid = some n → st.clientName guid' = some n → guid = guid'

/-- Another client has the name. -/
def Instance.Named (st : Instance) (guid : Guid) (n : Str) : Prop :=
  ∃ guid', guid' ≠ guid ∧ st.clientName guid' = some n

/-- The name that a new client gets is in use. If it asks for a name with an `@`, the name with the
number `1` is. Otherwise the last number is, and some client brings the count up to it. -/
def NameTaken (env : Env) (st : Instance) (guid : Guid) (name : Str) : Prop :=
  (atSign ∈ name ∧ st.Named guid (numbered name 1)) ∨
    (atSign ∉ name ∧ st.Named guid (numbered name 0xffffffff) ∧ st.Counts env name 0xfffffffe)

/-- The next number wraps around to itself only at the last one. -/
theorem add_one_le_self_iff {i : UInt32} : i + 1 ≤ i ↔ i = 0xffffffff := by
  rw [UInt32.le_iff_toNat_le, ← UInt32.toNat_inj, UInt32.toNat_add]
  have := i.toNat_lt
  show (i.toNat + 1) % 2 ^ 32 ≤ i.toNat ↔ i.toNat = 2 ^ 32 - 1
  omega

theorem eq_of_add_one {i : UInt32} (h : 0xffffffff = i + 1) : i = 0xfffffffe := by
  have hadd : (0xfffffffe : UInt32) + 1 = i + 1 := h
  exact (UInt32.add_left_inj 1).mp hadd.symm

theorem eq_of_max_le {i : UInt32} (h : 0xffffffff ≤ i) : i = 0xffffffff := by
  rw [← UInt32.toNat_inj]
  have := i.toNat_lt
  have : 2 ^ 32 - 1 ≤ i.toNat := h
  show i.toNat = 2 ^ 32 - 1
  omega

/-- Exactly then is the name in use that the new client gets. -/
theorem IssuedName.named_iff {env : Env} {st : Instance} {guid : Guid} {name n : Str}
    (h : IssuedName env st name n) :
    st.Named guid n ↔ NameTaken env st guid name := by
  obtain ⟨num, hnum, rfl⟩ := h
  change st.Named guid (numbered name num) ↔ _
  obtain ⟨hle, hfrom⟩ := (nextClientWithName_ends env st name).of_ok hnum
  by_cases hname : atSign ∈ name
  · have hone : num = 1 := by
      refine hfrom.resolve_right ?_
      rintro ⟨i, ⟨guid', n, -, hi⟩, -⟩
      rw [countedNumber_of_mem hname] at hi
      cases hi
    rw [hone, NameTaken, and_iff_right hname, or_iff_left fun h ↦ h.1 hname]
  · rw [NameTaken, and_iff_right hname, or_iff_right fun h ↦ hname h.1]
    constructor
    · rintro ⟨guid', hne, hn⟩
      -- the client that has the name counts, so the number is its own successor or less
      have hself := hle num ⟨guid', _, hn, countedNumber_numbered hname num⟩
      obtain rfl := add_one_le_self_iff.mp hself
      refine ⟨⟨guid', hne, hn⟩, ?_⟩
      obtain ⟨i, hi, heq⟩ := hfrom.resolve_left (by decide)
      exact eq_of_add_one heq ▸ hi
    · rintro ⟨hlast, hcounts⟩
      rwa [eq_of_max_le (hle _ hcounts)]

/-! ### Clients that come and go -/

section Runs

variable [FloatCodec] {K : Allow} {st : Instance}

/-- Moves call nobody by another name. -/
theorem Moves.clientName {s : Instance} (h : Moves K st s) : s.clientName = st.clientName := by
  funext guid
  cases hd : st.remote guid with
  | some d =>
    obtain ⟨d', hd', -, hname⟩ := h.remote_identity (Instance.remote_eq_some.mp hd)
    rw [Instance.clientName_of_lookup hd', hname,
      Instance.clientName_of_lookup (Instance.remote_eq_some.mp hd)]
  | none =>
    have hlookup : s.clients.lookup guid = st.clients.lookup guid := by
      refine h.lookup_of_not_remote fun d h ↦ ?_
      rw [Instance.remote_eq_some.mpr h] at hd
      cases hd
    rw [Instance.clientName, Instance.clientName, Instance.remote, hlookup]
    rfl

omit [FloatCodec] in
theorem Instance.clientName_insertClient (guid guid' : Guid) (n : Str) :
    (st.insertClient guid { guid, name := n }).clientName guid' =
      if guid' = guid then some n else st.clientName guid' := by
  rw [clientName, clientName, remote, remote, insertClient, AList.lookup_insert_ite]
  by_cases heq : guid' = guid
  · rw [if_pos heq, if_pos heq]
    rfl
  · rw [if_neg heq, if_neg heq]

omit [FloatCodec] in
/-- With a new client the names are still different, unless another client has its name. -/
theorem Instance.NamesDistinct.insertClient_iff (hst : st.NamesDistinct) (guid : Guid) (n : Str) :
    (st.insertClient guid { guid, name := n }).NamesDistinct ↔ ¬st.Named guid n := by
  constructor
  · rintro h ⟨guid', hne, hn⟩
    refine hne (h guid' guid n ?_ ?_)
    · rw [clientName_insertClient, if_neg hne, hn]
    · rw [clientName_insertClient, if_pos rfl]
  · intro h guid₁ guid₂ n' h₁ h₂
    rw [clientName_insertClient] at h₁ h₂
    split at h₁
    · next heq₁ =>
      split at h₂
      · next heq₂ => exact heq₁.trans heq₂.symm
      · next hne => exact absurd ⟨guid₂, hne, h₂.trans h₁.symm⟩ h
    · next hne =>
      split at h₂
      · exact absurd ⟨guid₁, hne, h₁.trans h₂.symm⟩ h
      · exact hst guid₁ guid₂ n' h₁ h₂

omit [FloatCodec] in
theorem Instance.NamesDistinct.eraseClient (hst : st.NamesDistinct) (guid : Guid) :
    (st.eraseClient guid).NamesDistinct := by
  have hname {guid' : Guid} {n : Str} (h : (st.eraseClient guid).clientName guid' = some n) :
      st.clientName guid' = some n := by
    rw [clientName, remote, Instance.eraseClient, AList.lookup_erase_ite] at h
    by_cases heq : guid' = guid
    · rw [if_pos heq] at h
      cases h
    · rwa [if_neg heq] at h
  exact fun guid₁ guid₂ n h₁ h₂ ↦ hst guid₁ guid₂ n (hname h₁) (hname h₂)

theorem Moves.namesDistinct_iff {s : Instance} (h : Moves K st s) :
    s.NamesDistinct ↔ st.NamesDistinct := by
  unfold Instance.NamesDistinct
  rw [h.clientName]

/-- With a client that connects the names are still different exactly if its name is not taken. -/
theorem handleConnect_namesDistinct (hst : st.NamesDistinct) (env : Env) (entry : ClientEntry)
    (name : Str) :
    Ends (handleConnect env entry name st)
      (fun s ↦ s.NamesDistinct ↔ ¬NameTaken env st entry.guid name) fun _ ↦ True := by
  refine (handleConnect_ends (K := .all) (.inl trivial) trivial (.inl trivial)
    (fun _ _ ↦ trivial) fun _ ↦ ⟨trivial, trivial⟩).mono (fun s hs ↦ ?_) fun _ _ ↦ trivial
  obtain ⟨n, hm, -, -, hissued⟩ := hs
  rw [hm.namesDistinct_iff, hst.insertClient_iff, hissued.named_iff]

/-- The client that connects gets a name that is not in use. -/
def Operation.Untaken (env : Env) (st : Instance) : Operation → Prop
  | connect entry name => ¬NameTaken env st entry.guid name
  | disconnect _ | message _ _ | textEnd _ | valueUpdate _ _ | subscribe _ _ _ | unsubscribe _
  | publish _ _ _ _ | unpublish _ | setProperties _ _ | updateTopic _ _ _ | flush => True

theorem Operation.Untaken.run_ends {env : Env} {op : Operation} (h : op.Untaken env st)
    (henabled : op.Enabled st) (hst : st.NamesDistinct) :
    Ends (op.run env st) Instance.NamesDistinct fun _ ↦ True := by
  cases hclients : op.changesClients with
  | false =>
    have hfollows := Operation.follows hclients henabled (.all env st op)
    exact hfollows.mono (fun s hs ↦ hs.1.namesDistinct_iff.mpr hst) fun _ _ ↦ trivial
  | true =>
    cases op with
    | connect entry name =>
      exact (handleConnect_namesDistinct hst env entry name).imp fun s hs ↦ hs.mpr h
    | disconnect guid =>
      refine (handleDisconnect_ends (K := .all) (.inl trivial) trivial (.inl trivial)
        henabled).mono (fun s hs ↦ ?_) fun _ _ ↦ trivial
      exact hs.2.namesDistinct_iff.mpr (hst.eraseClient guid)
    | _ => cases hclients

/-- In a run in which no client gets a name in use, no two clients that are connected at the same
time are ever called the same. -/
theorem run_namesDistinct (start : Env) (events : List (Env × Event))
    (huntaken : ∀ st, startServer start = .ok st →
      Guarded step (Event.Meets fun env st op ↦ op.Untaken env st) st events) :
    Ends (run start events) Instance.NamesDistinct fun _ ↦ True := by
  have hsame {st s : Instance} (hc : s.clients = st.clients) (hst : st.NamesDistinct) :
      s.NamesDistinct := by
    unfold Instance.NamesDistinct Instance.clientName Instance.remote
    rw [hc]
    exact hst
  refine run_ends (fun st s _ hc _ ↦ hsame hc) (fun env st op hst henabled h ↦ ?_) trivial ?_
    huntaken
  · have hop : op.Untaken env { st with mutexFree := false } := by cases op <;> exact h
    exact hop.run_ends (henabled.taken false) (hsame rfl hst)
  · have hstart : Follows .all .initial (startServer start) id _ :=
      startServer_follows (.inl trivial) (fun _ ↦ trivial) fun _ _ ↦ trivial
    refine hstart.mono (fun s hs ↦ hs.1.namesDistinct_iff.mpr fun guid _ n h ↦ ?_) fun _ _ ↦ trivial
    rw [Instance.clientName, Instance.remote, Instance.initial, AList.lookup_insert_ite] at h
    split at h
    · next heq =>
      split at heq <;> cases heq
    all_goals cases h

end Runs

theorem numbered_injective {name : Str} (hname : atSign ∉ name) :
    Function.Injective (numbered name) := by
  intro num num' heq
  have hcount := @countedNumber_numbered {} 0 _ hname num
  rw [heq, countedNumber_numbered hname] at hcount
  exact (Option.some.inj hcount).symm

/-- A name without an `@` is free if the clients have at most the first number of it. -/
theorem not_nameTaken {st : Instance} {name : Str} (env : Env) (guid : Guid)
    (hname : atSign ∉ name)
    (hfirst : ∀ guid' ∈ st.clients.keys,
      st.clientName guid' = none ∨ st.clientName guid' = some (numbered name 1)) :
    ¬NameTaken env st guid name := by
  rintro (⟨hmem, -⟩ | ⟨-, ⟨guid', -, hn⟩, -⟩)
  · exact hname hmem
  · obtain ⟨d, hd, -⟩ := Option.map_eq_some_iff.mp hn
    rcases hfirst guid' (AList.mem_of_lookup (Instance.remote_eq_some.mp hd)) with h | h
    · cases hn.symm.trans h
    · have hnum := numbered_injective hname (Option.some.inj (hn.symm.trans h))
      revert hnum
      decide

set_option maxRecDepth 4000 in
/-- Two clients ask for the same name without an `@`. -/
theorem run_namesDistinct_sample :
    Ends (@run .fractional {} [({}, .connect (.sample 1 "a")), ({}, .connect (.sample 2 "a"))])
      Instance.NamesDistinct fun _ ↦ True := by
  have hstart : Ends (@run .fractional {} [])
      (fun s ↦ s.clients.keys.all fun guid ↦ s.clientName guid = none) fun _ ↦ False := by
    decide +kernel
  have hfirst : Ends (@run .fractional {} [({}, .connect (.sample 1 "a"))])
      (fun s ↦ s.clients.keys.all fun guid ↦
        s.clientName guid = none ∨ s.clientName guid = some (ascii "a@1")) fun _ ↦ False := by
    decide +kernel
  have huntaken {s : Instance} (guid : Guid)
      (h : ∀ guid ∈ s.clients.keys,
        s.clientName guid = none ∨ s.clientName guid = some (numbered (ascii "a") 1)) :
      @Event.Meets .fractional (fun env st op ↦ op.Untaken env st) s
        ({}, .connect (.sample guid "a")) := by
    intro _ _ name hname
    have hpath : requestedName (ascii "/nt/" ++ ascii "a") = .ok (ascii "a") := by decide
    obtain rfl := Except.ok.inj (hpath.symm.trans hname)
    exact not_nameTaken {} _ (by decide) h
  refine @run_namesDistinct .fractional _ _ fun st hst ↦ ⟨?_, fun s hs ↦ ⟨?_, fun _ _ ↦ trivial⟩⟩
  · have hrun : @run .fractional {} [] = .ok st := by
      rw [@run.eq_def .fractional, hst]
      rfl
    refine huntaken 1 fun guid hguid ↦ .inl ?_
    exact of_decide_eq_true (List.all_eq_true.mp (hstart.of_ok hrun) guid hguid)
  · have hs := hfirst.of_ok (@run_singleton .fractional _ _ _ _ hst hs)
    refine huntaken 2 fun guid hguid ↦ ?_
    exact of_decide_eq_true (List.all_eq_true.mp hs guid hguid)

/-- Two clients ask for the same name with an `@`. -/
theorem connect_twice_same_name :
    ¬∀ (codec : FloatCodec) (start : Env) (events : List (Env × Event)),
      Ends (@run codec start events) Instance.NamesDistinct fun _ ↦ True := by
  intro h
  have hsame : Ends (@run .fractional {} [({}, .connect (.sample 1 "a@b")),
        ({}, .connect (.sample 2 "a@b"))])
      (fun s ↦ s.clientName 1 = some (ascii "a@b@1") ∧ s.clientName 2 = some (ascii "a@b@1"))
      fun _ ↦ False := by
    decide +kernel
  refine (h .fractional {} _).incompatible hsame (fun s hs ⟨h₁, h₂⟩ ↦ ?_) fun _ _ ↦ id
  have hguid := hs _ _ _ h₁ h₂
  revert hguid
  decide

end NetworkTables
