import PicoRadio.NetworkTables.BrokerRuns
import PicoRadio.NetworkTables.ValueAgreement

/-!
# Clients do not disturb each other

What an event asks for depends on who is heard, and who is heard under a guid depends on what came
from the connection with that guid. So a client's session is the same as if everybody else had kept
quiet: leaving out the events of the others, and the calls of the program, changes nothing about it,
and neither do the clock, the callbacks and the order in which maps are traversed
(`run_session_alone`). There are two exceptions. An event under a guid that is no client's may leave
the mutex taken, and then nobody is heard any more, whoever is the cause. And a run may fail an
assertion that it does not fail in company, as when a topic that somebody else published is missing.
-/

namespace NetworkTables

/-- The event comes from the connection with this guid. -/
def Event.comesFrom (guid : Guid) : Event → Bool
  | connect entry => entry.guid = guid
  | disconnect guid' | text guid' _ | binary guid' _ => guid' = guid
  | removeConnection _ | subscribe _ _ _ | unsubscribe _ | publish _ _ _ _ | unpublish _
  | setProperties _ _ | updateTopic _ _ _ | flush => false

namespace Hub

variable {h h' : Hub} {guid : Guid} {e : Event} {r : Request}

/-! ### Whose requests an event brings -/

theorem client_of_mem_requests {p : Party} {m : ClientMessage} (hr : r ∈ m.requests p) :
    r.client = p ∧ ∀ c, r ≠ .leave c := by
  cases m with
  | unknown => exact absurd hr List.not_mem_nil
  | subscribe | publish | unsubscribe | unpublish | setproperties =>
    rw [List.mem_singleton.1 hr]
    exact ⟨rfl, fun c heq ↦ by cases heq⟩

theorem client_of_mem_valueRequests {p : Party} {messages : List BinaryMessage}
    (hr : r ∈ valueRequests p messages) : r.client = p ∧ ∀ c, r ≠ .leave c := by
  obtain ⟨m, -, rfl⟩ := List.mem_map.1 hr
  exact ⟨rfl, fun c heq ↦ by cases heq⟩

/-- Nobody makes a request in the name of a client but its own connection, and the local client
never leaves. -/
theorem client_of_mem_asks (hr : r ∈ h.asks e) :
    (r.client = .client guid → e.comesFrom guid) ∧ r ≠ .leave .server := by
  have hparty (guid' : Guid) (hp : h.party guid' = .client guid) : guid' = guid := by
    rw [party] at hp
    split at hp
    · cases hp
    · exact Party.client.inj hp
  cases e with
  | connect entry =>
    rw [asks] at hr
    split at hr
    · cases hr
    · rw [List.mem_singleton.1 hr]
      exact ⟨fun hc ↦ decide_eq_true (Party.client.inj hc), fun heq ↦ by cases heq⟩
  | disconnect guid' =>
    rw [asks] at hr
    split at hr
    · rw [List.mem_singleton.1 hr]
      exact ⟨fun hc ↦ decide_eq_true (Party.client.inj hc), fun heq ↦ by cases heq⟩
    · cases hr
  | text guid' messages =>
    rw [asks] at hr
    split at hr
    · obtain ⟨m, -, hm⟩ := List.mem_flatMap.1 hr
      obtain ⟨hclient, hleave⟩ := client_of_mem_requests hm
      exact ⟨fun hc ↦ decide_eq_true (hparty guid' (hclient.symm.trans hc)), hleave _⟩
    · cases hr
  | binary guid' messages =>
    rw [asks] at hr
    split at hr
    · obtain ⟨hclient, hleave⟩ := client_of_mem_valueRequests hr
      exact ⟨fun hc ↦ decide_eq_true (hparty guid' (hclient.symm.trans hc)), hleave _⟩
    · cases hr
  | subscribe | unsubscribe | publish | unpublish | setProperties | updateTopic =>
    rw [List.mem_singleton.1 hr]
    exact ⟨fun hc ↦ (by cases hc), fun heq ↦ by cases heq⟩
  | removeConnection | flush => cases hr

/-- The mutex is not given back. -/
theorem stuck_run (hstuck : h.stuck) (events : List Event) : (h.run events).stuck := by
  induction events generalizing h with
  | nil => exact hstuck
  | cons e events ih => exact ih (h := h.step e) (by rw [step, hstuck]; rfl)

theorem stuck_of_run {events : List Event} (hrun : (h.run events).stuck = false) :
    h.stuck = false :=
  Bool.eq_false_iff.2 fun hstuck ↦ Bool.eq_false_iff.1 hrun (stuck_run hstuck events)

/-! ### Two hubs that are alike to a client -/

theorem isSome_foldl_ask {rs : List Request} (hrs : ∀ r ∈ rs, ∀ c, r ≠ .leave c)
    {s : Option (PubSub.Session Int32 Str Subscription)} (hs : s.isSome) :
    (rs.foldl (fun s r ↦ r.ask s) s).isSome := by
  induction rs generalizing s with
  | nil => exact hs
  | cons r rs ih =>
    obtain ⟨hr, hrs⟩ := List.forall_mem_cons.1 hrs
    refine ih hrs ?_
    cases r with
    | leave c => exact absurd rfl (hr c)
    | join => rfl
    | subscribe | unsubscribe | publish | unpublish => exact Option.isSome_map.trans hs
    | configure | put => exact hs

theorem isSome_server (hserver : (h.broker.sessions .server).isSome) :
    ((h.step e).broker.sessions .server).isSome := by
  have hrun : (h.step e).broker.sessions .server = _ :=
    PubSub.Broker.sessions_run (h.requests e) Party.server
  rw [hrun]
  refine isSome_foldl_ask (fun r hr c heq ↦ ?_) hserver
  obtain ⟨hr, hclient⟩ := List.mem_filter.1 hr
  rw [requests] at hr
  split at hr
  · cases hr
  · obtain rfl : c = .server := by
      rw [heq] at hclient
      exact of_decide_eq_true hclient
    exact (@client_of_mem_asks _ 0 _ _ hr).2 heq

/-- What matters to the client with this guid is the same. -/
structure Alike (guid : Guid) (h h' : Hub) : Prop where
  self : h'.self guid = h.self guid
  session : h'.broker.sessions (.client guid) = h.broker.sessions (.client guid)
  /-- The local client is always there. -/
  server : (h.broker.sessions .server).isSome
  server' : (h'.broker.sessions .server).isSome
  free : h.stuck = false
  free' : h'.stuck = false

namespace Alike

theorem party (h₁ : Alike guid h h') : h'.party guid = h.party guid := by
  rw [Hub.party, Hub.party, h₁.self]

theorem knows (h₁ : Alike guid h h') : h'.knows guid = h.knows guid := by
  rw [Hub.knows, Hub.knows, h₁.party]
  rw [Hub.party]
  split
  · rw [h₁.server, h₁.server']
  · rw [h₁.session]

/-- They ask the same of the event. -/
theorem asks (h₁ : Alike guid h h') (hfrom : e.comesFrom guid) : h'.asks e = h.asks e := by
  cases e with
  | connect => rfl
  | disconnect guid' =>
    obtain rfl : guid' = guid := of_decide_eq_true hfrom
    rw [Hub.asks, Hub.asks, h₁.knows]
  | text guid' messages | binary guid' messages =>
    obtain rfl : guid' = guid := of_decide_eq_true hfrom
    rw [Hub.asks, Hub.asks, h₁.knows, h₁.party]
  | removeConnection | subscribe | unsubscribe | publish | unpublish | setProperties
  | updateTopic | flush => cases hfrom

theorem locks (h₁ : Alike guid h h') (hfrom : e.comesFrom guid) : h'.locks e = h.locks e := by
  cases e with
  | disconnect guid' | binary guid' messages =>
    obtain rfl : guid' = guid := of_decide_eq_true hfrom
    rw [Hub.locks, Hub.locks, h₁.knows]
  | connect | text | removeConnection | subscribe | unsubscribe | publish | unpublish
  | setProperties | updateTopic | flush => rfl

/-- An event of the client itself. -/
theorem step (h₁ : Alike guid h h') (hfrom : e.comesFrom guid)
    (hfree : (h.step e).stuck = false) : Alike guid (h.step e) (h'.step e) where
  self := by
    cases e with
    | connect entry =>
      show h'.selfAfter (.connect entry) guid = h.selfAfter (.connect entry) guid
      rw [selfAfter, selfAfter, h₁.free, h₁.free']
      split
      · exact h₁.self
      · obtain rfl : entry.guid = guid := of_decide_eq_true hfrom
        rw [Function.update_self, Function.update_self]
    | disconnect | text | binary | removeConnection | subscribe | unsubscribe | publish | unpublish
    | setProperties | updateTopic | flush => exact h₁.self
  session := by
    refine PubSub.Broker.sessions_run_congr h₁.session ?_
    rw [requests, requests, h₁.free, h₁.free', h₁.asks hfrom]
  server := isSome_server h₁.server
  server' := isSome_server h₁.server'
  free := hfree
  free' := by
    rw [Hub.step, h₁.free', h₁.locks hfrom]
    rwa [Hub.step, h₁.free] at hfree

/-- An event of somebody else, or a call of the program. -/
theorem skip (h₁ : Alike guid h h') (hfrom : e.comesFrom guid = false)
    (hfree : (h.step e).stuck = false) : Alike guid (h.step e) h' where
  self := by
    rw [h₁.self]
    cases e with
    | connect entry =>
      show h.self guid = h.selfAfter (.connect entry) guid
      rw [selfAfter]
      split
      · rfl
      · exact (Function.update_of_ne (Ne.symm (of_decide_eq_false hfrom)) _ _).symm
    | disconnect | text | binary | removeConnection | subscribe | unsubscribe | publish | unpublish
    | setProperties | updateTopic | flush => rfl
  session := by
    have hnone : (h.requests e).filter (·.client = .client guid) = [] := by
      refine List.filter_eq_nil_iff.2 fun r hr hclient ↦ ?_
      rw [requests, h₁.free] at hr
      exact absurd ((client_of_mem_asks hr).1 (of_decide_eq_true hclient))
        (Bool.eq_false_iff.1 hfrom)
    have hrun : (h.step e).broker.sessions (.client guid) = _ :=
      PubSub.Broker.sessions_run (h.requests e) (Party.client guid)
    rw [hrun, hnone, h₁.session]
    rfl
  server := isSome_server h₁.server
  server' := h₁.server'
  free := hfree
  free' := h₁.free'

theorem run (h₁ : Alike guid h h') {events : List Event} (hfree : (h.run events).stuck = false) :
    Alike guid (h.run events) (h'.run (events.filter (·.comesFrom guid))) := by
  induction events generalizing h h' with
  | nil => exact h₁
  | cons e events ih =>
    have hstep : (h.step e).stuck = false := @stuck_of_run _ events hfree
    rw [List.filter_cons]
    split
    · next hfrom => exact ih (h₁.step hfrom hstep) hfree
    · next hfrom => exact ih (h₁.skip (Bool.eq_false_iff.2 hfrom) hstep) hfree

end Alike

theorem alike_initial (guid : Guid) : Alike guid initial initial :=
  ⟨rfl, rfl, rfl, rfl, rfl, rfl⟩

end Hub

variable [FloatCodec]

/-- **Clients do not disturb each other.** While the mutex is given back, a client has the session
that its own events make without all the others, in any surroundings, if they make one: what the
others do can keep an assertion from failing, and so can the surroundings. -/
theorem run_session_alone (start start' : Env) {events alone : List (Env × Event)} {guid : Guid}
    (halone : alone.map Prod.snd = (events.map Prod.snd).filter (·.comesFrom guid)) :
    Ends (run start events) (fun st ↦ st.mutexFree →
      Ends (run start' alone)
        (fun st' ↦ st'.sessionOf (.client guid) = st.sessionOf (.client guid)) fun _ ↦ True)
      fun _ ↦ True := by
  refine (run_hub start events).imp fun st hst hfree ↦ ?_
  have hfree : (Hub.initial.run (events.map Prod.snd)).stuck = false := by
    rw [← hst]
    exact congrArg (!·) hfree
  refine (run_hub start' alone).imp fun st' hst' ↦ ?_
  have halike := (Hub.alike_initial guid).run hfree
  rw [← halone, ← hst] at halike
  exact (congrArg (fun h ↦ h.broker.sessions (Party.client guid)) hst').trans halike.session

/-- What a client does. -/
def ownSample : List Event :=
  [.connect (.sample 1 "a"), .text 1 [.subscribe [ascii "/x"] 1 .DEFAULT],
    .text 1 [.publish (ascii "/z") 1 .str {}], .text 1 [.unsubscribe 1]]

/-- It does so while another client comes and goes and the local client publishes a topic. -/
def crowdSample : List Event :=
  [.connect (.sample 1 "a"), .connect (.sample 2 "b"),
    .text 2 [.publish (ascii "/x") 1 .int {}, .subscribe [ascii "/z"] 1 .DEFAULT],
    .text 1 [.subscribe [ascii "/x"] 1 .DEFAULT], .publish (ascii "/y") 1 .int {},
    .text 1 [.publish (ascii "/z") 1 .str {}], .disconnect 2, .text 1 [.unsubscribe 1]]

omit [FloatCodec] in
set_option maxRecDepth 8000 in
/-- Both runs have a result. In the run alone a callback is in place. -/
theorem run_session_alone_sample : ∃ st st',
    @run .fractional {} (crowdSample.map fun e ↦ ({}, e)) = .ok st ∧
      @run .fractional .accepting (ownSample.map fun e ↦ (.accepting, e)) = .ok st' ∧
      st'.sessionOf (.client 1) = st.sessionOf (.client 1) := by
  have hcrowd : Ends (@run .fractional {} (crowdSample.map fun e ↦ ({}, e))) (·.mutexFree)
      fun _ ↦ False := by
    decide +kernel
  have hown : Ends (@run .fractional .accepting (ownSample.map fun e ↦ (.accepting, e)))
      (·.mutexFree) fun _ ↦ False := by
    decide +kernel
  obtain ⟨st, hst, hfree⟩ := hcrowd.exists_ok
  obtain ⟨st', hst', -⟩ := hown.exists_ok
  have hsession := @run_session_alone .fractional {} .accepting
    (crowdSample.map fun e ↦ ({}, e)) (ownSample.map fun e ↦ (.accepting, e)) 1 rfl
  exact ⟨st, st', hst, hst', (hsession.of_ok hst hfree).of_ok hst'⟩

end NetworkTables
