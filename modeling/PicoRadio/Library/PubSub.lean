import Mathlib.Data.List.Induction
import Mathlib.Logic.Function.Basic

/-!
# Publish and subscribe

A **broker** keeps a value and properties for every topic, and for every client a **session**: what
the client subscribes to and which topics it publishes, each under an id of the client's choice. A
client joins and leaves; it gives a topic a value through a publisher of it. A topic is made when it
is first published and stays. Some names are reserved: a client may publish them, but the broker's
topics are not about them.

A request is answered in two independent parts. What it asks for changes the session of the client
that makes it and no other (`Request.ask`); what it does to a topic depends on that session only
(`Request.effect`). So a run of requests has a closed form: a session is made of the requests of
its own client (`Broker.sessions_run`), and the value of a topic is assigned, in order, the values
put to it by clients that published it when they did (`Broker.topics_run`).

Who is told of a topic may begin at any time. From then on a faithful **feed** has every value the
topic takes, once and in order (`Broker.Feed`).

How a value is assigned is a parameter. `read_foldl` finds out what is read after many assignments
when each value is taken whole or left alone: the last one that fits.
-/

namespace PubSub

variable {Client Uid Name Sub Val Props : Type*}

/-! ### Requests -/

/-- What a client has asked for. -/
structure Session (Uid Name Sub : Type*) where
  subscriptions : Uid → Option Sub
  publishers : Uid → Option Name

/-- The session of a client that has just joined. -/
def Session.fresh : Session Uid Name Sub where
  subscriptions _ := none
  publishers _ := none

structure Topic (Val Props : Type*) where
  value : Val
  properties : Props

structure Broker (Client Uid Name Sub Val Props : Type*) where
  topics : Name → Option (Topic Val Props)
  sessions : Client → Option (Session Uid Name Sub)

inductive Request (Client Uid Name Sub Val Props : Type*)
  | join (client : Client)
  | leave (client : Client)
  | subscribe (client : Client) (uid : Uid) (sub : Sub)
  | unsubscribe (client : Client) (uid : Uid)
  /-- A topic that is new is made as given. -/
  | publish (client : Client) (uid : Uid) (name : Name) (topic : Topic Val Props)
  | unpublish (client : Client) (uid : Uid)
  | configure (client : Client) (name : Name) (change : Props → Props)
  /-- A value for the topic that the client publishes under this id. -/
  | put (client : Client) (uid : Uid) (value : Val)

namespace Request

/-- Who makes the request. -/
def client : Request Client Uid Name Sub Val Props → Client
  | join c | leave c | subscribe c _ _ | unsubscribe c _ | publish c _ _ _ | unpublish c _
  | configure c _ _ | put c _ _ => c

variable [DecidableEq Uid]

/-- What becomes of the session of the client. -/
def ask (r : Request Client Uid Name Sub Val Props) (s : Option (Session Uid Name Sub)) :
    Option (Session Uid Name Sub) :=
  match r with
  | join _ => some .fresh
  | leave _ => none
  | subscribe _ uid sub =>
    s.map fun s ↦ { s with subscriptions := Function.update s.subscriptions uid (some sub) }
  | unsubscribe _ uid =>
    s.map fun s ↦ { s with subscriptions := Function.update s.subscriptions uid none }
  | publish _ uid name _ =>
    s.map fun s ↦ { s with publishers := Function.update s.publishers uid (some name) }
  | unpublish _ uid =>
    s.map fun s ↦ { s with publishers := Function.update s.publishers uid none }
  | configure _ _ _ | put _ _ _ => s

variable [DecidableEq Name] (assign : Val → Val → Val) (reserved : Name → Bool)

omit [DecidableEq Uid] in
/-- The value that the request of a client with this session puts to a topic. -/
def given (r : Request Client Uid Name Sub Val Props) (s : Option (Session Uid Name Sub))
    (name : Name) : Option Val :=
  match r with
  | put _ uid value => if s.bind (·.publishers uid) = some name then some value else none
  | join _ | leave _ | subscribe _ _ _ | unsubscribe _ _ | publish _ _ _ _ | unpublish _ _
  | configure _ _ _ => none

omit [DecidableEq Uid] in
/-- The change that the request of a client with this session makes to the properties of a topic. -/
def change (r : Request Client Uid Name Sub Val Props) (s : Option (Session Uid Name Sub))
    (name : Name) : Option (Props → Props) :=
  match r with
  | configure _ name' change => if name' = name ∧ s.isSome then some change else none
  | join _ | leave _ | subscribe _ _ _ | unsubscribe _ _ | publish _ _ _ _ | unpublish _ _
  | put _ _ _ => none

omit [DecidableEq Uid] in
/-- The topic that the request of a client with this session makes under a name that is free. -/
def made (r : Request Client Uid Name Sub Val Props) (s : Option (Session Uid Name Sub))
    (name : Name) : Option (Topic Val Props) :=
  match r with
  | publish _ _ name' topic =>
    if name' = name ∧ reserved name = false ∧ s.isSome then some topic else none
  | join _ | leave _ | subscribe _ _ _ | unsubscribe _ _ | unpublish _ _ | configure _ _ _
  | put _ _ _ => none

omit [DecidableEq Uid] in
/-- What the request of a client with this session does to the topic of a name. -/
def effect (r : Request Client Uid Name Sub Val Props) (s : Option (Session Uid Name Sub))
    (name : Name) : Option (Topic Val Props) → Option (Topic Val Props)
  | none => r.made reserved s name
  | some t => some
    { value := (r.given s name).elim t.value (assign t.value)
      properties := (r.change s name).elim t.properties fun f ↦ f t.properties }

omit [DecidableEq Uid] in
/-- A request that is not about the topic. -/
theorem effect_eq_self {r : Request Client Uid Name Sub Val Props}
    {s : Option (Session Uid Name Sub)} {name : Name} {t : Option (Topic Val Props)}
    (hgiven : r.given s name = none) (hchange : r.change s name = none)
    (hmade : t = none → r.made reserved s name = none) :
    r.effect assign reserved s name t = t := by
  cases t with
  | none => exact hmade rfl
  | some t => rw [effect, hgiven, hchange, Option.elim_none, Option.elim_none]

end Request

/-! ### Runs -/

namespace Broker

variable [DecidableEq Client] [DecidableEq Uid] [DecidableEq Name] (assign : Val → Val → Val)
  (reserved : Name → Bool) (b : Broker Client Uid Name Sub Val Props)

/-- Answer a request. -/
def step (r : Request Client Uid Name Sub Val Props) : Broker Client Uid Name Sub Val Props where
  topics name := r.effect assign reserved (b.sessions r.client) name (b.topics name)
  sessions := Function.update b.sessions r.client (r.ask (b.sessions r.client))

/-- Answer requests in order. -/
def run (rs : List (Request Client Uid Name Sub Val Props)) :
    Broker Client Uid Name Sub Val Props :=
  rs.foldl (step assign reserved) b

/-- The values put to a topic in the course of a run, by clients that publish it at that time. -/
def puts : Broker Client Uid Name Sub Val Props → List (Request Client Uid Name Sub Val Props) →
    Name → List Val
  | _, [], _ => []
  | b, r :: rs, name => (r.given (b.sessions r.client) name).toList ++
      puts (b.step assign reserved r) rs name

/-- The changes of a topic's properties in the course of a run. -/
def changes : Broker Client Uid Name Sub Val Props →
    List (Request Client Uid Name Sub Val Props) → Name → List (Props → Props)
  | _, [], _ => []
  | b, r :: rs, name => (r.change (b.sessions r.client) name).toList ++
      changes (b.step assign reserved r) rs name

/-- The values that a topic takes in the course of a run, one for each that is put to it. -/
def taken : Broker Client Uid Name Sub Val Props → List (Request Client Uid Name Sub Val Props) →
    Name → List Val
  | _, [], _ => []
  | b, r :: rs, name => (if (r.given (b.sessions r.client) name).isSome
      then (((b.step assign reserved r).topics name).map Topic.value).toList else []) ++
      taken (b.step assign reserved r) rs name

/-- What somebody may be told of a topic in the course of a run: nothing, or the value it had at
some time and then, in order, every value it has taken since. -/
def Feed (rs : List (Request Client Uid Name Sub Val Props)) (name : Name) (told : List Val) :
    Prop :=
  told = [] ∨ ∃ earlier later t, rs = earlier ++ later ∧
    (b.run assign reserved earlier).topics name = some t ∧
    told = t.value :: (b.run assign reserved earlier).taken assign reserved later name

variable {assign reserved b}

theorem topics_step (r : Request Client Uid Name Sub Val Props) (name : Name) :
    (b.step assign reserved r).topics name =
      r.effect assign reserved (b.sessions r.client) name (b.topics name) :=
  rfl

theorem sessions_step_client (r : Request Client Uid Name Sub Val Props) :
    (b.step assign reserved r).sessions r.client = r.ask (b.sessions r.client) :=
  Function.update_self _ _ _

theorem sessions_step_of_ne {r : Request Client Uid Name Sub Val Props} {c : Client}
    (hne : c ≠ r.client) : (b.step assign reserved r).sessions c = b.sessions c :=
  Function.update_of_ne hne _ _

theorem run_append (rs rs' : List (Request Client Uid Name Sub Val Props)) :
    b.run assign reserved (rs ++ rs') = (b.run assign reserved rs).run assign reserved rs' :=
  List.foldl_append

/-- A client's session is what its own requests made of it. -/
theorem sessions_run (rs : List (Request Client Uid Name Sub Val Props)) (c : Client) :
    (b.run assign reserved rs).sessions c =
      (rs.filter (·.client = c)).foldl (fun s r ↦ r.ask s) (b.sessions c) := by
  induction rs generalizing b with
  | nil => rfl
  | cons r rs ih =>
    refine (ih (b := b.step assign reserved r)).trans ?_
    rw [List.filter_cons]
    obtain rfl | hne := eq_or_ne r.client c
    · rw [if_pos (by simp), List.foldl_cons, sessions_step_client]
    · rw [if_neg (by simpa using hne), sessions_step_of_ne hne.symm]

/-- No request of another client matters. -/
theorem sessions_run_congr {b' : Broker Client Uid Name Sub Val Props}
    {rs rs' : List (Request Client Uid Name Sub Val Props)} {c : Client}
    (hb : b.sessions c = b'.sessions c)
    (hrs : rs.filter (·.client = c) = rs'.filter (·.client = c)) :
    (b.run assign reserved rs).sessions c = (b'.run assign reserved rs').sessions c := by
  rw [sessions_run, sessions_run, hb, hrs]

/-- A topic stays. Its value is assigned the values put to it, and its properties are changed, in
the order of the requests. -/
theorem topics_run (rs : List (Request Client Uid Name Sub Val Props)) {name : Name}
    {t : Topic Val Props} (ht : b.topics name = some t) :
    (b.run assign reserved rs).topics name = some
      { value := (b.puts assign reserved rs name).foldl assign t.value
        properties := (b.changes assign reserved rs name).foldl (fun p f ↦ f p) t.properties } := by
  induction rs generalizing b t with
  | nil => exact ht
  | cons r rs ih =>
    have hstep : (b.step assign reserved r).topics name =
        r.effect assign reserved (b.sessions r.client) name (some t) := by
      rw [topics_step, ht]
    refine (ih hstep).trans ?_
    rw [puts, changes, List.foldl_append, List.foldl_append]
    congr 2
    · cases r.given (b.sessions r.client) name <;> rfl
    · cases r.change (b.sessions r.client) name <;> rfl

/-- A topic goes back to the request that made it: the first to publish it, before which it was not
there, by a client that had joined, under a name that is not reserved. -/
theorem topics_run_origin {rs : List (Request Client Uid Name Sub Val Props)} {name : Name}
    (hnone : b.topics name = none) {t : Topic Val Props}
    (ht : (b.run assign reserved rs).topics name = some t) :
    ∃ before c uid topic after, rs = before ++ .publish c uid name topic :: after ∧
      (b.run assign reserved before).topics name = none ∧
      reserved name = false ∧ ((b.run assign reserved before).sessions c).isSome ∧
      t.value = (Broker.puts assign reserved
        (b.run assign reserved (before ++ [.publish c uid name topic])) after name).foldl
          assign topic.value := by
  induction rs generalizing b with
  | nil => rw [show (b.run assign reserved []).topics name = none from hnone] at ht; cases ht
  | cons r rs ih =>
    have hstep : (b.step assign reserved r).topics name =
        r.made reserved (b.sessions r.client) name := by
      rw [topics_step, hnone, Request.effect]
    cases hmade : r.made reserved (b.sessions r.client) name with
    | none =>
      obtain ⟨before, c, uid, topic, after, rfl, hnew, hres, hsome, hvalue⟩ :=
        ih (hstep.trans hmade) ht
      exact ⟨r :: before, c, uid, topic, after, rfl, hnew, hres, hsome, hvalue⟩
    | some topic =>
      have hrun : ((b.step assign reserved r).run assign reserved rs).topics name = _ :=
        topics_run rs (hstep.trans hmade)
      have hvalue := congrArg Topic.value (Option.some.inj (ht.symm.trans hrun))
      cases r with
      | publish c uid name' topic' =>
        rw [Request.made] at hmade
        split at hmade
        · next h =>
          obtain ⟨rfl, hres, hsome⟩ := h
          cases hmade
          exact ⟨[], c, uid, topic, rs, rfl, hnone, hres, hsome, hvalue⟩
        · cases hmade
      | join | leave | subscribe | unsubscribe | unpublish | configure | put => cases hmade

/-! ### Feeds -/

theorem taken_append (rs rs' : List (Request Client Uid Name Sub Val Props)) (name : Name) :
    b.taken assign reserved (rs ++ rs') name = b.taken assign reserved rs name ++
      (b.run assign reserved rs).taken assign reserved rs' name := by
  induction rs generalizing b with
  | nil => rfl
  | cons r rs ih =>
    rw [List.cons_append, taken, taken, ih, List.append_assoc]
    rfl

/-- A topic that is there takes the values that come of assigning what is put to it. -/
theorem cons_taken (rs : List (Request Client Uid Name Sub Val Props)) {name : Name}
    {t : Topic Val Props} (ht : b.topics name = some t) :
    t.value :: b.taken assign reserved rs name =
      (b.puts assign reserved rs name).scanl assign t.value := by
  induction rs generalizing b t with
  | nil => rfl
  | cons r rs ih =>
    have hstep : (b.step assign reserved r).topics name =
        r.effect assign reserved (b.sessions r.client) name (some t) := by
      rw [topics_step, ht]
    have hrest := ih hstep
    rw [taken, puts, hstep]
    cases hgiven : r.given (b.sessions r.client) name with
    | none =>
      rw [hgiven, Option.elim_none] at hrest
      exact hrest
    | some v =>
      rw [hgiven, Option.elim_some] at hrest
      rw [Option.toList_some, List.singleton_append, List.scanl_cons, ← hrest, Request.effect,
        hgiven]
      rfl

namespace Feed

variable {rs : List (Request Client Uid Name Sub Val Props)} {name : Name} {told : List Val}

/-- Somebody is told the value of a topic for the first time. -/
theorem first {t : Topic Val Props} (ht : (b.run assign reserved rs).topics name = some t) :
    b.Feed assign reserved rs name [t.value] :=
  .inr ⟨rs, [], t, (List.append_nil rs).symm, ht, rfl⟩

/-- Who has been told a value is told every other. -/
theorem append (h : b.Feed assign reserved rs name told) (htold : told ≠ [])
    (rs' : List (Request Client Uid Name Sub Val Props)) :
    b.Feed assign reserved (rs ++ rs') name
      (told ++ (b.run assign reserved rs).taken assign reserved rs' name) := by
  obtain ⟨earlier, later, t, rfl, ht, rfl⟩ := h.resolve_left htold
  refine .inr ⟨earlier, later ++ rs', t, List.append_assoc _ _ _, ht, ?_⟩
  rw [taken_append, List.cons_append, run_append]

end Feed

end Broker

/-! ### The last value that fits -/

section Reading

variable {Shape ρ : Type*} {assign : Val → Val → Val} {shape : Val → Shape} {read : Val → ρ}
  {fits : Shape → Val → Bool} {view : Shape → Val → ρ} {Settled : Shape → Prop}

/-- A value whose shape is settled keeps it. -/
theorem shape_foldl (hshape : ∀ v w, Settled (shape v) → shape (assign v w) = shape v) {v : Val}
    (hv : Settled (shape v)) (ws : List Val) : shape (ws.foldl assign v) = shape v := by
  induction ws generalizing v with
  | nil => rfl
  | cons w ws ih =>
    have hw := hshape v w hv
    rw [List.foldl_cons, ih (hw.symm ▸ hv), hw]

/-- If another value is read in the place of one whose shape is settled when it fits, and has no
effect on what is read when it does not, then the last that fits is read after many. -/
theorem read_foldl (hshape : ∀ v w, Settled (shape v) → shape (assign v w) = shape v)
    (hread : ∀ v w, Settled (shape v) →
      read (assign v w) = if fits (shape v) w then view (shape v) w else read v)
    {v : Val} (hv : Settled (shape v)) (ws : List Val) :
    read (ws.foldl assign v) =
      ((ws.filter (fits (shape v))).getLast?).elim (read v) (view (shape v)) := by
  induction ws using List.reverseRecOn with
  | nil => rfl
  | append_singleton ws w ih =>
    have hfold := shape_foldl hshape hv ws
    rw [List.foldl_append, List.foldl_cons, List.foldl_nil, hread _ _ (hfold.symm ▸ hv), hfold,
      List.filter_append, List.filter_cons, List.filter_nil]
    split
    · rw [List.getLast?_concat, Option.elim_some]
    · rw [List.append_nil, ih]

end Reading

end PubSub
