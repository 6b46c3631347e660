import PicoRadio.Library.Cells
import PicoRadio.Library.Refinement

/-!
# Event handlers

`EventHandler` holds the listeners of the server in an array of fixed size with a count. It stands
for a list of bounded length (`BoundedList`), and does so as long as `RemoveAt` is called with the
index of an event: the function tests only whether there are any events, and counts one off
whatever the index.

The events are pointers, with a null pointer among them; the cells of a new array hold anything.

## Below the count and above it

The cells below the count are the events and those above it hold anything, so a handler stands for a
list just if the two agree below the count. Adding writes the first cell that is free, and removing
moves the events behind the index one cell down.
-/

namespace WebSockets

open Cells

def EVENT_HANDLER_MAX_EVENT_COUNT : ℕ :=
  5

/-- A call of an event handler. -/
inductive HandlerCall (T : Type)
  | Add (event : T)
  | Find (event : T)
  | Remove (event : T)
  | RemoveAt (index : ℤ)
  deriving DecidableEq, Repr

/-- What a call returns. -/
inductive HandlerResult (T : Type)
  | index (i : ℤ)
  | event (event : T)
  deriving DecidableEq, Repr

structure EventHandler (T : Type) where
  count : ℤ
  size : ℤ
  array : List T
  deriving DecidableEq, Repr

variable {T : Type}

namespace EventHandler

/-- Creates a new event handler, with what its memory held before. -/
def new (memory : ℕ → T) : EventHandler T where
  count := 0
  size := EVENT_HANDLER_MAX_EVENT_COUNT
  array := (List.range EVENT_HANDLER_MAX_EVENT_COUNT).map memory

/-- Adds an event to the event handler. -/
def Add (event : T) (h : EventHandler T) : Except Cells.Fault (ℤ × EventHandler T) :=
  if h.count < h.size then do
    let array ← store h.array h.count event
    return (h.count, { h with array, count := h.count + 1 })
  else .ok (-1, h)

/-- Returns the current number of events in the event handler. -/
def Count (h : EventHandler T) : ℤ :=
  h.count

/-- Returns an event at an index. -/
def Get (index : ℤ) (h : EventHandler T) : Except Cells.Fault T :=
  load h.array index

/-- The loop of `Find` over some indices. -/
def findIn [DecidableEq T] (event : T) (array : List T) : List ℕ → Except Cells.Fault ℤ
  | [] => .ok (-1)
  | i :: is => do
    let a ← load array i
    if a = event then return i else findIn event array is

/-- Finds an event in the event handler. -/
def Find [DecidableEq T] (event : T) (h : EventHandler T) : Except Cells.Fault ℤ :=
  findIn event h.array (List.range h.count.toNat)

/-- `array[i] = array[i + 1]` for the `i` that is so far behind the removed index. -/
def shiftEvent (index : ℤ) (array : List T) (k : ℕ) : Except Cells.Fault (List T) := do
  let next ← load array (index + k + 1)
  store array (index + k) next

/-- Removes an event from the event handler at an index. -/
def RemoveAt (nullptr : T) (index : ℤ) (h : EventHandler T) :
    Except Cells.Fault (T × EventHandler T) :=
  if h.count > 0 then do
    let event ← load h.array index
    let count := h.count - 1
    let array ← (List.range (count - index).toNat).foldlM (shiftEvent index) h.array
    return (event, { h with array, count })
  else .ok (nullptr, h)

/-- Removes an event from the event handler. -/
def Remove [DecidableEq T] (nullptr event : T) (h : EventHandler T) :
    Except Cells.Fault (T × EventHandler T) := do
  let index ← h.Find event
  if index < 0 then return (nullptr, h) else h.RemoveAt nullptr index

/-- A call and what it returns. -/
def call [DecidableEq T] (nullptr : T) (h : EventHandler T) :
    HandlerCall T → Except Cells.Fault (EventHandler T × HandlerResult T)
  | .Add event => do
    let r ← h.Add event
    return (r.2, .index r.1)
  | .Find event => do
    let i ← h.Find event
    return (h, .index i)
  | .Remove event => do
    let r ← h.Remove nullptr event
    return (r.2, .event r.1)
  | .RemoveAt index => do
    let r ← h.RemoveAt nullptr index
    return (r.2, .event r.1)

end EventHandler

/-! ### What an event handler stands for -/

/-- A call on a list of bounded length. A call that fails leaves the list as it is. -/
def BoundedList.call [DecidableEq T] (capacity : ℕ) (nullptr : T) (l : List T) :
    HandlerCall T → List T × HandlerResult T
  | .Add event => if l.length < capacity then (l ++ [event], .index l.length) else (l, .index (-1))
  | .Find event => (l, .index ((l.idxOf? event).elim (-1) fun i ↦ i))
  | .Remove event => if event ∈ l then (l.erase event, .event event) else (l, .event nullptr)
  | .RemoveAt index =>
    if index < 0 then (l, .event nullptr)
    else (l[index.toNat]?).elim (l, .event nullptr) fun event ↦
      (l.eraseIdx index.toNat, .event event)

/-- The call does not ask for the removal of an event at an index where there is none, except from
an empty list. -/
def HandlerCall.InRange (l : List T) : HandlerCall T → Prop
  | .RemoveAt index => l = [] ∨ 0 ≤ index ∧ index < l.length
  | _ => True

namespace EventHandler

/-- `Count` and `Get` show this list. -/
def Shows (h : EventHandler T) (l : List T) : Prop :=
  h.Count = l.length ∧ ∀ (i : ℕ) (a : T), l[i]? = some a → h.Get i = .ok a

/-- The list lies at the beginning of the array. -/
structure Holds (h : EventHandler T) (l : List T) : Prop where
  count : h.count = l.length
  size : h.size = EVENT_HANDLER_MAX_EVENT_COUNT
  capacity : l.length ≤ EVENT_HANDLER_MAX_EVENT_COUNT
  length : h.array.length = EVENT_HANDLER_MAX_EVENT_COUNT
  events : ∀ i < l.length, h.array[i]? = l[i]?

theorem new_holds (memory : ℕ → T) : (new memory).Holds [] where
  count := rfl
  size := rfl
  capacity := Nat.zero_le _
  length := by rw [new, List.length_map, List.length_range]
  events := fun _ hi ↦ absurd hi (Nat.not_lt_zero _)

/-- The events behind the index have moved up by one, as far as the loop has come. -/
theorem shiftEvents_ends {array : List T} {i n : ℕ} (hn : i + n < array.length) :
    Ends ((List.range n).foldlM (shiftEvent i) array)
      (fun array' ↦ array'.length = array.length ∧
        ∀ j, array'[j]? = if i ≤ j ∧ j < i + n then array[j + 1]? else array[j]?)
      fun _ ↦ False := by
  induction n with
  | zero => exact ⟨rfl, fun j ↦ by rw [if_neg (by omega)]⟩
  | succ n ih =>
    rw [List.range_succ, List.foldlM_append]
    refine (ih (by omega)).bind fun array' h ↦ ?_
    obtain ⟨hlength, hevents⟩ := h
    have hnext : array'[i + n + 1]? = some array[i + n + 1] := by
      rw [hevents, if_neg (by omega)]
      exact List.getElem?_eq_getElem hn
    rw [List.foldlM_cons, shiftEvent, show (i : ℤ) + n + 1 = ((i + n + 1 : ℕ) : ℤ) by omega,
      load_of_getElem? hnext, ok_bind, show (i : ℤ) + n = ((i + n : ℕ) : ℤ) by omega,
      store_of_lt (by omega), ok_bind]
    refine ⟨by rw [List.length_set, hlength], fun j ↦ ?_⟩
    by_cases hj : i + n = j
    · subst hj
      rw [List.getElem?_set_self (by omega), if_pos (by omega),
        List.getElem?_eq_getElem (by omega)]
    · rw [List.getElem?_set_ne hj, hevents]
      exact if_congr (by omega) rfl rfl

variable {h : EventHandler T} {l : List T}

namespace Holds

theorem getElem? (hl : h.Holds l) {i : ℕ} {a : T} (ha : l[i]? = some a) :
    h.array[i]? = some a := by
  rw [hl.events i (List.getElem?_eq_some_iff.mp ha).1, ha]

theorem shows (hl : h.Holds l) : h.Shows l :=
  ⟨hl.count, fun _ _ ha ↦ load_of_getElem? (hl.getElem? ha)⟩

/-! ### Adding and finding -/

theorem Add (hl : h.Holds l) (event : T) :
    Ends (h.Add event) (fun r ↦ if l.length < EVENT_HANDLER_MAX_EVENT_COUNT then
      r.1 = l.length ∧ r.2.Holds (l ++ [event]) else r = (-1, h)) fun _ ↦ False := by
  have hlength := hl.length
  rw [EventHandler.Add, hl.count, hl.size]
  simp only [Int.ofNat_lt]
  split
  · next hlt =>
    rw [store_of_lt (by omega), ok_bind]
    refine ⟨rfl, ?_, rfl, ?_, ?_, fun i hi ↦ ?_⟩
    · show (l.length : ℤ) + 1 = _
      rw [List.length_append, List.length_singleton]
      rfl
    · rw [List.length_append, List.length_singleton]
      omega
    · rw [List.length_set, hl.length]
    · rw [List.length_append, List.length_singleton] at hi
      rcases Nat.lt_succ_iff_lt_or_eq.mp hi with hi | rfl
      · rw [List.getElem?_set_ne (by omega), hl.events i hi, List.getElem?_append_left hi]
      · rw [List.getElem?_set_self (by omega), List.getElem?_concat_length]
  · exact rfl

variable [DecidableEq T]

theorem findIn (hl : h.Holds l) (event : T) {k n : ℕ} (hn : k + n = l.length) :
    EventHandler.findIn event h.array (List.range' k n) =
      .ok (((l.drop k).idxOf? event).elim (-1) fun i ↦ k + i) := by
  induction n generalizing k with
  | zero => rw [List.drop_eq_nil_of_le (by omega)]; rfl
  | succ n ih =>
    have hk : k < l.length := by omega
    rw [List.range'_succ, EventHandler.findIn,
      load_of_getElem? (hl.getElem? (List.getElem?_eq_getElem hk)), ok_bind,
      List.drop_eq_getElem_cons hk, List.idxOf?_cons]
    by_cases ha : l[k] = event
    · rw [if_pos ha, if_pos (beq_iff_eq.mpr ha), Option.elim_some, Int.natCast_zero, Int.add_zero]
      rfl
    · rw [if_neg ha, if_neg fun h ↦ ha (beq_iff_eq.mp h), ih (by omega), Option.elim_map]
      refine congrArg (fun f ↦ Except.ok (((l.drop (k + 1)).idxOf? event).elim (-1) f))
        (funext fun i ↦ ?_)
      show ((k + 1 : ℕ) : ℤ) + i = k + ((i + 1 : ℕ) : ℤ)
      omega

theorem Find (hl : h.Holds l) (event : T) :
    h.Find event = .ok ((l.idxOf? event).elim (-1) fun i ↦ i) := by
  rw [EventHandler.Find, hl.count, Int.toNat_natCast, List.range_eq_range',
    hl.findIn event (Nat.zero_add _), List.drop_zero]
  simp

/-! ### Removing -/

omit [DecidableEq T] in
theorem RemoveAt (hl : h.Holds l) (nullptr : T) {i : ℕ} {event : T} (hi : l[i]? = some event) :
    Ends (h.RemoveAt nullptr i) (fun r ↦ r.1 = event ∧ r.2.Holds (l.eraseIdx i))
      fun _ ↦ False := by
  have hlt := (List.getElem?_eq_some_iff.mp hi).1
  have hcapacity := hl.capacity
  have hlength := hl.length
  rw [EventHandler.RemoveAt, hl.count, if_pos (by omega), load_of_getElem? (hl.getElem? hi),
    ok_bind]
  dsimp only
  rw [show ((l.length : ℤ) - 1 - i).toNat = l.length - 1 - i by omega]
  refine (shiftEvents_ends (by omega)).bind fun array h ↦ ⟨rfl, ?_, hl.size, ?_, ?_, fun j hj ↦ ?_⟩
  · show (l.length : ℤ) - 1 = _
    rw [List.length_eraseIdx_of_lt hlt]
    omega
  · rw [List.length_eraseIdx_of_lt hlt]
    omega
  · exact h.1.trans hlength
  · rw [List.length_eraseIdx_of_lt hlt] at hj
    rw [h.2, List.getElem?_eraseIdx]
    by_cases hij : i ≤ j
    · rw [if_pos (by omega), if_neg (by omega), hl.events _ (by omega)]
    · rw [if_neg (by omega), if_pos (by omega), hl.events _ (by omega)]

omit [DecidableEq T] in
/-- The count goes down whatever the index is. -/
theorem RemoveAt_count (hl : h.Holds l) (hne : l ≠ []) (nullptr : T) (index : ℤ) :
    Ends (h.RemoveAt nullptr index) (fun r ↦ ¬r.2.Shows l) fun _ ↦ True := by
  rw [EventHandler.RemoveAt, if_pos]
  · refine Ends.bind_any fun event ↦ Ends.bind_any fun array hshows ↦ ?_
    have hcount : h.count - 1 = l.length := hshows.1
    rw [hl.count] at hcount
    omega
  · rw [hl.count]
    have := List.length_pos_iff.mpr hne
    omega

theorem Remove (hl : h.Holds l) (nullptr event : T) :
    Ends (h.Remove nullptr event) (fun r ↦ if event ∈ l then
      r.1 = event ∧ r.2.Holds (l.erase event) else r = (nullptr, h)) fun _ ↦ False := by
  rw [EventHandler.Remove, hl.Find, ok_bind]
  by_cases hmem : event ∈ l
  · obtain ⟨i, hi⟩ := Option.isSome_iff_exists.mp (List.isSome_idxOf?.mpr hmem)
    obtain ⟨hlt, heq, -⟩ := List.idxOf?_eq_some_iff.mp hi
    have herase : l.erase event = l.eraseIdx i := by
      rw [List.erase_eq_eraseIdx, hi]
    simp only [if_pos hmem, herase]
    rw [hi, Option.elim_some, if_neg (by omega)]
    exact hl.RemoveAt nullptr (List.getElem?_eq_some_iff.mpr ⟨hlt, heq⟩)
  · simp only [if_neg hmem]
    rw [List.idxOf?_eq_none_iff.mpr hmem, Option.elim_none, if_pos (by decide)]
    rfl

/-! ### Every call -/

/-- A call in range does what it does on the list. -/
theorem call (hl : h.Holds l) (nullptr : T) {c : HandlerCall T} (hc : c.InRange l) :
    Ends (h.call nullptr c)
      (fun r ↦ r.2 = (BoundedList.call EVENT_HANDLER_MAX_EVENT_COUNT nullptr l c).2 ∧
        r.1.Holds (BoundedList.call EVENT_HANDLER_MAX_EVENT_COUNT nullptr l c).1)
      fun _ ↦ False := by
  cases c with
  | Add event =>
    refine (hl.Add event).bind fun r hr ↦ ?_
    rw [BoundedList.call]
    split at hr
    · next hlt =>
      rw [if_pos hlt]
      exact ⟨congrArg HandlerResult.index hr.1, hr.2⟩
    · next hlt =>
      subst hr
      rw [if_neg hlt]
      exact ⟨rfl, hl⟩
  | Find event =>
    rw [EventHandler.call, hl.Find, ok_bind, BoundedList.call]
    exact ⟨rfl, hl⟩
  | Remove event =>
    refine (hl.Remove nullptr event).bind fun r hr ↦ ?_
    rw [BoundedList.call]
    split at hr
    · next hmem =>
      rw [if_pos hmem]
      exact ⟨congrArg HandlerResult.event hr.1, hr.2⟩
    · next hmem =>
      subst hr
      rw [if_neg hmem]
      exact ⟨rfl, hl⟩
  | RemoveAt index =>
    rcases hc with rfl | ⟨hle, hlt⟩
    · -- from an empty handler nothing is removed
      have hcount : ¬h.count > 0 := by
        rw [hl.count]
        exact Int.lt_irrefl 0
      rw [EventHandler.call, EventHandler.RemoveAt, if_neg hcount, ok_bind, BoundedList.call]
      split
      · exact ⟨rfl, hl⟩
      · exact ⟨rfl, hl⟩
    · obtain ⟨i, rfl⟩ := Int.eq_ofNat_of_zero_le hle
      have hi := List.getElem?_eq_getElem (Int.ofNat_lt.mp hlt)
      refine (hl.RemoveAt nullptr hi).bind fun r hr ↦ ?_
      rw [BoundedList.call, if_neg (by omega), Int.toNat_natCast, hi, Option.elim_some]
      exact ⟨congrArg HandlerResult.event hr.1, hr.2⟩

/-- A call out of range shows another list than the one that is left as it is. -/
theorem call_out (hl : h.Holds l) (nullptr : T) {c : HandlerCall T} (hc : ¬c.InRange l) :
    Ends (h.call nullptr c)
      (fun r ↦ ¬r.1.Shows (BoundedList.call EVENT_HANDLER_MAX_EVENT_COUNT nullptr l c).1)
      fun _ ↦ True := by
  cases c with
  | RemoveAt index =>
    obtain ⟨hne, hout⟩ := not_or.mp hc
    have hleft : (BoundedList.call EVENT_HANDLER_MAX_EVENT_COUNT nullptr l
        (.RemoveAt index)).1 = l := by
      rw [BoundedList.call]
      split
      · rfl
      · rw [List.getElem?_eq_none (by omega), Option.elim_none]
    rw [hleft]
    exact (hl.RemoveAt_count hne nullptr index).bind fun r hr ↦ hr
  | _ => exact absurd trivial hc

end Holds

variable [DecidableEq T]

/-- **An event handler is a list of bounded length** along exactly the runs that call `RemoveAt`
with the index of an event, or on an empty handler. -/
theorem boundedList_iff (nullptr : T) (memory : ℕ → T) (calls : List (HandlerCall T)) :
    Agrees (EventHandler.call nullptr)
        (BoundedList.call EVENT_HANDLER_MAX_EVENT_COUNT nullptr) Shows (new memory) [] calls ↔
      Meets (BoundedList.call EVENT_HANDLER_MAX_EVENT_COUNT nullptr) HandlerCall.InRange [] calls :=
  agrees_iff (fun _ _ hl ↦ hl.shows) (fun _ _ _ hl hc ↦ hl.call nullptr hc)
    (fun _ _ _ hl hc ↦ hl.call_out nullptr hc) (new_holds memory) calls

/-- An event at index 0 is removed at index 3. -/
theorem wrong_index_removes : ¬∀ (nullptr : ℕ) (memory : ℕ → ℕ) (calls : List (HandlerCall ℕ)),
    Agrees (EventHandler.call nullptr)
      (BoundedList.call EVENT_HANDLER_MAX_EVENT_COUNT nullptr) Shows (new memory) [] calls := by
  intro h
  obtain ⟨-, r, hadd, -, -, r', hremove, -, hshows⟩ := h 0 (fun _ ↦ 0) [.Add 1, .RemoveAt 3]
  cases hadd
  cases hremove
  exact absurd hshows.1 (by decide)

end EventHandler

end WebSockets
