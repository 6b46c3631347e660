import Mathlib.Data.List.AList
import Mathlib.Data.List.Perm.Basic

/-!
# Unordered maps

A hash map is an association list without repeated keys (`AList`) together with an order of
traversal that is not promised to anybody. `TraversalOrder κ` is such an order: it may depend on
the keys present and on the order they were inserted in, in any way, and all that is known about
it is that a traversal visits each key of the map exactly once.

Maps of pointers are maps into `Option`, `none` being the null pointer. `AList.subscript` is the
subscript operator of such a map: reading an absent key inserts a default for it.
-/

universe u v

/-- An order in which the keys of an unordered map are visited. -/
structure TraversalOrder (κ : Type u) where
  /-- The keys in the order of the traversal. -/
  order : List κ → List κ
  /-- A traversal visits exactly the keys of the map, each once. -/
  perm : ∀ l, (order l).Perm l

namespace TraversalOrder

variable {κ : Type u} {β : κ → Type v} (o : TraversalOrder κ)

/-- The traversal in insertion order. -/
def insertion (κ : Type u) : TraversalOrder κ where
  order := id
  perm := List.Perm.refl

/-- The keys of a map in the order they are visited. -/
def keys (m : AList β) : List κ :=
  o.order m.keys

@[simp]
theorem mem_keys {m : AList β} {k : κ} : k ∈ o.keys m ↔ k ∈ m :=
  (o.perm m.keys).mem_iff

theorem nodup_keys (m : AList β) : (o.keys m).Nodup :=
  (o.perm m.keys).nodup_iff.2 m.keys_nodup

/-- What is collected from the keys depends on neither their order nor the keys that
give nothing. -/
theorem flatMap_perm {γ : Type*} {l l' : List κ} (hl : l.Nodup) (hl' : l'.Nodup)
    {f g : κ → List γ} (hfg : ∀ k, (f k).Perm (g k)) (hmem : ∀ k, f k ≠ [] → (k ∈ l ↔ k ∈ l')) :
    (l.flatMap f).Perm (l'.flatMap g) := by
  have hfilter : ∀ l : List κ, (l.filter fun k ↦ !(f k).isEmpty).flatMap f = l.flatMap f := by
    intro l
    induction l with
    | nil => rfl
    | cons k l ih =>
      cases hk : f k with
      | nil =>
        rw [List.filter_cons_of_neg (by simp [hk]), List.flatMap_cons, hk, ih, List.nil_append]
      | cons c cs =>
        rw [List.filter_cons_of_pos (by simp [hk]), List.flatMap_cons, List.flatMap_cons, ih]
  have hkeys : (l.filter fun k ↦ !(f k).isEmpty).Perm (l'.filter fun k ↦ !(f k).isEmpty) := by
    refine (List.perm_ext_iff_of_nodup (hl.filter _) (hl'.filter _)).2 fun k ↦ ?_
    rw [List.mem_filter, List.mem_filter]
    refine and_congr_left fun hk ↦ hmem k fun hnil ↦ ?_
    rw [hnil] at hk
    exact absurd hk (by simp)
  rw [← hfilter l]
  refine (hkeys.flatMap_right f).trans ?_
  rw [hfilter l']
  exact List.Perm.flatMap_left l' fun k _ ↦ hfg k

end TraversalOrder

namespace AList

variable {κ : Type u} {α : Type v} [DecidableEq κ]

/-! ### Lookups in maps of one value type -/

theorem lookup_insert_ite (m : AList fun _ : κ ↦ α) (k k' : κ) (a : α) :
    (m.insert k a).lookup k' = if k' = k then some a else m.lookup k' := by
  split
  · next h => rw [h, AList.lookup_insert]
  · next h => rw [AList.lookup_insert_ne h]

theorem lookup_erase_ite (m : AList fun _ : κ ↦ α) (k k' : κ) :
    (m.erase k).lookup k' = if k' = k then none else m.lookup k' := by
  split
  · next h => rw [h, AList.lookup_erase]
  · next h => rw [AList.lookup_erase_ne h]

/-- A stored value is stored under a key of the map. -/
theorem mem_of_lookup {β : κ → Type v} {m : AList β} {k : κ} {b : β k}
    (h : m.lookup k = some b) : k ∈ m :=
  AList.lookup_isSome.1 (by rw [h]; rfl)

theorem exists_lookup_of_mem {β : κ → Type v} {m : AList β} {k : κ} (h : k ∈ m) :
    ∃ b, m.lookup k = some b :=
  Option.isSome_iff_exists.1 (AList.lookup_isSome.2 h)

/-! ### The subscript operator -/

/-- Reading a map with the subscript operator: an absent key is inserted with a default value. -/
def subscript (m : AList fun _ : κ ↦ α) (k : κ) (default : α) : AList fun _ : κ ↦ α :=
  match m.lookup k with
  | some _ => m
  | none => m.insert k default

theorem subscript_of_mem {m : AList fun _ : κ ↦ α} {k : κ} {default : α} (h : k ∈ m) :
    m.subscript k default = m := by
  obtain ⟨a, ha⟩ := exists_lookup_of_mem h
  rw [subscript, ha]

theorem lookup_subscript (m : AList fun _ : κ ↦ α) (k k' : κ) (default : α) :
    (m.subscript k default).lookup k' =
      if k' = k then some ((m.lookup k).getD default) else m.lookup k' := by
  unfold subscript
  split
  · next a ha =>
    split
    · next hk => rw [hk, ha]; rfl
    · rfl
  · next ha =>
    split
    · next hk => rw [hk, AList.lookup_insert, ha]; rfl
    · next hk => rw [AList.lookup_insert_ne hk]

theorem mem_subscript {m : AList fun _ : κ ↦ α} {k k' : κ} {default : α} :
    k' ∈ m.subscript k default ↔ k' ∈ m ∨ k' = k := by
  rw [← AList.lookup_isSome, lookup_subscript]
  split
  · next h => simp [h]
  · next h => rw [AList.lookup_isSome, or_iff_left h]

end AList
