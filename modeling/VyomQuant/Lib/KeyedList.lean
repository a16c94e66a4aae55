/-
  VyomQuant.Lib.KeyedList

  A dictionary whose values carry their own key: a list of items with pairwise
  distinct keys, in insertion order.  `put` keeps the place of an item whose key
  is already present and appends otherwise, which is what assigning to a
  dictionary entry does to the iteration order.
-/

import Mathlib.Data.List.Nodup
import Mathlib.Algebra.BigOperators.Group.List.Basic
import Mathlib.Tactic.Abel
import Mathlib.Tactic.Tauto
import VyomQuant.Lib.Fallible

/-! ## Dictionaries as lists of pairs -/

theorem List.lookup_map_pair {α β : Type*} [DecidableEq α] (f : α → β) (ids : List α) (id : α) :
    List.lookup id (ids.map fun id => (id, f id)) = if id ∈ ids then some (f id) else none := by
  induction ids with
  | nil => rfl
  | cons first rest ih =>
    by_cases h : id = first
    · subst h
      simp
    · have h_ne : (id == first) = false := beq_eq_false_iff_ne.mpr h
      simp [List.lookup_cons, h_ne, ih, h]

theorem List.lookup_filterMap_pair {α β : Type*} [DecidableEq α] {f : α → Option β}
    {ids : List α} {id : α} (h_id : id ∈ ids) :
    (ids.filterMap fun id => (f id).map fun value => (id, value)).lookup id = f id := by
  induction ids with
  | nil => cases h_id
  | cons first rest ih =>
    by_cases h_first : id = first
    · subst h_first
      cases h_value : f id with
      | none =>
        rw [List.filterMap_cons_none (by rw [h_value]; rfl)]
        by_cases h_rest : id ∈ rest
        · rw [ih h_rest, h_value]
        · refine List.lookup_eq_none_iff.mpr fun entry h_entry => ?_
          obtain ⟨other, h_other, h_some⟩ := List.mem_filterMap.mp h_entry
          obtain ⟨value, -, rfl⟩ := Option.map_eq_some_iff.mp h_some
          exact bne_iff_ne.mpr fun h_eq => h_rest (h_eq ▸ h_other)
      | some value =>
        rw [List.filterMap_cons_some (by rw [h_value]; rfl), List.lookup_cons_self]
    · have h_rest := (List.mem_cons.mp h_id).resolve_left h_first
      cases h_value : f first with
      | none => rw [List.filterMap_cons_none (by rw [h_value]; rfl), ih h_rest]
      | some value =>
        rw [List.filterMap_cons_some (by rw [h_value]; rfl), List.lookup_cons,
          beq_eq_false_iff_ne.mpr h_first]
        exact ih h_rest

/-- Items with pairwise distinct keys, in insertion order. -/
@[ext] structure KeyedList {α κ : Type*} (key : α → κ) where
  items : List α
  nodup : (items.map key).Nodup

namespace KeyedList

variable {α κ : Type*} {key : α → κ}

/-! ## Assignment and lookup -/

variable [DecidableEq κ]

/-- Replace the first item with the key of `v`, or append `v`. -/
def putItem (key : α → κ) (v : α) : List α → List α
  | [] => [v]
  | a :: rest => if key a = key v then v :: rest else a :: putItem key v rest

theorem map_key_putItem (v : α) (l : List α) :
    (putItem key v l).map key
      = if key v ∈ l.map key then l.map key else l.map key ++ [key v] := by
  induction l with
  | nil => simp [putItem]
  | cons a rest ih =>
    by_cases h : key a = key v
    · simp [putItem, h]
    · have h' : ¬ key v = key a := fun h_eq => h h_eq.symm
      by_cases h_mem : key v ∈ rest.map key
      · rw [if_pos h_mem] at ih
        rw [putItem, if_neg h, List.map_cons, ih, if_pos (by simp_all)]
        rfl
      · rw [if_neg h_mem] at ih
        rw [putItem, if_neg h, List.map_cons, ih, if_neg (by simp_all)]
        rfl

def empty : KeyedList key := ⟨[], List.nodup_nil⟩

/-- The item under a key. -/
def get? (d : KeyedList key) (k : κ) : Option α :=
  d.items.find? fun a => key a = k

/-- Assign `v` under its own key. -/
def put (d : KeyedList key) (v : α) : KeyedList key :=
  ⟨putItem key v d.items, by
    rw [map_key_putItem]
    split
    · exact d.nodup
    · rename_i h
      exact List.nodup_append.mpr ⟨d.nodup, List.nodup_singleton _, by simp_all⟩⟩

variable {d : KeyedList key}

theorem get?_eq_none_iff {k : κ} : d.get? k = none ↔ ∀ a ∈ d.items, key a ≠ k := by
  simp [get?, List.find?_eq_none]

variable {a v w : α}

theorem mem_of_get? {k : κ} (h : d.get? k = some a) : a ∈ d.items ∧ key a = k :=
  ⟨List.mem_of_find?_eq_some h, by simpa using List.find?_some h⟩

variable {l : List α}

theorem find?_key_of_mem (h_nodup : (l.map key).Nodup) (h : a ∈ l) :
    l.find? (fun b => key b = key a) = some a := by
  induction l with
  | nil => cases h
  | cons b rest ih =>
    rw [List.map_cons, List.nodup_cons] at h_nodup
    rcases List.mem_cons.mp h with rfl | h_rest
    · simp
    · have h_ne : key b ≠ key a := fun h_eq =>
        h_nodup.1 (h_eq ▸ List.mem_map_of_mem h_rest)
      rw [List.find?_cons_of_neg (by simpa using h_ne)]
      exact ih h_nodup.2 h_rest

theorem get?_key_of_mem (h : a ∈ d.items) : d.get? (key a) = some a :=
  find?_key_of_mem d.nodup h

theorem get?_eq_some_iff {k : κ} : d.get? k = some a ↔ a ∈ d.items ∧ key a = k := by
  constructor
  · exact mem_of_get?
  · rintro ⟨h_mem, rfl⟩
    exact get?_key_of_mem h_mem

theorem find?_putItem (v : α) (l : List α) (k : κ) :
    (putItem key v l).find? (fun a => key a = k)
      = if k = key v then some v else l.find? fun a => key a = k := by
  induction l with
  | nil =>
    by_cases h : k = key v
    · simp [putItem, h]
    · have h' : ¬ key v = k := fun h_eq => h h_eq.symm
      simp [putItem, h, h']
  | cons a rest ih =>
    by_cases h_a : key a = key v
    · by_cases h : k = key v
      · simp [putItem, h_a, h]
      · have h' : ¬ key v = k := fun h_eq => h h_eq.symm
        simp [putItem, h_a, h, h']
    · rw [putItem, if_neg h_a]
      by_cases h_k : key a = k
      · have h' : ¬ k = key v := fun h_eq => h_a (h_k.trans h_eq)
        simp [h_k, h']
      · rw [List.find?_cons_of_neg (by simpa using h_k), ih,
          List.find?_cons_of_neg (by simpa using h_k)]

theorem get?_put (d : KeyedList key) (v : α) (k : κ) :
    (d.put v).get? k = if k = key v then some v else d.get? k :=
  find?_putItem v d.items k

@[simp] theorem get?_put_self (d : KeyedList key) (v : α) :
    (d.put v).get? (key v) = some v := by
  rw [get?_put, if_pos rfl]

theorem mem_put (h : a ∈ (d.put v).items) : a = v ∨ (a ∈ d.items ∧ key a ≠ key v) := by
  have h_get := get?_key_of_mem h
  rw [get?_put] at h_get
  by_cases h_key : key a = key v
  · rw [if_pos h_key] at h_get
    exact Or.inl (Option.some.inj h_get).symm
  · rw [if_neg h_key] at h_get
    exact Or.inr ⟨(mem_of_get? h_get).1, h_key⟩

theorem putItem_putItem (h : key v = key w) (l : List α) :
    putItem key w (putItem key v l) = putItem key w l := by
  induction l with
  | nil => simp [putItem, h]
  | cons a rest ih =>
    by_cases h_a : key a = key v
    · simp [putItem, h_a, h]
    · have h_a' : ¬ key a = key w := fun h_eq => h_a (h_eq.trans h.symm)
      simp only [putItem, if_neg h_a, if_neg h_a', ih]

theorem put_put (h : key v = key w) (d : KeyedList key) : (d.put v).put w = d.put w :=
  KeyedList.ext (putItem_putItem h d.items)

theorem putItem_of_fresh (h : ∀ a ∈ l, key a ≠ key v) : putItem key v l = l ++ [v] := by
  induction l with
  | nil => rfl
  | cons a rest ih =>
    rw [List.forall_mem_cons] at h
    rw [putItem, if_neg h.1, ih h.2]
    rfl

theorem items_put_of_fresh (h : ∀ a ∈ d.items, key a ≠ key v) : (d.put v).items = d.items ++ [v] :=
  putItem_of_fresh h

theorem putItem_of_mem (h_nodup : (l.map key).Nodup) (h : a ∈ l) : putItem key a l = l := by
  induction l with
  | nil => cases h
  | cons b rest ih =>
    rw [List.map_cons, List.nodup_cons] at h_nodup
    rcases List.mem_cons.mp h with rfl | h_rest
    · rw [putItem, if_pos rfl]
    · have h_ne : key b ≠ key a := fun h_eq =>
        h_nodup.1 (h_eq ▸ List.mem_map_of_mem h_rest)
      rw [putItem, if_neg h_ne, ih h_nodup.2 h_rest]

theorem put_of_mem (h : a ∈ d.items) : d.put a = d :=
  KeyedList.ext (putItem_of_mem d.nodup h)

theorem put_ne_self (h : a ∈ d.items) (h_key : key v = key a) (h_ne : v ≠ a) : d.put v ≠ d := by
  intro h_eq
  have h_get := get?_put_self d v
  rw [h_eq, h_key, get?_key_of_mem h] at h_get
  exact h_ne (Option.some.inj h_get).symm

theorem put_ne_of_fresh {e : KeyedList key} (h : e.get? (key v) = none) : d.put v ≠ e := by
  intro h_eq
  have h_get := get?_put_self d v
  rw [h_eq, h] at h_get
  cases h_get

theorem forall₂_putItem {r : α → α → Prop} (h_key : key v = key w) (h_refl : ∀ a ∈ l, r a a)
    (h : r v w) : List.Forall₂ r (putItem key v l) (putItem key w l) := by
  induction l with
  | nil => exact .cons h .nil
  | cons a rest ih =>
    rw [List.forall_mem_cons] at h_refl
    by_cases h_a : key a = key v
    · rw [putItem, if_pos h_a, putItem, if_pos (h_a.trans h_key)]
      exact .cons h (List.forall₂_same.mpr h_refl.2)
    · rw [putItem, if_neg h_a, putItem, if_neg fun h_eq => h_a (h_eq.trans h_key.symm)]
      exact .cons h_refl.1 (ih h_refl.2)

/-! ## Removal -/

/-- Remove the items that satisfy `p`. -/
def removeAll (d : KeyedList key) (p : α → Prop) [DecidablePred p] : KeyedList key :=
  ⟨d.items.filter fun a => ¬ p a, d.nodup.sublist (List.filter_sublist.map key)⟩

omit [DecidableEq κ] in
theorem mem_removeAll {p : α → Prop} [DecidablePred p] :
    a ∈ (d.removeAll p).items ↔ a ∈ d.items ∧ ¬ p a := by
  simp [removeAll]

theorem get?_removeAll (d : KeyedList key) (p : α → Prop) [DecidablePred p] (k : κ) :
    (d.removeAll p).get? k = (d.get? k).filter fun a => ¬ p a := by
  ext a
  simp only [get?_eq_some_iff, mem_removeAll, Option.filter_eq_some_iff,
    decide_eq_true_eq]
  tauto

/-! ## Sums over the items -/

theorem sum_putItem {M : Type*} [AddCommGroup M] (f : α → M) (v : α) (l : List α) :
    ((putItem key v l).map f).sum
      = (l.map f).sum - ((l.find? fun a => key a = key v).map f).getD 0 + f v := by
  induction l with
  | nil => simp [putItem]
  | cons a rest ih =>
    by_cases h_a : key a = key v
    · rw [putItem, if_pos h_a, List.find?_cons_of_pos (by simpa using h_a)]
      simp only [List.map_cons, List.sum_cons, Option.map_some, Option.getD_some]
      abel
    · rw [putItem, if_neg h_a, List.find?_cons_of_neg (by simpa using h_a)]
      simp only [List.map_cons, List.sum_cons, ih]
      abel

theorem sum_put {M : Type*} [AddCommGroup M] (f : α → M) (d : KeyedList key) (v : α) :
    ((d.put v).items.map f).sum
      = (d.items.map f).sum - ((d.get? (key v)).map f).getD 0 + f v :=
  sum_putItem f v d.items

end KeyedList
