/-
  VyomQuant.Lib.Allotment

  Items with a value, each held by at most one holder.  `assign` gives free items to a
  holder and `release` frees what a holder holds.  Whatever the holders are, what they
  hold and what is free add up to the whole (`total_held_add_total_free`).
-/

import Mathlib.Algebra.BigOperators.Group.List.Basic
import Mathlib.Data.List.Nodup
import Mathlib.Tactic.Abel

namespace Allotment

variable {ι κ G : Type*} [AddCommGroup G] [DecidableEq κ]

/-! ## Held and free items -/

def total (value : ι → G) (items : List ι) : G := (items.map value).sum

def held (holder : ι → Option κ) (items : List ι) (k : κ) : List ι :=
  items.filter fun i => holder i = some k

def free (holder : ι → Option κ) (items : List ι) : List ι :=
  items.filter fun i => holder i = none

variable {value : ι → G} {holder : ι → Option κ}

@[simp] theorem total_nil : total value [] = 0 := rfl

@[simp] theorem total_cons (i : ι) (items : List ι) :
    total value (i :: items) = value i + total value items := by
  simp [total]

theorem total_held_cons (i : ι) (items : List ι) (k : κ) :
    total value (held holder (i :: items) k)
      = (if holder i = some k then value i else 0) + total value (held holder items k) := by
  by_cases h : holder i = some k <;> simp [held, h]

omit [DecidableEq κ] in
theorem total_free_cons (i : ι) (items : List ι) :
    total value (free holder (i :: items))
      = (if holder i = none then value i else 0) + total value (free holder items) := by
  by_cases h : holder i = none <;> simp [free, h]

theorem sum_ite_holder {holders : List κ} (h_nodup : holders.Nodup) (i : ι) :
    (holders.map fun k => if holder i = some k then value i else 0).sum
      = if ∃ k ∈ holders, holder i = some k then value i else 0 := by
  induction holders with
  | nil => simp
  | cons k rest ih =>
    rw [List.nodup_cons] at h_nodup
    rw [List.map_cons, List.sum_cons, ih h_nodup.2]
    by_cases h : holder i = some k
    · have h_rest : ¬ ∃ k' ∈ rest, holder i = some k' := by
        rintro ⟨k', h_mem, h'⟩
        have h_eq : k = k' := Option.some.inj (h.symm.trans h')
        exact h_nodup.1 (h_eq ▸ h_mem)
      rw [if_pos h, if_neg h_rest, if_pos ⟨k, List.mem_cons_self, h⟩, add_zero]
    · simp [h]

theorem total_held_add_total_free {holders : List κ} (h_nodup : holders.Nodup)
    {items : List ι} (h_holders : ∀ i ∈ items, ∀ k, holder i = some k → k ∈ holders) :
    (holders.map fun k => total value (held holder items k)).sum
        + total value (free holder items)
      = total value items := by
  induction items with
  | nil => simp [held, free]
  | cons i rest ih =>
    rw [List.forall_mem_cons] at h_holders
    simp only [total_held_cons, List.sum_map_add, sum_ite_holder h_nodup, total_free_cons,
      total_cons, ← ih h_holders.2]
    cases h : holder i with
    | none =>
      simp only [reduceCtorEq, and_false, exists_false, if_false, if_true]
      abel
    | some k =>
      have h_mem : ∃ k' ∈ holders, some k = some k' := ⟨k, h_holders.1 k h, rfl⟩
      rw [if_pos h_mem, if_neg (by simp)]
      abel

/-- A holder whose items all satisfy `q` holds the same among those that do. -/
theorem held_filter {items : List ι} {q : ι → Prop} [DecidablePred q] {k : κ}
    (h : ∀ i ∈ items, holder i = some k → q i) :
    held holder (items.filter fun i => q i) k = held holder items k := by
  rw [held, held, List.filter_filter]
  apply List.filter_congr
  intro i h_i
  by_cases h_k : holder i = some k
  · simp [h_k, h i h_i h_k]
  · simp [h_k]

/-! ## Assigning and releasing -/

/-- Give the items that satisfy `p` to the holder `k`. -/
def assign (holder : ι → Option κ) (p : ι → Prop) [DecidablePred p] (k : κ) (i : ι) : Option κ :=
  if p i then some k else holder i

/-- Free everything `k` holds. -/
def release (holder : ι → Option κ) (k : κ) (i : ι) : Option κ :=
  if holder i = some k then none else holder i

variable {p : ι → Prop} [DecidablePred p] {k k' : κ} {items : List ι}

theorem held_assign_self (h_new : ∀ i ∈ items, holder i ≠ some k) :
    held (assign holder p k) items k = items.filter fun i => p i := by
  apply List.filter_congr
  intro i h_i
  by_cases h : p i
  · simp [assign, h]
  · simp [assign, h, h_new i h_i]

theorem held_assign_of_ne (h_ne : k' ≠ k) (h_free : ∀ i ∈ items, p i → holder i = none) :
    held (assign holder p k) items k' = held holder items k' := by
  apply List.filter_congr
  intro i h_i
  by_cases h : p i
  · simp [assign, h, h_free i h_i h, h_ne.symm]
  · simp [assign, h]

theorem held_release_of_ne (h_ne : k' ≠ k) :
    held (release holder k) items k' = held holder items k' := by
  apply List.filter_congr
  intro i _
  by_cases h : holder i = some k
  · simp [release, h, h_ne.symm]
  · simp [release, h]

end Allotment
