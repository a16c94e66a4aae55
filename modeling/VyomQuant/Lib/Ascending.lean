/-
  VyomQuant.Lib.Ascending

  Ascending lists of keys: the position of a key by searching, and the keys that
  several lists have in common.
-/

import Mathlib.Data.List.Sort

namespace Ascending

variable {κ : Type} [LinearOrder κ]

/-- How many keys at the front of an ascending list are below `t`. -/
def search (keys : List κ) (t : κ) : ℕ := (keys.takeWhile fun k => k < t).length

theorem search_cons (k : κ) (keys : List κ) (t : κ) :
    search (k :: keys) t = if k < t then search keys t + 1 else 0 := by
  unfold search
  rw [List.takeWhile_cons]
  by_cases h : k < t
  · simp [h]
  · simp [h]

theorem search_le_length (keys : List κ) (t : κ) : search keys t ≤ keys.length :=
  (List.takeWhile_sublist _).length_le

/-- A position is before the one of `t` exactly when its key is below `t`. -/
theorem lt_search_iff {keys : List κ} (h : keys.Pairwise (· < ·)) {i : ℕ} {k t : κ}
    (h_i : keys[i]? = some k) : i < search keys t ↔ k < t := by
  induction keys generalizing i with
  | nil => simp at h_i
  | cons first keys ih =>
    rw [List.pairwise_cons] at h
    rw [search_cons]
    cases i with
    | zero =>
      rw [List.getElem?_cons_zero, Option.some.injEq] at h_i
      subst h_i
      by_cases h_t : first < t
      · simp [h_t]
      · simp [h_t]
    | succ i =>
      rw [List.getElem?_cons_succ] at h_i
      by_cases h_t : first < t
      · rw [if_pos h_t, Nat.succ_lt_succ_iff]
        exact ih h.2 h_i
      · have h_k : first < k := h.1 k (List.mem_of_getElem? h_i)
        rw [if_neg h_t]
        simp only [Nat.not_lt_zero, false_iff]
        exact fun h_lt => h_t (h_k.trans h_lt)

theorem getElem?_search {keys : List κ} (h : keys.Pairwise (· < ·)) {t : κ} (h_t : t ∈ keys) :
    keys[search keys t]? = some t := by
  induction keys with
  | nil => cases h_t
  | cons first keys ih =>
    rw [List.pairwise_cons] at h
    rw [search_cons]
    rcases List.mem_cons.mp h_t with rfl | h_t
    · simp
    · rw [if_pos (h.1 t h_t), List.getElem?_cons_succ]
      exact ih h.2 h_t

/-! ## Common keys -/

/-- The keys that two lists have in common, in ascending order. -/
def inter (keys other : List κ) : List κ :=
  (keys.filter fun k => k ∈ other).insertionSort (· ≤ ·)

theorem mem_inter {keys other : List κ} {k : κ} : k ∈ inter keys other ↔ k ∈ keys ∧ k ∈ other := by
  simp [inter, List.mem_insertionSort]

theorem inter_pairwise {keys : List κ} (other : List κ) (h : keys.Pairwise (· < ·)) :
    (inter keys other).Pairwise (· < ·) := by
  have h_filter := h.filter fun k => decide (k ∈ other)
  have h_sorted : inter keys other = keys.filter fun k => k ∈ other :=
    (h_filter.imp fun h_lt => le_of_lt h_lt).insertionSort_eq
  rw [h_sorted]
  exact h_filter

/-- The keys that a list has in common with all others. -/
def interAll (keys : List κ) (others : List (List κ)) : List κ := others.foldl inter keys

theorem mem_interAll {keys : List κ} {others : List (List κ)} {k : κ} :
    k ∈ interAll keys others ↔ k ∈ keys ∧ ∀ other ∈ others, k ∈ other := by
  induction others generalizing keys with
  | nil => simp [interAll]
  | cons other others ih =>
    show k ∈ interAll (inter keys other) others ↔ _
    rw [ih, mem_inter, List.forall_mem_cons, and_assoc]

theorem interAll_pairwise {keys : List κ} (others : List (List κ)) (h : keys.Pairwise (· < ·)) :
    (interAll keys others).Pairwise (· < ·) := by
  induction others generalizing keys with
  | nil => exact h
  | cons other others ih => exact ih (inter_pairwise other h)

theorem eq_of_mem_iff {keys other : List κ} (h : keys.Pairwise (· < ·))
    (h_other : other.Pairwise (· < ·)) (h_mem : ∀ k, k ∈ keys ↔ k ∈ other) : keys = other := by
  have h_nodup : keys.Nodup := h.imp fun h_lt => h_lt.ne
  have h_nodup' : other.Nodup := h_other.imp fun h_lt => h_lt.ne
  refine ((List.perm_ext_iff_of_nodup h_nodup h_nodup').mpr h_mem).eq_of_pairwise ?_ h h_other
  intro a b _ _ h_ab h_ba
  exact absurd (h_ab.trans h_ba) (lt_irrefl a)

end Ascending
