/-
  VyomQuant.Lib.Recency

  A table that remembers the most recently used keys.  An ordered dictionary moves a key to
  its end when it is assigned (`touch`) and drops its oldest entries beyond a bound
  (`evict`).

  What it holds after a log of assignments is the end of the table that forgets nothing
  (`touch_evict`).  So a key is remembered as long as fewer other keys than the bound were
  assigned since (`lookup_evict_recent`).
-/

import Mathlib.Data.List.DropRight
import Mathlib.Data.List.Nodup
import Mathlib.Data.List.Dedup

namespace Recency

variable {κ α : Type*} [DecidableEq κ]

/-- Assign under a key and move it to the end. -/
def touch (d : List (κ × α)) (e : κ × α) : List (κ × α) :=
  d.filter (fun old => old.1 ≠ e.1) ++ [e]

/-- Drop the oldest entries until at most `n` are left. -/
def evict (n : ℕ) : List (κ × α) → List (κ × α)
  | [] => []
  | e :: rest => if n < (e :: rest).length then evict n rest else e :: rest

/-- The table that forgets nothing: every key with its last value, by last assignment. -/
def recent (log : List (κ × α)) : List (κ × α) := log.foldl touch []

/-! ## Eviction -/

omit [DecidableEq κ] in
theorem evict_eq_rtake (n : ℕ) (d : List (κ × α)) : evict n d = d.rtake n := by
  induction d with
  | nil => exact (List.rtake_nil n).symm
  | cons e rest ih =>
    unfold evict
    split
    · rename_i h_more
      rw [ih, List.rtake, List.rtake, List.length_cons,
        Nat.succ_sub (Nat.lt_succ_iff.mp h_more), List.drop_succ_cons]
    · rename_i h_fits
      rw [List.rtake, Nat.sub_eq_zero_of_le (not_lt.mp h_fits), List.drop_zero]

omit [DecidableEq κ] in
theorem map_fst_evict (n : ℕ) (d : List (κ × α)) :
    (evict n d).map Prod.fst = (d.map Prod.fst).rtake n := by
  rw [evict_eq_rtake, List.rtake, List.rtake, List.map_drop, List.length_map]

omit [DecidableEq κ] in
theorem evict_suffix (n : ℕ) (d : List (κ × α)) : evict n d <:+ d := by
  rw [evict_eq_rtake]
  exact List.drop_suffix _ _

omit [DecidableEq κ] in
theorem length_evict_le (n : ℕ) (d : List (κ × α)) : (evict n d).length ≤ n := by
  rw [evict_eq_rtake, List.rtake, List.length_drop]
  omega

omit [DecidableEq κ] in
theorem suffix_evict {n : ℕ} {old new : List (κ × α)} (h : new.length ≤ n) :
    new <:+ evict n (old ++ new) := by
  rw [evict_eq_rtake, List.rtake, List.length_append]
  exact ⟨old.drop (old.length + new.length - n), by
    rw [List.drop_append_of_le_length (by omega)]⟩

omit [DecidableEq κ] in
theorem evict_append_of_le {n : ℕ} {old new : List (κ × α)} (h : n ≤ new.length) :
    evict n (old ++ new) = evict n new := by
  rw [evict_eq_rtake, evict_eq_rtake, List.rtake, List.rtake, List.length_append,
    List.drop_append, List.drop_of_length_le (by omega), List.nil_append]
  congr 1
  omega

/-! ## Assignment -/

variable {d : List (κ × α)}

theorem mem_touch {e a : κ × α} : a ∈ touch d e ↔ a ∈ d ∧ a.1 ≠ e.1 ∨ a = e := by
  simp [touch]

theorem map_fst_touch (d : List (κ × α)) (e : κ × α) :
    (touch d e).map Prod.fst = (d.map Prod.fst).filter (fun k => k ≠ e.1) ++ [e.1] := by
  rw [touch, List.map_append, List.filter_map]
  rfl

theorem mem_keys_touch {e : κ × α} {k : κ} :
    k ∈ (touch d e).map Prod.fst ↔ k ∈ d.map Prod.fst ∨ k = e.1 := by
  rw [map_fst_touch, List.mem_append, List.mem_filter, List.mem_singleton, decide_eq_true_eq]
  by_cases h : k = e.1 <;> simp [h]

theorem nodup_touch (h : (d.map Prod.fst).Nodup) (e : κ × α) :
    ((touch d e).map Prod.fst).Nodup := by
  rw [map_fst_touch]
  refine List.Nodup.append (h.filter _) (List.nodup_singleton _) ?_
  intro k h_old h_new
  have h_ne : k ≠ e.1 := by simpa using (List.mem_filter.mp h_old).2
  exact h_ne (List.mem_singleton.mp h_new)

theorem length_le_length_filter_succ (h : (d.map Prod.fst).Nodup) (k : κ) :
    d.length ≤ (d.filter fun old => old.1 ≠ k).length + 1 := by
  induction d with
  | nil => simp
  | cons e rest ih =>
    rw [List.map_cons, List.nodup_cons] at h
    by_cases h_e : e.1 = k
    · have h_rest : rest.filter (fun old => old.1 ≠ k) = rest := by
        refine List.filter_eq_self.mpr fun a h_a => ?_
        have h_ne : a.1 ≠ e.1 := fun h_eq => h.1 (h_eq ▸ List.mem_map_of_mem h_a)
        simpa [← h_e] using h_ne
      rw [List.filter_cons_of_neg (by simpa using h_e), h_rest, List.length_cons]
    · rw [List.filter_cons_of_pos (by simpa using h_e), List.length_cons, List.length_cons]
      have := ih h.2
      omega

theorem touch_evict (n : ℕ) (h : (d.map Prod.fst).Nodup) (e : κ × α) :
    evict n (touch (evict n d) e) = evict n (touch d e) := by
  obtain ⟨old, h_split⟩ := evict_suffix n d
  by_cases h_old : old = []
  · rw [h_old, List.nil_append] at h_split
    rw [h_split]
  · have h_full : n ≤ (evict n d).length := by
      have h_len : (evict n d).length = d.length - (d.length - n) := by
        rw [evict_eq_rtake, List.rtake, List.length_drop]
      have h_lens := congrArg List.length h_split
      rw [List.length_append] at h_lens
      have h_pos := List.length_pos_iff.mpr h_old
      omega
    have h_nodup : ((evict n d).map Prod.fst).Nodup :=
      h.sublist ((evict_suffix n d).sublist.map _)
    have h_enough := length_le_length_filter_succ h_nodup e.1
    have h_touch : touch d e =
        old.filter (fun a => a.1 ≠ e.1) ++ touch (evict n d) e := by
      rw [touch, touch, ← List.append_assoc, ← List.filter_append, h_split]
    rw [h_touch, evict_append_of_le]
    rw [touch, List.length_append, List.length_singleton]
    omega

/-! ## What is remembered -/

theorem recent_append (log : List (κ × α)) (e : κ × α) :
    recent (log ++ [e]) = touch (recent log) e := by
  rw [recent, List.foldl_append]
  rfl

theorem nodup_recent (log : List (κ × α)) : ((recent log).map Prod.fst).Nodup := by
  induction log using List.reverseRecOn with
  | nil => exact List.nodup_nil
  | append_singleton log e ih =>
    rw [recent_append]
    exact nodup_touch ih e

theorem mem_keys_recent {log : List (κ × α)} {k : κ} :
    k ∈ (recent log).map Prod.fst ↔ k ∈ log.map Prod.fst := by
  induction log using List.reverseRecOn with
  | nil => rfl
  | append_singleton log e ih =>
    rw [recent_append, mem_keys_touch, ih]
    simp

theorem length_recent (log : List (κ × α)) :
    (recent log).length = (log.map Prod.fst).dedup.length := by
  rw [← List.length_map Prod.fst]
  refine List.Perm.length_eq ((List.perm_ext_iff_of_nodup (nodup_recent log)
    (List.nodup_dedup _)).mpr fun k => ?_)
  rw [mem_keys_recent, List.mem_dedup]

theorem recent_append_cons (before : List (κ × α)) (e : κ × α) {since : List (κ × α)}
    (h : e.1 ∉ since.map Prod.fst) :
    ∃ old, recent (before ++ e :: since) = old ++ e :: recent since := by
  induction since using List.reverseRecOn with
  | nil => exact ⟨_, recent_append before e⟩
  | append_singleton since a ih =>
    rw [List.map_append, List.mem_append, not_or] at h
    obtain ⟨old, h_old⟩ := ih h.1
    have h_ne : e.1 ≠ a.1 := by simpa using h.2
    refine ⟨old.filter fun b => b.1 ≠ a.1, ?_⟩
    rw [← List.cons_append, ← List.append_assoc, recent_append, h_old, recent_append, touch,
      touch, List.filter_append, List.filter_cons_of_pos (by simpa using h_ne)]
    simp

theorem lookup_of_mem (h : (d.map Prod.fst).Nodup) {e : κ × α} (h_mem : e ∈ d) :
    d.lookup e.1 = some e.2 := by
  induction d with
  | nil => cases h_mem
  | cons a rest ih =>
    rw [List.map_cons, List.nodup_cons] at h
    rcases List.mem_cons.mp h_mem with rfl | h_rest
    · exact List.lookup_cons_self
    · have h_ne : e.1 ≠ a.1 := fun h_eq => h.1 (h_eq ▸ List.mem_map_of_mem h_rest)
      rw [List.lookup_cons, beq_eq_false_iff_ne.mpr h_ne]
      exact ih h.2 h_rest

theorem lookup_evict_recent {n : ℕ} (before : List (κ × α)) (e : κ × α)
    {since : List (κ × α)} (h : e.1 ∉ since.map Prod.fst)
    (h_few : (since.map Prod.fst).dedup.length < n) :
    (evict n (recent (before ++ e :: since))).lookup e.1 = some e.2 := by
  obtain ⟨old, h_old⟩ := recent_append_cons before e h
  have h_stays : e :: recent since <:+ evict n (old ++ e :: recent since) := by
    refine suffix_evict ?_
    rw [List.length_cons, length_recent]
    exact h_few
  have h_nodup : ((evict n (recent (before ++ e :: since))).map Prod.fst).Nodup :=
    (nodup_recent _).sublist ((evict_suffix n _).sublist.map _)
  refine lookup_of_mem h_nodup ?_
  rw [h_old]
  exact h_stays.mem List.mem_cons_self

end Recency
