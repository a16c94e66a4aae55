/-
  VyomQuant.Lib.SequenceLog

  Numbers of a log in increasing order, read from a floor on and cut after `cap` of
  them.  `take_eq_range'` is the reading of a log without holes, and
  `take_without_gap_iff` says what the log has to hold for the cut reading to be one:
  every number of the window, and none above `last` when `last` is inside the window.
-/

import Mathlib.Data.List.Range
import Mathlib.Data.List.Nodup

namespace SequenceLog

/-- The numbers of a log above `floor`, each above the ones before it. -/
def AscendsFrom (floor : ℕ) (l : List ℕ) : Prop :=
  l.Pairwise (· < ·) ∧ ∀ n ∈ l, floor < n

theorem AscendsFrom.tail {floor n : ℕ} {l : List ℕ} (h : AscendsFrom floor (n :: l)) :
    AscendsFrom n l :=
  ⟨(List.pairwise_cons.mp h.1).2, (List.pairwise_cons.mp h.1).1⟩

theorem AscendsFrom.floor_lt {floor n : ℕ} {l : List ℕ} (h : AscendsFrom floor (n :: l)) :
    floor < n :=
  h.2 n List.mem_cons_self

/-- A log that holds the next `m` numbers reads as exactly these. -/
theorem take_eq_range' {floor m : ℕ} {l : List ℕ} (h : AscendsFrom floor l)
    (h_mem : ∀ n, floor < n → n ≤ floor + m → n ∈ l) :
    l.take m = List.range' (floor + 1) m := by
  induction m generalizing floor l with
  | zero => rfl
  | succ m ih =>
    have h_next : floor + 1 ∈ l := h_mem (floor + 1) (by omega) (by omega)
    cases l with
    | nil => exact absurd h_next List.not_mem_nil
    | cons n rest =>
      -- Nothing lies between the floor and the next number, so the log starts with it.
      have h_head : n = floor + 1 := by
        have h_lt : floor < n := h.floor_lt
        rcases List.mem_cons.mp h_next with h_eq | h_rest
        · exact h_eq.symm
        · have h_below : n < floor + 1 := h.tail.2 _ h_rest
          omega
      subst h_head
      rw [List.take_succ_cons, List.range'_succ, ih h.tail]
      intro k h_lt h_le
      rcases List.mem_cons.mp (h_mem k (by omega) (by omega)) with h_eq | h_rest
      · omega
      · exact h_rest

/-- A log between `floor` and `floor + m` has at most `m` numbers. -/
theorem length_le {floor m : ℕ} {l : List ℕ} (h : AscendsFrom floor l)
    (h_le : ∀ n ∈ l, n ≤ floor + m) : l.length ≤ m := by
  induction l generalizing floor m with
  | nil => exact Nat.zero_le m
  | cons n rest ih =>
    have h_lt : floor < n := h.floor_lt
    have h_top : n ≤ floor + m := h_le n List.mem_cons_self
    have h_rest : rest.length ≤ floor + m - n := by
      apply ih h.tail
      intro k h_mem
      have h_k := h_le k (List.mem_cons_of_mem n h_mem)
      omega
    show rest.length + 1 ≤ m
    omega

/-- The numbers from `floor + 1` to `last`, cut after `cap`, are all there, and no others
    where the cut does not hide them. -/
def HoldsWindow (floor last cap : ℕ) (l : List ℕ) : Prop :=
  (∀ n, floor < n → n ≤ last → n ≤ floor + cap → n ∈ l) ∧
    (last < floor + cap → ∀ n ∈ l, n ≤ last)

/-- The cut reading runs without a hole up to `last`, or up to a full `cap` below it,
    exactly when the log holds the window. -/
theorem take_without_gap_iff {floor last cap : ℕ} {l : List ℕ} (h : AscendsFrom floor l)
    (h_last : floor ≤ last) :
    (∃ m, l.take cap = List.range' (floor + 1) m ∧
        (floor + m = last ∨ (cap ≤ m ∧ floor + m < last))) ↔
      HoldsWindow floor last cap l := by
  constructor
  · rintro ⟨m, h_take, h_end⟩
    have h_length : min cap l.length = m := by
      rw [← List.length_take, h_take, List.length_range']
    constructor
    · intro n h_lt h_le h_window
      have h_read : n ∈ l.take cap := by
        rw [h_take, List.mem_range'_1]
        omega
      exact List.mem_of_mem_take h_read
    · intro h_inside n h_mem
      -- Fewer than `cap` numbers were read, so the reading is the whole log.
      have h_all : l.take cap = l := List.take_of_length_le (by omega)
      rw [h_all] at h_take
      rw [h_take, List.mem_range'_1] at h_mem
      omega
  · rintro ⟨h_holds, h_none⟩
    by_cases h_inside : last < floor + cap
    · have h_length : l.length ≤ last - floor := by
        apply length_le h
        intro n h_mem
        have h_le := h_none h_inside n h_mem
        omega
      refine ⟨last - floor, ?_, Or.inl (by omega)⟩
      rw [List.take_of_length_le (by omega), ← List.take_of_length_le h_length]
      apply take_eq_range' h
      intro n h_lt h_le
      exact h_holds n h_lt (by omega) (by omega)
    · refine ⟨cap, ?_, by omega⟩
      apply take_eq_range' h
      intro n h_lt h_le
      exact h_holds n h_lt (by omega) h_le

end SequenceLog
