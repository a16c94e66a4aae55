/-
  VyomQuant.Lib.RunningPeak

  The largest fall of a sequence from an element to a later one, found in one pass.

  A fall is measured by any function that grows with the element it starts from, so the
  fall to an element is largest from the peak before it.  `Scanned` is what the pass knows
  of what it has read; the peak it keeps beside the largest fall is the peak before the
  first element that such a fall leads to.
-/

import Mathlib.Data.List.Induction
import Mathlib.Order.Bounds.Basic
import Mathlib.Order.Lattice

namespace RunningPeak

variable {α β : Type*}

/-- A fall of size `d` leads to the element at `j`, from there or from before. -/
def FallTo (f : α → α → β) (xs : List α) (j : ℕ) (d : β) : Prop :=
  ∃ i x y, i ≤ j ∧ xs[i]? = some x ∧ xs[j]? = some y ∧ f x y = d

def falls (f : α → α → β) (xs : List α) : Set β := {d | ∃ j, FallTo f xs j d}

section Order

variable [LinearOrder α] [LinearOrder β]

/-- The largest element up to the one at `j`. -/
def PeakAt (xs : List α) (j : ℕ) (p : α) : Prop := IsGreatest {x | ∃ i ≤ j, xs[i]? = some x} p

/-- What the pass keeps: the peak, the largest fall, and the peak at that fall. -/
structure Scan (α β : Type*) where
  peak : α
  best : β
  peakAtBest : α

/-- One element more: a fall counts when it is larger than all before it. -/
def step (f : α → α → β) (s : Scan α β) (x : α) : Scan α β :=
  let peak := max s.peak x
  if s.best < f peak x then ⟨peak, f peak x, peak⟩ else { s with peak }

def scan (f : α → α → β) (first : α) (rest : List α) : Scan α β :=
  rest.foldl (step f) ⟨first, f first first, first⟩

structure Scanned (f : α → α → β) (xs : List α) (s : Scan α β) : Prop where
  peak : IsGreatest {x | x ∈ xs} s.peak
  best : IsGreatest (falls f xs) s.best
  peakAtBest : ∀ j, IsLeast {j | FallTo f xs j s.best} j → PeakAt xs j s.peakAtBest

end Order

section Append

variable {f : α → α → β} {xs : List α} {x : α} {j : ℕ} {d : β}

theorem fallTo_append_of_lt (h : j < xs.length) : FallTo f (xs ++ [x]) j d ↔ FallTo f xs j d := by
  unfold FallTo
  refine exists_congr fun i => exists_congr fun a => exists_congr fun b => and_congr_right ?_
  intro h_le
  rw [List.getElem?_append_left h, List.getElem?_append_left (h_le.trans_lt h)]

theorem peakAt_append_of_lt [LinearOrder α] {p : α} (h : j < xs.length) :
    PeakAt (xs ++ [x]) j p ↔ PeakAt xs j p := by
  have h_same : {a | ∃ i ≤ j, (xs ++ [x])[i]? = some a} = {a | ∃ i ≤ j, xs[i]? = some a} := by
    ext a
    refine exists_congr fun i => and_congr_right fun h_le => ?_
    rw [List.getElem?_append_left (h_le.trans_lt h)]
  rw [PeakAt, PeakAt, h_same]

theorem fallTo_append_last : FallTo f (xs ++ [x]) xs.length d ↔ ∃ a ∈ xs ++ [x], f a x = d := by
  constructor
  · rintro ⟨i, a, b, _, h_a, h_b, h_fall⟩
    rw [List.getElem?_concat_length] at h_b
    cases h_b
    exact ⟨a, List.mem_of_getElem? h_a, h_fall⟩
  · rintro ⟨a, h_a, h_fall⟩
    obtain ⟨i, h_i, h_get⟩ := List.mem_iff_getElem.mp h_a
    rw [List.length_append, List.length_singleton] at h_i
    refine ⟨i, a, x, by omega, ?_, List.getElem?_concat_length, h_fall⟩
    rw [List.getElem?_eq_getElem (by simpa using h_i), h_get]

theorem fallTo_lt_length (h : FallTo f xs j d) : j < xs.length := by
  obtain ⟨_, _, _, _, _, h_get, _⟩ := h
  exact (List.getElem?_eq_some_iff.mp h_get).1

theorem peakAt_last [LinearOrder α] {p : α} (h : IsGreatest {a | a ∈ xs ++ [x]} p) :
    PeakAt (xs ++ [x]) xs.length p := by
  refine ⟨?_, ?_⟩
  · obtain ⟨i, h_i, h_get⟩ := List.mem_iff_getElem.mp h.1
    rw [List.length_append, List.length_singleton] at h_i
    exact ⟨i, by omega, by rw [List.getElem?_eq_getElem (by simpa using h_i), h_get]⟩
  · rintro a ⟨i, _, h_get⟩
    exact h.2 (List.mem_of_getElem? h_get)

end Append

variable [LinearOrder α] [LinearOrder β] {f : α → α → β} {xs : List α} {s : Scan α β}

theorem scanned_singleton (x : α) : Scanned f [x] ⟨x, f x x, x⟩ where
  peak := by simp
  best := by
    refine ⟨⟨0, 0, x, x, le_rfl, rfl, rfl, rfl⟩, ?_⟩
    rintro d ⟨j, h⟩
    rw [← List.nil_append [x]] at h
    have h_j : j = 0 := by
      have h_lt := fallTo_lt_length h
      rw [List.nil_append, List.length_singleton] at h_lt
      omega
    subst h_j
    obtain ⟨a, h_a, rfl⟩ := fallTo_append_last.mp h
    rw [List.mem_singleton.mp h_a]
  peakAtBest := by
    intro j h
    have h_lt := fallTo_lt_length h.1
    rw [List.length_singleton] at h_lt
    obtain rfl : j = 0 := by omega
    have h_only : IsGreatest {a | a ∈ [] ++ [x]} x := by simp
    exact peakAt_last h_only

/-- One element more: the largest fall to it is the fall from the peak. -/
theorem Scanned.step (h_mono : ∀ y, Monotone fun x => f x y) (h : Scanned f xs s) (x : α) :
    Scanned f (xs ++ [x]) (RunningPeak.step f s x) := by
  have h_peak : IsGreatest {a | a ∈ xs ++ [x]} (max s.peak x) := by
    have h_set : {a | a ∈ xs ++ [x]} = {a | a ∈ xs} ∪ {x} := by
      ext a
      simp [or_comm]
    rw [h_set]
    exact h.peak.union isGreatest_singleton
  have h_last : IsGreatest {d | FallTo f (xs ++ [x]) xs.length d} (f (max s.peak x) x) := by
    refine ⟨fallTo_append_last.mpr ⟨_, h_peak.1, rfl⟩, ?_⟩
    intro d h_d
    obtain ⟨a, h_a, rfl⟩ := fallTo_append_last.mp h_d
    exact h_mono x (h_peak.2 h_a)
  have h_falls : falls f (xs ++ [x]) = falls f xs ∪ {d | FallTo f (xs ++ [x]) xs.length d} := by
    ext d
    constructor
    · rintro ⟨j, h_j⟩
      have h_lt := fallTo_lt_length h_j
      rw [List.length_append, List.length_singleton] at h_lt
      rcases Nat.lt_succ_iff_lt_or_eq.mp h_lt with h_before | rfl
      · exact Or.inl ⟨j, (fallTo_append_of_lt h_before).mp h_j⟩
      · exact Or.inr h_j
    · rintro (⟨j, h_j⟩ | h_j)
      · exact ⟨j, (fallTo_append_of_lt (fallTo_lt_length h_j)).mpr h_j⟩
      · exact ⟨_, h_j⟩
  have h_best : IsGreatest (falls f (xs ++ [x])) (max s.best (f (max s.peak x) x)) := by
    rw [h_falls]
    exact h.best.union h_last
  unfold RunningPeak.step
  dsimp only
  split
  · rename_i h_more
    rw [max_eq_right h_more.le] at h_best
    refine ⟨h_peak, h_best, fun j h_j => ?_⟩
    -- No earlier fall is as large, so the last element is the first one it leads to.
    have h_index : j = xs.length := by
      refine le_antisymm (h_j.2 h_last.1) (not_lt.mp fun h_before => ?_)
      have h_fall := (fallTo_append_of_lt h_before).mp h_j.1
      exact absurd (h.best.2 ⟨j, h_fall⟩) (not_le.mpr h_more)
    rw [h_index]
    exact peakAt_last h_peak
  · rename_i h_more
    rw [max_eq_left (not_lt.mp h_more)] at h_best
    refine ⟨h_peak, h_best, fun j h_j => ?_⟩
    obtain ⟨first, h_first⟩ := h.best.1
    have h_before : j < xs.length :=
      (h_j.2 ((fallTo_append_of_lt (fallTo_lt_length h_first)).mpr h_first)).trans_lt
        (fallTo_lt_length h_first)
    refine (peakAt_append_of_lt h_before).mpr (h.peakAtBest j ⟨?_, fun k h_k => ?_⟩)
    · exact (fallTo_append_of_lt h_before).mp h_j.1
    · exact h_j.2 ((fallTo_append_of_lt (fallTo_lt_length h_k)).mpr h_k)

theorem scanned_scan (h_mono : ∀ y, Monotone fun x => f x y) (first : α) (rest : List α) :
    Scanned f (first :: rest) (scan f first rest) := by
  induction rest using List.reverseRecOn with
  | nil => exact scanned_singleton first
  | append_singleton rest x ih =>
    rw [scan, List.foldl_append]
    exact ih.step h_mono x

end RunningPeak
