/-
  VyomQuant.Lib.Shares

  A budget divided in proportion to weights, no part above a cap.  Whatever the signs of the
  weights, the parts do not add up to more than the budget (`sum_share_le`).  No part is
  negative exactly when no weight is, or when the weights come to nothing together
  (`share_nonneg_iff`).
-/

import Mathlib.Algebra.BigOperators.Ring.List
import Mathlib.Algebra.Order.BigOperators.Group.List
import Mathlib.Algebra.Order.Field.Basic

namespace Shares

variable {K : Type*} [Field K] [LinearOrder K] {budget cap total : K}

def share (budget cap total weight : K) : K :=
  min ((if 0 < total then weight / total else 0) * budget) cap

theorem share_le_cap (weight : K) : share budget cap total weight ≤ cap := min_le_right ..

theorem share_of_nonpos (h : total ≤ 0) (weight : K) : share budget cap total weight = min 0 cap := by
  rw [share, if_neg (not_lt.mpr h), zero_mul]

variable [IsStrictOrderedRing K]

theorem share_nonneg_iff_of_pos (h_budget : 0 < budget) (h_cap : 0 ≤ cap) (h : 0 < total)
    {weight : K} :
    0 ≤ share budget cap total weight ↔ 0 ≤ weight := by
  rw [share, if_pos h, le_min_iff, and_iff_left h_cap, mul_nonneg_iff_of_pos_right h_budget]
  rw [le_div_iff₀ h, zero_mul]

theorem share_nonneg_iff (h_budget : 0 < budget) (h_cap : 0 ≤ cap) (weights : List K)
    (total : K) :
    (∀ weight ∈ weights, 0 ≤ share budget cap total weight) ↔
      (∀ weight ∈ weights, 0 ≤ weight) ∨ total ≤ 0 := by
  by_cases h : 0 < total
  · simp only [share_nonneg_iff_of_pos h_budget h_cap h, not_le.mpr h, or_false]
  · have h_nonpos := not_lt.mp h
    simp [share_of_nonpos h_nonpos, h_cap, h_nonpos]

theorem sum_share_le (h_budget : 0 ≤ budget) (cap : K) (weights : List K) :
    (weights.map (share budget cap weights.sum)).sum ≤ budget := by
  by_cases h : 0 < weights.sum
  · calc (weights.map (share budget cap weights.sum)).sum
        ≤ (weights.map fun weight => weight * (budget / weights.sum)).sum := by
          refine List.sum_le_sum fun weight _ => ?_
          rw [share, if_pos h, mul_div_assoc', div_mul_eq_mul_div]
          exact min_le_left ..
      _ = budget := by
          rw [List.sum_map_mul_right, List.map_id', mul_div_cancel₀ _ h.ne']
  · calc (weights.map (share budget cap weights.sum)).sum
        ≤ (weights.map fun _ => (0 : K)).sum := by
          refine List.sum_le_sum fun weight _ => ?_
          rw [share_of_nonpos (not_lt.mp h)]
          exact min_le_left ..
      _ ≤ budget := by simpa using h_budget

end Shares
