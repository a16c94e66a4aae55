/-
  VyomQuant.Lib.Allowance

  Allowances over weighted items.  The items of a predicate are within an allowance if every
  finite family of them weighs no more; how the allowance changes when one item joins the
  others or leaves them.
-/

import Mathlib.Algebra.Order.BigOperators.Group.Finset

namespace Allowance

variable {ι : Type*} {weight : ι → ℤ} {p q : ι → Prop} {v w : ℤ}

/-- Every finite family of items of `p` weighs at most `v`. -/
def Within (weight : ι → ℤ) (p : ι → Prop) (v : ℤ) : Prop :=
  ∀ family : Finset ι, (∀ i ∈ family, p i) → ∑ i ∈ family, weight i ≤ v

theorem Within.mono (h : Within weight p v) (h_sub : ∀ i, q i → p i) (h_le : v ≤ w) :
    Within weight q w := by
  intro family h_family
  exact (h family fun i h_i => h_sub i (h_family i h_i)).trans h_le

theorem within_of_none (h : ∀ i, ¬ p i) (h_v : 0 ≤ v) : Within weight p v := by
  intro family h_family
  have h_empty : family = ∅ := Finset.eq_empty_of_forall_notMem fun i h_i => h i (h_family i h_i)
  rw [h_empty, Finset.sum_empty]
  exact h_v

theorem Within.weight_le (h : Within weight p v) {i : ι} (h_i : p i) : weight i ≤ v := by
  have h_single := h {i} (by simp [h_i])
  rwa [Finset.sum_singleton] at h_single

variable [DecidableEq ι]

theorem Within.insert (h : Within weight p v) (i : ι) (h_weight : 0 ≤ weight i)
    (h_sub : ∀ j, q j → j = i ∨ p j) : Within weight q (v + weight i) := by
  intro family h_family
  have h_rest := h (family.erase i) fun j h_j =>
    (h_sub j (h_family j (Finset.mem_of_mem_erase h_j))).resolve_left (Finset.ne_of_mem_erase h_j)
  by_cases h_i : i ∈ family
  · rw [← Finset.sum_erase_add family weight h_i]
    omega
  · rw [Finset.erase_eq_of_notMem h_i] at h_rest
    omega

theorem Within.erase (h : Within weight p v) {i : ι} (h_i : p i)
    (h_sub : ∀ j, q j → p j ∧ j ≠ i) : Within weight q (v - weight i) := by
  intro family h_family
  have h_notMem : i ∉ family := fun h_mem => (h_sub i (h_family i h_mem)).2 rfl
  have h_all := h (Insert.insert i family) (by
    intro j h_j
    rcases Finset.mem_insert.mp h_j with rfl | h_j
    · exact h_i
    · exact (h_sub j (h_family j h_j)).1)
  rw [Finset.sum_insert h_notMem] at h_all
  omega

end Allowance
