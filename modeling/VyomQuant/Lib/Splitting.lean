/-
  VyomQuant.Lib.Splitting

  Where a list can be taken apart again.  A part whose items all satisfy a predicate ends
  where the first item that does not stands (`append_inj_of_stop`), so what stands before the
  first separator and what stands after the last one are determined (`append_cons_inj`,
  `append_cons_inj_last`).
-/

import Mathlib.Data.List.Basic

namespace Splitting

variable {α : Type*} {xs ys r r' : List α}

theorem append_inj_of_stop {p : α → Prop} (h_xs : ∀ a ∈ xs, p a) (h_ys : ∀ a ∈ ys, p a)
    (h_r : ∀ a ∈ r.head?, ¬ p a) (h_r' : ∀ a ∈ r'.head?, ¬ p a) (h : xs ++ r = ys ++ r') :
    xs = ys ∧ r = r' := by
  induction xs generalizing ys with
  | nil =>
    cases ys with
    | nil => exact ⟨rfl, h⟩
    | cons y rest' =>
      have h_head : r = y :: (rest' ++ r') := h
      exact absurd (h_ys y List.mem_cons_self) (h_r y (by rw [h_head]; rfl))
  | cons x rest ih =>
    rw [List.forall_mem_cons] at h_xs
    cases ys with
    | nil =>
      have h_head : x :: (rest ++ r) = r' := h
      exact absurd h_xs.1 (h_r' x (by rw [← h_head]; rfl))
    | cons y rest' =>
      rw [List.forall_mem_cons] at h_ys
      rw [List.cons_append, List.cons_append, List.cons.injEq] at h
      obtain ⟨h_rest, h_r_eq⟩ := ih h_xs.2 h_ys.2 h.2
      exact ⟨by rw [h.1, h_rest], h_r_eq⟩

/-- What stands before the first `c`, and what stands after it. -/
theorem append_cons_inj {c : α} (h_xs : c ∉ xs) (h_ys : c ∉ ys)
    (h : xs ++ c :: r = ys ++ c :: r') : xs = ys ∧ r = r' := by
  have h_stop : ∀ r : List α, ∀ a ∈ (c :: r).head?, ¬ a ≠ c := by
    intro r a h_a
    exact not_not.mpr (Option.some.inj h_a).symm
  obtain ⟨h_eq, h_rest⟩ := append_inj_of_stop (p := fun a => a ≠ c)
    (fun a h_a => ne_of_mem_of_not_mem h_a h_xs) (fun a h_a => ne_of_mem_of_not_mem h_a h_ys)
    (h_stop r) (h_stop r') h
  exact ⟨h_eq, (List.cons.inj h_rest).2⟩

/-- What stands after the last `c`, and what stands before it. -/
theorem append_cons_inj_last {c : α} (h_r : c ∉ r) (h_r' : c ∉ r')
    (h : xs ++ c :: r = ys ++ c :: r') : xs = ys ∧ r = r' := by
  have h_reverse : r.reverse ++ c :: xs.reverse = r'.reverse ++ c :: ys.reverse := by
    simpa using congrArg List.reverse h
  obtain ⟨h_tail, h_front⟩ := append_cons_inj (fun h_mem => h_r (List.mem_reverse.mp h_mem))
    (fun h_mem => h_r' (List.mem_reverse.mp h_mem)) h_reverse
  exact ⟨List.reverse_inj.mp h_front, List.reverse_inj.mp h_tail⟩

/-! ## Fields -/

section Fields

variable [DecidableEq α]

/-- What stands between the separators. -/
def fields (c : α) : List α → List (List α)
  | [] => [[]]
  | a :: rest =>
    if a = c then [] :: fields c rest
    else (a :: (fields c rest).headD []) :: (fields c rest).tail

theorem fields_ne_nil (c : α) (xs : List α) : fields c xs ≠ [] := by
  cases xs with
  | nil => exact List.cons_ne_nil _ _
  | cons a rest =>
    unfold fields
    split
    · exact List.cons_ne_nil _ _
    · exact List.cons_ne_nil _ _

theorem fields_append_cons (c : α) (xs ys : List α) :
    fields c (xs ++ c :: ys) = fields c xs ++ fields c ys := by
  induction xs with
  | nil =>
    show fields c (c :: ys) = [] :: fields c ys
    rw [fields, if_pos rfl]
  | cons a rest ih =>
    rw [List.cons_append, fields, fields, ih]
    by_cases h : a = c
    · rw [if_pos h, if_pos h, List.cons_append]
    · obtain ⟨first, others, h_fields⟩ := List.exists_cons_of_ne_nil (fields_ne_nil c rest)
      rw [if_neg h, if_neg h, h_fields]
      rfl

theorem intercalate_fields (c : α) (xs : List α) : [c].intercalate (fields c xs) = xs := by
  induction xs with
  | nil => rfl
  | cons a rest ih =>
    obtain ⟨first, others, h_fields⟩ := List.exists_cons_of_ne_nil (fields_ne_nil c rest)
    rw [h_fields] at ih
    rw [fields, h_fields]
    by_cases h : a = c
    · rw [if_pos h, h]
      show [] ++ ([c] ++ [c].intercalate (first :: others)) = c :: rest
      rw [ih]
      rfl
    · rw [if_neg h, List.headD_cons, List.tail_cons]
      cases others with
      | nil =>
        show a :: first ++ [] = a :: rest
        rw [← ih]
        rfl
      | cons next others =>
        show a :: first ++ ([c] ++ [c].intercalate (next :: others)) = a :: rest
        rw [← ih]
        rfl

theorem fields_injective (c : α) : Function.Injective (fields c) := by
  intro xs ys h
  rw [← intercalate_fields c xs, h, intercalate_fields]

end Fields

end Splitting
