/-
  VyomQuant.Lib.KeySort

  Sorting by a key, which forgets the order that the items came in where no two have one
  key.
-/

import Mathlib.Data.List.Sort

namespace KeySort

variable {α β κ : Type} [LinearOrder κ] {key : α → κ} {f : α → β} {l l' : List α}

theorem insertionSort_map_congr (h_key : ∀ a ∈ l, ∀ b ∈ l', key a = key b → f a = f b)
    (h : (l.map fun a => (key a, f a)).Perm (l'.map fun a => (key a, f a))) :
    (l.insertionSort fun a b => key a ≤ key b).map f
      = (l'.insertionSort fun a b => key a ≤ key b).map f := by
  have h_sorted : ∀ l : List α, ((l.insertionSort fun a b => key a ≤ key b).map
      fun a => (key a, f a)).Pairwise fun a b => a.1 ≤ b.1 := by
    intro l
    rw [List.pairwise_map]
    have : Std.Total fun a b : α => key a ≤ key b := ⟨fun a b => le_total _ _⟩
    have : IsTrans α fun a b => key a ≤ key b := ⟨fun _ _ _ => le_trans⟩
    exact List.pairwise_insertionSort _ l
  have h_perm := (((List.perm_insertionSort (fun a b => key a ≤ key b) l).map
    fun a => (key a, f a)).trans h).trans
      ((List.perm_insertionSort (fun a b => key a ≤ key b) l').map fun a => (key a, f a)).symm
  have h_pairs := h_perm.eq_of_pairwise (fun x y h_x h_y h_le h_ge => ?_) (h_sorted l) (h_sorted l')
  · have h_snd := congrArg (List.map Prod.snd) h_pairs
    rw [List.map_map, List.map_map] at h_snd
    exact h_snd
  · obtain ⟨a, h_a, rfl⟩ := List.mem_map.mp h_x
    obtain ⟨b, h_b, rfl⟩ := List.mem_map.mp h_y
    have h_eq : key a = key b := le_antisymm h_le h_ge
    rw [Prod.mk.injEq]
    exact ⟨h_eq, h_key a ((List.mem_insertionSort _).mp h_a) b ((List.mem_insertionSort _).mp h_b) h_eq⟩

theorem insertionSort_congr (h_key : (l.map key).Nodup) (h : l.Perm l') :
    l.insertionSort (fun a b => key a ≤ key b) = l'.insertionSort fun a b => key a ≤ key b := by
  have h_congr := insertionSort_map_congr (f := id) (fun a h_a b h_b h_eq =>
    List.inj_on_of_nodup_map h_key h_a (h.symm.subset h_b) h_eq) (h.map fun a => (key a, id a))
  rwa [List.map_id, List.map_id] at h_congr

theorem insertionSort_eq_self (h : l.Pairwise fun a b => key a < key b) :
    l.insertionSort (fun a b => key a ≤ key b) = l :=
  (h.imp fun h_lt => h_lt.le).insertionSort_eq

/-- Sorting keeps the order of equal keys, so what is left out before sorting can be left
    out after it. -/
theorem filter_insertionSort (p : α → Bool) (l : List α) :
    (l.insertionSort fun a b => key a ≤ key b).filter p
      = (l.filter p).insertionSort fun a b => key a ≤ key b := by
  have h_insert : ∀ (a : α) (sorted : List α), sorted.Pairwise (fun a b => key a ≤ key b) →
      (sorted.orderedInsert (fun a b => key a ≤ key b) a).filter p =
        if p a then (sorted.filter p).orderedInsert (fun a b => key a ≤ key b) a
        else sorted.filter p := by
    intro a sorted h_sorted
    induction sorted with
    | nil => cases h_p : p a <;> simp [h_p]
    | cons b rest ih =>
      rw [List.pairwise_cons] at h_sorted
      by_cases h_le : key a ≤ key b
      · -- everything after is as large, so `a` stays in front
        have h_front : (List.filter p (b :: rest)).orderedInsert (fun a b => key a ≤ key b) a
            = a :: List.filter p (b :: rest) := by
          have h_all : ∀ c ∈ List.filter p (b :: rest), key a ≤ key c := by
            intro c h_c
            rcases List.mem_cons.mp (List.mem_filter.mp h_c).1 with rfl | h_c
            · exact h_le
            · exact h_le.trans (h_sorted.1 c h_c)
          cases h_filter : List.filter p (b :: rest) with
          | nil => rfl
          | cons c others => exact List.orderedInsert_cons_of_le _ others (h_all c (by simp [h_filter]))
        rw [List.orderedInsert_cons_of_le _ rest h_le, h_front]
        cases h_p : p a <;> simp [h_p]
      · rw [List.orderedInsert_of_not_le _ rest h_le, List.filter_cons, ih h_sorted.2]
        cases h_pb : p b with
        | false => simp [h_pb]
        | true =>
          cases h_pa : p a with
          | false => simp [h_pb]
          | true =>
            rw [List.filter_cons_of_pos h_pb]
            simp only [if_true]
            exact (List.orderedInsert_of_not_le (fun a b => key a ≤ key b) _ h_le).symm
  have h_total : Std.Total fun a b : α => key a ≤ key b := ⟨fun a b => le_total _ _⟩
  have h_trans : IsTrans α fun a b => key a ≤ key b := ⟨fun _ _ _ => le_trans⟩
  induction l with
  | nil => rfl
  | cons a rest ih =>
    rw [List.insertionSort_cons, h_insert a _ (List.pairwise_insertionSort _ rest), ih]
    cases h_p : p a <;> simp [h_p]

end KeySort
