/-
  VyomQuant.Lib.HighWater

  The records of a sequence: what is above everything before it.

  A gate that lets through what is above its mark, and moves the mark there, lets through
  the records of what it is given (`records_append`).  They come in order
  (`pairwise_records`), and each is the first with its time (`mem_records`).
-/

import Mathlib.Data.List.Basic
import Mathlib.Order.Lattice

namespace HighWater

variable {τ α : Type*} [LinearOrder τ] {mark : Option τ} {t : τ} {x y : τ × α} {xs ys : List (τ × α)}

def Above (mark : Option τ) (t : τ) : Prop := ∀ m ∈ mark, m < t

instance (mark : Option τ) (t : τ) : Decidable (Above mark t) :=
  match mark with
  | none => isTrue fun _ => nofun
  | some m => decidable_of_iff (m < t) ⟨fun h _ h_m => Option.some.inj h_m ▸ h, fun h => h m rfl⟩

/-- The mark after something was given. -/
def raise (mark : Option τ) (t : τ) : Option τ := if Above mark t then some t else mark

def markAfter (mark : Option τ) (xs : List (τ × α)) : Option τ :=
  xs.foldl (fun mark x => raise mark x.1) mark

/-- What is let through of a sequence. -/
def records : Option τ → List (τ × α) → List (τ × α)
  | _, [] => []
  | mark, x :: rest => (if Above mark x.1 then [x] else []) ++ records (raise mark x.1) rest

theorem above_none : Above none t := fun _ => nofun

theorem above_some {m : τ} : Above (some m) t ↔ m < t :=
  ⟨fun h => h m rfl, fun h _ h_m => Option.some.inj h_m ▸ h⟩

theorem above_raise {u : τ} : Above (raise mark u) t ↔ Above mark t ∧ u < t := by
  unfold raise
  split_ifs with h_above
  · rw [above_some, iff_and_self]
    exact fun h_lt m h_m => (h_above m h_m).trans h_lt
  · rw [iff_self_and]
    intro h_t
    obtain ⟨m, h_m, h_not⟩ : ∃ m ∈ mark, ¬ m < u := by
      simpa only [Above, not_forall, exists_prop] using h_above
    exact (not_lt.mp h_not).trans_lt (h_t m h_m)

theorem above_markAfter : Above (markAfter mark xs) t ↔ Above mark t ∧ ∀ x ∈ xs, x.1 < t := by
  induction xs generalizing mark with
  | nil => exact (and_iff_left (List.forall_mem_nil _)).symm
  | cons x rest ih =>
    show Above (markAfter (raise mark x.1) rest) t ↔ _
    rw [ih, above_raise, List.forall_mem_cons, and_assoc]

theorem records_append :
    records mark (xs ++ ys) = records mark xs ++ records (markAfter mark xs) ys := by
  induction xs generalizing mark with
  | nil => rfl
  | cons x rest ih =>
    rw [List.cons_append, records, records, ih, List.append_assoc]
    rfl

theorem mem_records : x ∈ records mark xs ↔
    ∃ pre post, xs = pre ++ x :: post ∧ Above mark x.1 ∧ ∀ y ∈ pre, y.1 < x.1 := by
  induction xs generalizing mark with
  | nil =>
    refine iff_of_false List.not_mem_nil ?_
    rintro ⟨pre, post, h_nil, -⟩
    exact List.append_ne_nil_of_right_ne_nil pre (List.cons_ne_nil x post) h_nil.symm
  | cons first rest ih =>
    rw [records, List.mem_append, ih]
    constructor
    · rintro (h_first | ⟨pre, post, rfl, h_above, h_pre⟩)
      · split_ifs at h_first with h_above
        · obtain rfl := List.mem_singleton.mp h_first
          exact ⟨[], rest, rfl, h_above, List.forall_mem_nil _⟩
        · cases h_first
      · rw [above_raise] at h_above
        exact ⟨first :: pre, post, rfl, h_above.1, List.forall_mem_cons.mpr ⟨h_above.2, h_pre⟩⟩
    · rintro ⟨pre, post, h_split, h_above, h_pre⟩
      cases pre with
      | nil =>
        obtain ⟨rfl, rfl⟩ := List.cons.inj h_split
        refine .inl ?_
        rw [if_pos h_above]
        exact List.mem_singleton_self _
      | cons head pre =>
        obtain ⟨rfl, rfl⟩ := List.cons.inj h_split
        obtain ⟨h_head, h_pre⟩ := List.forall_mem_cons.mp h_pre
        exact .inr ⟨pre, post, rfl, above_raise.mpr ⟨h_above, h_head⟩, h_pre⟩

theorem above_of_mem_records (h : x ∈ records mark xs) : Above mark x.1 := by
  obtain ⟨_, _, _, h_above, _⟩ := mem_records.mp h
  exact h_above

theorem pairwise_records : (records mark xs).Pairwise fun a b => a.1 < b.1 := by
  induction xs generalizing mark with
  | nil => exact .nil
  | cons x rest ih =>
    rw [records, List.pairwise_append]
    refine ⟨?_, ih, fun a h_a b h_b => ?_⟩
    · split_ifs
      · exact List.pairwise_singleton _ _
      · exact .nil
    · split_ifs at h_a
      · obtain rfl := List.mem_singleton.mp h_a
        exact (above_raise.mp (above_of_mem_records h_b)).2
      · cases h_a

end HighWater
