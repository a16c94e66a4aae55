/-
  VyomQuant.Lib.SlidingWindow

  A log of times from whose front the old ones are dropped, and how many times of a
  history fall into one window.

  A log that is read through a cutoff says what the whole history says
  (`Tracks.evict_eq`).  Where each time of a history was let in with fewer than `limit`
  before it in the window that ends there, no window of that width holds more than `limit`
  (`Admitted.length_window_le`).
-/

import Mathlib.Algebra.Order.Group.Defs
import Mathlib.Data.List.Induction
import Mathlib.Data.List.Sort

namespace SlidingWindow

/-! ## The log -/

section

variable {τ : Type*} [LinearOrder τ] {cutoff : τ} {log history : List τ}

/-- Take what is older than the cutoff off the front. -/
def evict (cutoff : τ) (log : List τ) : List τ := log.dropWhile fun t => t < cutoff

theorem evict_eq_filter (h : log.Pairwise (· ≤ ·)) :
    evict cutoff log = log.filter fun t => cutoff ≤ t := by
  unfold evict
  induction log with
  | nil => rfl
  | cons t rest ih =>
    rw [List.pairwise_cons] at h
    by_cases h_old : t < cutoff
    · rw [List.dropWhile_cons_of_pos (by simpa using h_old), ih h.2, List.filter_cons_of_neg (by simpa using h_old)]
    · rw [List.dropWhile_cons_of_neg (by simpa using h_old), List.filter_eq_self.mpr]
      intro u h_u
      refine decide_eq_true ?_
      rcases List.mem_cons.mp h_u with rfl | h_rest
      · exact not_lt.mp h_old
      · exact (not_lt.mp h_old).trans (h.1 u h_rest)

/-- The log has lost nothing of the history from the cutoff on. -/
structure Tracks (cutoff : τ) (log history : List τ) : Prop where
  sorted : log.Pairwise (· ≤ ·)
  subset : log ⊆ history
  same : ∀ t, cutoff ≤ t → (log.filter fun u => t ≤ u) = history.filter fun u => t ≤ u

theorem Tracks.nil : Tracks cutoff ([] : List τ) [] := ⟨.nil, List.nil_subset _, fun _ _ => rfl⟩

theorem Tracks.mono {cutoff' : τ} (h : Tracks cutoff log history) (h_le : cutoff ≤ cutoff') :
    Tracks cutoff' log history := ⟨h.sorted, h.subset, fun t h_t => h.same t (h_le.trans h_t)⟩

theorem Tracks.evict_eq {cutoff' : τ} (h : Tracks cutoff log history) (h_le : cutoff ≤ cutoff') :
    evict cutoff' log = history.filter fun u => cutoff' ≤ u := by
  rw [evict_eq_filter h.sorted, h.same cutoff' h_le]

theorem Tracks.evict {cutoff' : τ} (h : Tracks cutoff log history) (h_le : cutoff ≤ cutoff') :
    Tracks cutoff' (evict cutoff' log) history where
  sorted := h.sorted.sublist (List.dropWhile_sublist _)
  subset := fun _ h_t => h.subset ((List.dropWhile_sublist _).subset h_t)
  same := by
    intro t h_t
    rw [evict_eq_filter h.sorted, List.filter_filter, ← h.same t (h_le.trans h_t)]
    refine List.filter_congr fun u _ => ?_
    rw [← Bool.decide_and]
    exact decide_eq_decide.mpr ⟨fun h_both => h_both.1, fun h_u => ⟨h_u, h_t.trans h_u⟩⟩

theorem le_getLast? {t : τ} (h : history.Pairwise (· ≤ ·)) (h_t : t ∈ history) :
    ∃ last, history.getLast? = some last ∧ t ≤ last := by
  induction history using List.reverseRecOn with
  | nil => cases h_t
  | append_singleton init last _ =>
    refine ⟨last, List.getLast?_concat, ?_⟩
    rcases List.mem_append.mp h_t with h_init | h_last
    · exact (List.pairwise_append.mp h).2.2 t h_init last (List.mem_singleton_self last)
    · exact (List.mem_singleton.mp h_last).le

theorem Tracks.append {now : τ} (h : Tracks cutoff log history) (h_now : ∀ t ∈ history, t ≤ now) :
    Tracks cutoff (log ++ [now]) (history ++ [now]) where
  sorted := by
    refine List.pairwise_append.mpr ⟨h.sorted, List.pairwise_singleton _ _, fun t h_t u h_u => ?_⟩
    rw [List.mem_singleton.mp h_u]
    exact h_now t (h.subset h_t)
  subset := List.append_subset.mpr
    ⟨fun _ h_t => List.mem_append_left _ (h.subset h_t), List.subset_append_right _ _⟩
  same := by
    intro t h_t
    rw [List.filter_append, List.filter_append, h.same t h_t]

end

/-! ## Windows of a history -/

section

variable {τ : Type*} [AddCommGroup τ] [LinearOrder τ] [IsOrderedAddMonoid τ] {width : τ}
  {limit : ℕ} {history : List τ}

/-- Each time was let in with fewer than `limit` in the window that ends there. -/
inductive Admitted (width : τ) (limit : ℕ) : List τ → Prop where
  | nil : Admitted width limit []
  | append {history : List τ} {now : τ} (h : Admitted width limit history)
      (h_room : (history.filter fun t => now - width ≤ t).length < limit) :
      Admitted width limit (history ++ [now])

theorem Admitted.length_window_le (h : Admitted width limit history) (start : τ) :
    (history.filter fun t => start ≤ t ∧ t ≤ start + width).length ≤ limit := by
  induction h with
  | nil => exact Nat.zero_le _
  | @append history now _ h_room ih =>
    rw [List.filter_append, List.length_append]
    by_cases h_in : start ≤ now ∧ now ≤ start + width
    · -- What is in the window before `now` is in the window that ends at `now`.
      have h_before : ∀ t, start ≤ t ∧ t ≤ start + width → now - width ≤ t := fun t h_t =>
        (sub_le_iff_le_add.mpr h_in.2).trans h_t.1
      have h_sub : (history.filter fun t => start ≤ t ∧ t ≤ start + width).length
          ≤ (history.filter fun t => now - width ≤ t).length := by
        refine (List.monotone_filter_right history fun t h_t => ?_).length_le
        exact decide_eq_true (h_before t (of_decide_eq_true h_t))
      rw [List.filter_cons_of_pos (by simpa using h_in), List.filter_nil, List.length_singleton]
      omega
    · rw [List.filter_cons_of_neg (by simpa using h_in), List.filter_nil,
        List.length_nil]
      exact ih

end

end SlidingWindow
