/-
  VyomQuant.Lib.Run

  Runs of a fallible operation in which an operation that raises leaves the state
  as it was, with the invariant rule of such runs: what one successful operation
  preserves, the whole run preserves, under a side condition on the states the
  run goes through.
-/

import VyomQuant.Lib.Fallible

namespace Run

variable {σ α ε : Type*}

/-- One operation; the state survives a failure. -/
def attempt (step : σ → α → Except ε σ) (s : σ) (a : α) : σ :=
  match step s a with
  | .ok s' => s'
  | .error _ => s

/-- The state after a sequence of operations. -/
def final (step : σ → α → Except ε σ) (s : σ) (ops : List α) : σ :=
  ops.foldl (attempt step) s

variable {step : σ → α → Except ε σ}

@[simp] theorem final_nil (s : σ) : final step s [] = s := rfl

@[simp] theorem final_cons (s : σ) (a : α) (ops : List α) :
    final step s (a :: ops) = final step (attempt step s a) ops := rfl

variable {I : σ → Prop} {s : σ}

theorem attempt_invariant {a : α} (h_step : ∀ s', step s a = .ok s' → I s') (h : I s) :
    I (attempt step s a) := by
  unfold attempt
  split
  · rename_i s' h_eq
    exact h_step s' h_eq
  · exact h

variable {ops : List α}

/-- The invariant rule: `P` may be assumed of every state the run goes through. -/
theorem final_invariant {P : σ → Prop} (h_step : ∀ s a s', I s → P s → step s a = .ok s' → I s')
    (h_init : I s) (h_P : ∀ pre, pre <+: ops → P (final step s pre)) : I (final step s ops) := by
  induction ops generalizing s with
  | nil => exact h_init
  | cons a ops ih =>
    rw [final_cons]
    apply ih
    · have h_here : P s := h_P [] (List.nil_prefix)
      exact attempt_invariant (fun s' h => h_step s a s' h_init h_here h) h_init
    · intro pre h_pre
      exact h_P (a :: pre) (List.cons_prefix_cons.mpr ⟨rfl, h_pre⟩)

/-- `M` holds of every operation in the state that it meets. -/
def Throughout (step : σ → α → Except ε σ) (M : σ → α → Prop) (s : σ) (ops : List α) : Prop :=
  ∀ pre a post, ops = pre ++ a :: post → M (final step s pre) a

variable {M : σ → α → Prop}

theorem throughout_nil : Throughout step M s [] := by
  intro pre a post h_eq
  simp at h_eq

theorem throughout_cons {a : α} :
    Throughout step M s (a :: ops) ↔ M s a ∧ Throughout step M (attempt step s a) ops := by
  constructor
  · intro h
    refine ⟨h [] a ops rfl, fun pre b post h_eq => ?_⟩
    exact h (a :: pre) b post (by rw [h_eq, List.cons_append])
  · rintro ⟨h_first, h_rest⟩ pre b post h_eq
    cases pre with
    | nil =>
      cases h_eq
      exact h_first
    | cons c pre =>
      cases h_eq
      exact h_rest pre b post rfl

theorem Throughout.of_prefix {rest : List α} (h : Throughout step M s (ops ++ rest)) :
    Throughout step M s ops := by
  intro pre a post h_eq
  exact h pre a (post ++ rest) (by rw [h_eq, List.append_assoc, List.cons_append])

/-- The invariant rule when `M` may be assumed of every operation in the state that it meets. -/
theorem final_invariant_of_throughout (h_step : ∀ s a s', I s → M s a → step s a = .ok s' → I s')
    (h_init : I s) (h_meets : Throughout step M s ops) : I (final step s ops) := by
  induction ops generalizing s with
  | nil => exact h_init
  | cons a ops ih =>
    rw [final_cons]
    obtain ⟨h_here, h_rest⟩ := throughout_cons.mp h_meets
    exact ih (attempt_invariant (fun s' h => h_step s a s' h_init h_here h) h_init) h_rest

end Run
