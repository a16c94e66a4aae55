/-
  VyomQuant.Lib.Redelivery

  Folds over deliveries, of which some repeat others: a repeated delivery that
  changes nothing of a view of the state may as well not have arrived.
-/

import VyomQuant.Lib.Run

namespace Redelivery

variable {α σ V : Type}

/-- A delivery, and whether it repeats one. -/
structure Delivery (α : Type) where
  item : α
  repeated : Bool

def arriving (deliveries : List (Delivery α)) : List α := deliveries.map Delivery.item

/-- What arrives for the first time. -/
def original (deliveries : List (Delivery α)) : List α :=
  (deliveries.filter fun d => !d.repeated).map Delivery.item

/-- One delivery is handled as any other. -/
abbrev transition (step : σ → α → σ) (s : σ) (d : Delivery α) : Except Empty σ :=
  .ok (step s d.item)

theorem final_transition (step : σ → α → σ) (s : σ) (deliveries : List (Delivery α)) :
    Run.final (transition step) s deliveries = (arriving deliveries).foldl step s := by
  induction deliveries generalizing s with
  | nil => rfl
  | cons d rest ih => exact ih (step s d.item)

theorem view_foldl_arriving {step : σ → α → σ} {view : σ → V}
    (h_view : ∀ s t a, view s = view t → view (step s a) = view (step t a))
    {deliveries : List (Delivery α)} {s t : σ} (h : view s = view t)
    (h_idle : Run.Throughout (transition step)
      (fun s d => d.repeated = true → view (step s d.item) = view s) s deliveries) :
    view ((arriving deliveries).foldl step s) = view ((original deliveries).foldl step t) := by
  induction deliveries generalizing s t with
  | nil => exact h
  | cons d rest ih =>
    obtain ⟨h_here, h_rest⟩ := Run.throughout_cons.mp h_idle
    cases h_repeated : d.repeated with
    | true =>
      have h_original : original (d :: rest) = original rest := by
        simp [original, h_repeated]
      rw [h_original]
      exact ih ((h_here h_repeated).trans h) h_rest
    | false =>
      have h_original : original (d :: rest) = d.item :: original rest := by
        simp [original, h_repeated]
      rw [h_original]
      exact ih (h_view s t d.item h) h_rest

end Redelivery
