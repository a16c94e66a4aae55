/-
  VyomQuant.Lib.Expiring

  A value that a store forgets at some instant, and what becomes of a command to a store
  that cannot be relied on: its answer arrives, or it is lost on the way there or back.
-/

import Mathlib.Data.Nat.Notation
import Mathlib.Data.Option.Basic

/-- A value that is there until an instant. -/
structure Expiring (α : Type) where
  value : α
  expiresAt : ℕ

namespace Expiring

variable {α : Type}

/-- What a read of a key finds. -/
def live (now : ℕ) (entry : Option (Expiring α)) : Option α :=
  entry.bind fun x => if now < x.expiresAt then some x.value else none

@[simp] theorem live_none (now : ℕ) : live now (none : Option (Expiring α)) = none := rfl

@[simp] theorem live_some (now : ℕ) (x : Expiring α) :
    live now (some x) = if now < x.expiresAt then some x.value else none := rfl

theorem live_eq_some_iff {now : ℕ} {entry : Option (Expiring α)} {a : α} :
    live now entry = some a ↔ ∃ x, entry = some x ∧ x.value = a ∧ now < x.expiresAt := by
  cases entry with
  | none => simp
  | some x =>
    rw [live_some]
    split
    · rename_i h_now
      simp [h_now]
    · rename_i h_now
      simp [h_now]

theorem live_of_le {now later : ℕ} {entry : Option (Expiring α)} {a : α} (h_le : now ≤ later)
    (h : live later entry = some a) : live now entry = some a := by
  obtain ⟨x, h_x, h_value, h_later⟩ := live_eq_some_iff.mp h
  exact live_eq_some_iff.mpr ⟨x, h_x, h_value, by omega⟩

end Expiring

/-- What becomes of a command: its answer arrives, or it fails before or after it took
    effect. -/
inductive Command where
  | answered
  | lost
  | unanswered
  deriving DecidableEq

/-- It took effect. -/
def Command.applied : Command → Bool
  | .answered => true
  | .lost => false
  | .unanswered => true
