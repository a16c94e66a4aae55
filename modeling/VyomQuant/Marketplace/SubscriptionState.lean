/-
  VyomQuant.Marketplace.SubscriptionState

  The seven subscription states of `subscription_state.py`, the twelve permitted pairs,
  and the thirteen the database admits: `012` adds the activation of a subscription
  whose payment had failed.
-/

import Mathlib.Data.Nat.Notation

namespace VyomQuant.Marketplace

inductive SubscriptionState where
  | pending
  | active
  | expired
  | cancelled
  | refunded
  | paymentFailed
  | suspended
deriving DecidableEq

/-- `SUBSCRIPTION_TRANSITIONS`. -/
def SUBSCRIPTION_TRANSITIONS : SubscriptionState → List SubscriptionState
  | .pending => [.active, .paymentFailed, .cancelled]
  | .active => [.expired, .cancelled, .refunded, .suspended]
  | .expired => [.active]
  | .cancelled => [.active]
  | .suspended => [.active, .expired]
  | .paymentFailed => [.pending]
  | .refunded => []

def canTransition (current target : SubscriptionState) : Prop :=
  target ∈ SUBSCRIPTION_TRANSITIONS current

instance (current target : SubscriptionState) : Decidable (canTransition current target) :=
  inferInstanceAs (Decidable (target ∈ SUBSCRIPTION_TRANSITIONS current))

/-- `ELIGIBLE_FOR_ACTIVATION`: the states with an edge to `active`, and `payment_failed`. -/
def eligibleForActivation (status : SubscriptionState) : Prop :=
  canTransition status .active ∨ status = .paymentFailed

instance (status : SubscriptionState) : Decidable (eligibleForActivation status) :=
  inferInstanceAs (Decidable (_ ∨ _))

/-- `marketplace_subscription_allowed_transitions`: the pairs the guard admits. -/
def allowedTransition (fromState toState : SubscriptionState) : Prop :=
  canTransition fromState toState ∨ (fromState = .paymentFailed ∧ toState = .active)

instance (fromState toState : SubscriptionState) : Decidable (allowedTransition fromState toState) :=
  inferInstanceAs (Decidable (_ ∨ _))

theorem allowedTransition_of_eligible {status : SubscriptionState}
    (h : eligibleForActivation status) : allowedTransition status .active :=
  h.imp id fun h_failed => ⟨h_failed, rfl⟩

theorem eligible_iff (status : SubscriptionState) :
    eligibleForActivation status ↔ status ≠ .active ∧ status ≠ .refunded := by
  cases status <;> decide

theorem canTransition_refunded_iff (status : SubscriptionState) :
    canTransition status .refunded ↔ status = .active := by
  cases status <;> decide

theorem not_allowedTransition_refunded (target : SubscriptionState) :
    ¬ allowedTransition .refunded target := by
  cases target <;> decide

end VyomQuant.Marketplace
