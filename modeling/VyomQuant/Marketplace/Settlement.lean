/-
  VyomQuant.Marketplace.Settlement

  `settlement_service.settle` as a program over the statements of `Store`: the split, the
  pure decision, one attempt that resumes from what earlier attempts accomplished, and
  the retries.

  What an attempt accomplished survives its failure, so `settleOnce` ends either in an
  answer or in the state the next attempt resumes from.  Only what escapes the retries
  is raised.
-/

import VyomQuant.Marketplace.Store

namespace VyomQuant.Marketplace

open Except Program

/-! ## The split -/

def MAX_AMOUNT_MINOR : ℤ := 99999999999

def OWNER_SHARE_PERCENT : ℤ := 90

/-- `money.split_ninety_ten`: the owner share and the platform fee. -/
def splitNinetyTen (amountMinor : ℤ) : Except MarketError (ℤ × ℤ) := do
  refuseIf (amountMinor < 0 ∨ MAX_AMOUNT_MINOR < amountMinor) .invalidAmount
  let ownerShare := amountMinor * OWNER_SHARE_PERCENT / 100
  return (ownerShare, amountMinor - ownerShare)

/-! ## The decision -/

def ofPeriod {α : Type} : Except PeriodError α → Except MarketError α
  | .ok a => .ok a
  | .error .valueError => .error .valueError

/-- The period a payment confirmed at `instant` buys. -/
def decidePeriod (subscription : SubscriptionRow) (instant : Instant) :
    Except MarketError (Instant × Instant) :=
  match subscription.periodExpiry with
  | none => ofPeriod (periodForActivation instant)
  | some storedExpiry => do
    let expiry ← ofPeriod (periodForRenewal storedExpiry instant)
    return (subscription.periodStart.getD instant, expiry)

/-- `_decide_transition`: none when the transition is not permitted. -/
def decideTransition (subscription : SubscriptionRow) (isReversal : Bool) (instant : Instant) :
    Except MarketError (Option Decision) :=
  if isReversal then
    if canTransition subscription.status .refunded then
      .ok (some {
        fromStatus := subscription.status
        toStatus := .refunded
        periodStart := subscription.periodStart
        periodExpiry := subscription.periodExpiry
        cancelledAt := some instant
        priorPeriodExpiry := subscription.periodExpiry })
    else .ok none
  -- A renewal in place: `active` has no edge to itself.
  else if eligibleForActivation subscription.status ∨ subscription.status = .active then do
    let (start, expiry) ← decidePeriod subscription instant
    return some {
      fromStatus := subscription.status
      toStatus := .active
      periodStart := some start
      periodExpiry := some expiry
      cancelledAt := none
      priorPeriodExpiry := subscription.periodExpiry }
  else .ok none

/-! ## One settle call -/

/-- The arguments of one `settle` call.  `attempts` is how many attempts its budget and its
    retry window allow. -/
structure SettleCall where
  providerReference : String
  provider : Provider
  amountMinor : ℤ
  currency : Currency
  subscriptionId : String
  confirmationInstant : Instant
  isReversal : Bool
  reversesReference : Option String
  actorId : Option String
  grantPermission : GrantPermission
  attempts : ℕ
  attempts_pos : 1 ≤ attempts

/-- `reverses_reference`, by default the reference itself, and none for a payment. -/
def SettleCall.reversedReference (call : SettleCall) : Option String :=
  if call.isReversal then some (call.reversesReference.getD call.providerReference) else none

inductive SettlementOutcome where
  | recorded
  | reversed
  | duplicateIgnored
  | unmatched
  | mismatched
deriving DecidableEq

structure SettlementResult where
  outcome : SettlementOutcome
  fromStatus : Option SubscriptionState := none
  toStatus : Option SubscriptionState := none
  periodStart : Option Instant := none
  periodExpiry : Option Instant := none
  periodWritten : Bool := false
  entitlementGranted : Bool := false
deriving DecidableEq

/-- `_Attempt`: what the attempts so far accomplished. -/
structure Attempt where
  subscription : Option SubscriptionRow := none
  settlementRecorded : Bool := false
  transitionWritten : Bool := false
  entitlementGranted : Bool := false
  periodStart : Option Instant := none
  periodExpiry : Option Instant := none
  fromStatus : Option SubscriptionState := none
  toStatus : Option SubscriptionState := none

/-- How an attempt ends: with an answer, or with a `SettlementPersistenceError` and the
    state the next attempt resumes from. -/
inductive AttemptEnd where
  | answered (result : SettlementResult)
  | retry (state : Attempt)

abbrev Settling (α : Type) := Program Res MarketError α

/-- Issue a statement; when it does not complete, the attempt ends. -/
def statement (state : Attempt) (op : MarketOp) (next : Res op → Settling AttemptEnd) :
    Settling AttemptEnd :=
  call op fun
    | .ok answer => next answer
    | .error _ => ret (.retry state)

/-- What `_record_and_transition` returns. -/
inductive Disposition where
  | fresh
  | duplicateIgnored
  | duplicateResumed

/-- `_settlement_payload`. -/
def settlementPayload (call : SettleCall) (shares : ℤ × ℤ) (subscription : SubscriptionRow) :
    SettlementRow where
  subscriptionId := call.subscriptionId
  listingId := subscription.libraryId
  ownerId := subscription.ownerId
  purchaserId := subscription.userId
  amountMinor := call.amountMinor
  ownerShareMinor := shares.1
  platformFeeMinor := shares.2
  currency := call.currency
  provider := call.provider
  providerReference := call.providerReference
  isReversal := call.isReversal
  reversesReference := call.reversedReference
  settledAt := call.confirmationInstant

/-- The arguments of one call of the database function. -/
def recordArgs (call : SettleCall) (payload : SettlementRow) (subscription : SubscriptionRow)
    (decision : Option Decision) (proceedIfDuplicate : Bool) : RecordArgs where
  row := payload
  proceedIfDuplicate
  expectedFromStatus := subscription.status
  transition := decision
  userId := subscription.userId
  actorId := call.actorId

/-- The fields `_record_and_transition` sets once the transition is written. -/
def Attempt.written (state : Attempt) (subscription : SubscriptionRow)
    (decision : Option Decision) (isReversal : Bool) : Attempt :=
  { state with
    settlementRecorded := true
    transitionWritten := true
    fromStatus := some subscription.status
    toStatus := decision.map (·.toStatus)
    periodStart := if isReversal then none else decision.bind (·.periodStart)
    periodExpiry := if isReversal then none else decision.bind (·.periodExpiry) }

/-- The transition of a duplicate is still to be done. -/
def transitionPending (isReversal : Bool) (status : SubscriptionState) : Prop :=
  if isReversal then canTransition status .refunded else eligibleForActivation status

instance (isReversal : Bool) (status : SubscriptionState) :
    Decidable (transitionPending isReversal status) := by
  unfold transitionPending
  infer_instance

/-- The resumption of a duplicate: a fresh read, a fresh decision, and the database function
    again, this time proceeding past the ledger row that is there. -/
def resumeDuplicate (call : SettleCall) (payload : SettlementRow) (state : Attempt)
    (next : Disposition → Attempt → Settling AttemptEnd) : Settling AttemptEnd :=
  statement state (.readSubscription call.subscriptionId) fun
    | none => next .duplicateIgnored state
    | some resumed =>
      if transitionPending call.isReversal resumed.status then
        let state := { state with subscription := some resumed, settlementRecorded := true }
        match decideTransition resumed call.isReversal call.confirmationInstant with
        | .error e => raise e
        | .ok decision =>
          statement state
            (.recordAndTransition (recordArgs call payload resumed decision true)) fun _ =>
              next .duplicateResumed (state.written resumed decision call.isReversal)
      else next .duplicateIgnored state

/-- `_record_and_transition`. -/
def recordAndTransition (call : SettleCall) (shares : ℤ × ℤ) (subscription : SubscriptionRow)
    (state : Attempt) (next : Disposition → Attempt → Settling AttemptEnd) : Settling AttemptEnd :=
  if state.settlementRecorded = true ∧ state.transitionWritten = true then next .fresh state
  else
    let payload := settlementPayload call shares subscription
    match decideTransition subscription call.isReversal call.confirmationInstant with
    | .error e => raise e
    | .ok decision =>
      statement state
        (.recordAndTransition (recordArgs call payload subscription decision false)) fun result =>
          if result.inserted then
            next .fresh (state.written subscription decision call.isReversal)
          else resumeDuplicate call payload state next

/-- The created audit, last and required, and the answer. -/
def auditCreated (call : SettleCall) (state : Attempt) : Settling AttemptEnd :=
  statement state (.writeAudit call.providerReference) fun _ => ret (.answered {
    outcome := if call.isReversal then .reversed else .recorded
    fromStatus := state.fromStatus
    toStatus := state.toStatus
    periodStart := state.periodStart
    periodExpiry := state.periodExpiry
    periodWritten := state.periodExpiry.isSome && !call.isReversal
    entitlementGranted := state.entitlementGranted })

/-- The entitlement, carrying the period expiry, and the audit. -/
def grantAndAudit (call : SettleCall) (subscription : SubscriptionRow) (state : Attempt) :
    Settling AttemptEnd :=
  match state.periodExpiry with
  | some expiresAt =>
    if state.entitlementGranted = false ∧ state.toStatus = some .active then
      statement state (.grantPermission call.grantPermission {
          userId := subscription.userId
          libraryId := subscription.libraryId
          subscriptionId := call.subscriptionId
          expiresAt }) fun _ =>
        auditCreated call { state with entitlementGranted := true }
    else auditCreated call state
  | none => auditCreated call state

/-- What follows `_record_and_transition`. -/
def afterRecord (call : SettleCall) (subscription : SubscriptionRow) (disposition : Disposition)
    (state : Attempt) : Settling AttemptEnd :=
  -- A resumed duplicate goes on from its fresh read.
  let subscription := state.subscription.getD subscription
  match disposition with
  | .duplicateIgnored =>
    statement state (.writeAudit call.providerReference) fun _ => ret (.answered {
      outcome := .duplicateIgnored
      fromStatus := some subscription.status })
  | .duplicateResumed =>
    statement state (.writeAudit call.providerReference) fun _ =>
      grantAndAudit call subscription state
  | .fresh => grantAndAudit call subscription state

def settleRow (call : SettleCall) (shares : ℤ × ℤ) (subscription : SubscriptionRow)
    (state : Attempt) : Settling AttemptEnd :=
  if subscription.priceMinor ≠ some call.amountMinor ∨ subscription.currency ≠ call.currency then
    statement state (.writeAudit call.providerReference) fun _ => ret (.answered {
      outcome := .mismatched
      fromStatus := some subscription.status })
  else recordAndTransition call shares subscription state (afterRecord call subscription)

/-- `_settle_once`: the row is read once and kept for the attempts that follow. -/
def settleOnce (call : SettleCall) (shares : ℤ × ℤ) (state : Attempt) : Settling AttemptEnd :=
  match state.subscription with
  | some subscription => settleRow call shares subscription state
  | none =>
    statement state (.readSubscription call.subscriptionId) fun
      | none =>
        statement state (.writeAudit call.providerReference) fun _ =>
          ret (.answered { outcome := .unmatched })
      | some subscription =>
        settleRow call shares subscription { state with subscription := some subscription }

/-- The attempts, and the audit of their exhaustion, whose failure is only logged. -/
def settleAttempts (call : SettleCall) (shares : ℤ × ℤ) : ℕ → Attempt → Settling SettlementResult
  | 0, _ => .call (.writeAudit call.providerReference) fun _ => raise .settlementPersistFailed
  | attempts + 1, state =>
    (settleOnce call shares state).bind fun
      | .answered result => ret result
      | .retry state' => settleAttempts call shares attempts state'

/-- `settle`. -/
def settle (call : SettleCall) : Settling SettlementResult :=
  if call.providerReference = "" ∨ call.subscriptionId = "" then raise .valueError
  else (lift (splitNinetyTen call.amountMinor)).bind fun shares =>
    settleAttempts call shares call.attempts {}

end VyomQuant.Marketplace
