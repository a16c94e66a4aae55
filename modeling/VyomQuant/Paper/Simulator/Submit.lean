/-
  VyomQuant.Paper.Simulator.Submit

  `paper_simulator.submit_intent` as a program over the repository.

  One attempt reads the account, probes the idempotency key, assesses the intent in
  memory (`assess`: static validation, reference price, funds) and then inserts the
  order at `CREATED` and moves it to `REJECTED` or `ACCEPTED`, in two statements.  A
  limit order's funds are locked by `lockForOrder`, which retries on its own; a market
  order is filled by `apply_fill` after the attempts are over.
-/

import VyomQuant.Paper.Simulator.ApplyFill
import VyomQuant.Paper.Store.Orders

namespace VyomQuant.Paper

open Decimal Except Program
open Accounting (Instant OrderSide AccountingError Account)

/-! ## The call and its outcome -/

/-- The arguments of `submit_intent` beside the session and its configuration. -/
structure Submission where
  intent : OrderIntent
  latestEvent : Option MarketEvent := none
  reference : Option ℚ := none
  filledAt : Option Instant := none
  seriesIndex : ℤ := 0

/-- `SubmitOutcome`. -/
structure SubmitOutcome where
  order : OrderRow
  duplicate : Bool := false
  rejectionReason : Option RejectionReason := none
  fingerprint : OrderFingerprint
  referencePrice : Option ℚ := none
  requiredFunds : Option ℚ := none
  locked : Option ℚ := none
  balanceEvent : Option BalanceEventRow := none
  account : Option AccountRow := none
  fill : Option FillOutcome := none

/-- `SubmitOutcome.accepted`. -/
def SubmitOutcome.accepted (outcome : SubmitOutcome) : Prop :=
  outcome.duplicate = false ∧ outcome.rejectionReason = none

instance (outcome : SubmitOutcome) : Decidable outcome.accepted :=
  inferInstanceAs (Decidable (_ ∧ _))

/-- `_optional_reason`. -/
def optionalReason (order : OrderRow) : Option RejectionReason :=
  if order.orderState = .rejected then order.rejectionReason else none

/-- `_event_instant`. -/
def eventInstant (event : Option MarketEvent) : Option Instant :=
  event.map MarketEvent.eventTimestamp

/-! ## The assessment of an intent -/

/-- The reference price: a limit, else the explicit reference, else the latest event's. -/
def resolveReference (config : SessionConfig) (submission : Submission) (side : OrderSide) :
    Except AccountingError (Option ℚ) :=
  match submission.intent.limitPrice with
  | some limit => do
    let price ← config.accounting.price limit
    return some price
  | none =>
    match submission.reference with
    | some reference => do
      let price ← config.accounting.price reference
      return some price
    | none =>
      match referencePrice submission.latestEvent side with
      | some derived => do
        let price ← config.accounting.price derived
        return some price
      | none => .ok none

/-- What an attempt decides of an intent before it writes. -/
inductive Assessment where
  | rejected (reason : RejectionReason) (referencePrice requiredFunds : Option ℚ)
  | accepted (referencePrice requiredFunds : ℚ)
deriving DecidableEq

/-- Steps 2 to 4: static validation, the reference price, and the funds check on the
    balance read in this attempt. -/
def assess (config : SessionConfig) (submission : Submission) (availableBalance : ℚ) :
    Except PaperError Assessment :=
  match staticRejectionReason submission.intent config with
  | some reason => .ok (.rejected reason none none)
  | none => do
    let side ← oneOf submission.intent.side
    match ← ofAccounting (resolveReference config submission side) with
    | none => return .rejected .noValidatedPrice none none
    | some ref =>
      if ref ≤ 0 then
        return .rejected .noValidatedPrice none none
      else do
        let required ← ofAccounting
          (Accounting.requiredFunds submission.intent.quantity ref config.accounting)
        if availableBalance < required then
          return .rejected .insufficientFunds (some ref) (some required)
        else
          return .accepted ref required

/-! ## The statements -/

/-- The row an intent is inserted as; `_one_of` refuses a text outside the vocabulary. -/
def newOrder (intent : OrderIntent) (key : Option String) (referencePrice : Option ℚ) :
    Except PaperError NewOrder := do
  let side ← oneOf intent.side
  let orderType ← oneOf intent.orderType
  return {
    symbol := intent.symbol, side, orderType, quantity := intent.quantity
    limitPrice := intent.limitPrice, referencePrice, idempotencyKey := key
    signalId := intent.signalId, fingerprint := orderFingerprint intent }

/-- The INSERT at `CREATED` and the UPDATE guarded by it. -/
def insertAndMove (intent : OrderIntent) (key : Option String) (referencePrice : Option ℚ)
    (target : OrderState) (reason : Option RejectionReason) : Repo OrderRow := do
  let order ← lift (newOrder intent key referencePrice)
  let created ← issue (.insertOrder order)
  updateOrder created.id target .created reason

/-- `_reject`. -/
def reject (intent : OrderIntent) (key : Option String) (reason : RejectionReason)
    (referencePrice requiredFunds : Option ℚ) : Repo SubmitOutcome := do
  Program.refuseIf (unrepresentableOrderConstraint intent = true) (.orderInvalid (.rejected reason))
  let rejected ← insertAndMove intent key referencePrice .rejected (some reason)
  return {
    order := rejected, rejectionReason := some reason, fingerprint := orderFingerprint intent
    referencePrice, requiredFunds }

/-- `accounting_lock`, with a breach as the refusal of the order's lock. -/
def lockedAccount (account : Account) (required : ℚ) (config : SessionConfig) :
    Except PaperError Account :=
  match Accounting.lock account required config.accounting with
  | .ok locked => .ok locked
  | .error (.invariantViolation invariant) => .error (.invariantViolation invariant .orderLock)
  | .error e => .error (.accounting e)

/-- `_NoRetryPastTheMoney`: past the account update nothing is run again. -/
def noRetryPastTheMoney (e : PaperError) : PaperError :=
  if isRetryable e then .concurrencyExhausted .submitIntentLock (some .afterAccountUpdate) true
  else e

/-- One attempt of `_lock_for_order`. -/
def lockAttempt (config : SessionConfig) (required : ℚ) (occurredAt : Option Instant) :
    Repo (ℚ × AccountRow × BalanceEventRow) := do
  let account ← issue .lockAccountForUpdate
  let locked ← lift (lockedAccount (accountOf account) required config)
  let amount ← lift (ofAccounting (config.accounting.money required))
  let accountAfter ← issue (.bumpVersion account.version {
    availableBalance := some locked.availableBalance
    lockedBalance := some locked.lockedBalance })
  let event ← (issue (.insertBalanceEvent {
      cause := .orderLock
      availableDelta := -amount
      lockedDelta := amount
      realizedDelta := 0
      availableAfter := locked.availableBalance
      lockedAfter := locked.lockedBalance
      realizedAfter := locked.realizedPnl
      fillId := none
      occurredAt := occurredAt.getD account.updatedAt })).tryCatch
    fun e => .raise (noRetryPastTheMoney e)
  return (amount, accountAfter, event)

/-- `_lock_for_order`. -/
def lockForOrder (config : SessionConfig) (required : ℚ) (occurredAt : Option Instant) :
    Repo (ℚ × AccountRow × BalanceEventRow) :=
  (withRetries .submitIntentLock (lockAttempt config required occurredAt)).tryCatch fun
    | .concurrencyExhausted .. => .raise (.concurrencyExhausted .submitIntentLock (some .orderLock) true)
    | e => .raise e

/-- The feed gate: a market order fills on acceptance, a limit order rests. -/
def feedGate (intent : OrderIntent) : Repo Unit := do
  if intent.orderType = .recognised .market then
    let session ← issue .readSession
    lift (admitExecution session)

/-- Step 5: the accepted order, and the lock of a limit order. -/
def acceptOrder (config : SessionConfig) (submission : Submission) (key : Option String)
    (ref required : ℚ) : Repo SubmitOutcome := do
  let accepted ← insertAndMove submission.intent key (some ref) .accepted none
  let outcome : SubmitOutcome := {
    order := accepted, fingerprint := orderFingerprint submission.intent
    referencePrice := some ref, requiredFunds := some required }
  if submission.intent.orderType = .recognised .limit then
    let (amount, account, event) ← lockForOrder config required
      (submission.filledAt.or (eventInstant submission.latestEvent))
    return { outcome with locked := some amount, account := some account, balanceEvent := some event }
  else
    return outcome

/-- `probe_idempotency_key`, when there is a key. -/
def probeKey : Option String → Repo (Option OrderRow)
  | none => return none
  | some key => issue (.probeIdempotencyKey key)

/-- What an order already recorded under the key is answered with. -/
def recordedOutcome (intent : OrderIntent) (existing : OrderRow) : Except PaperError SubmitOutcome := do
  Except.refuseIf (existing.fingerprint ≠ orderFingerprint intent) .idempotencyConflict
  return {
    order := existing, duplicate := true, rejectionReason := optionalReason existing
    fingerprint := orderFingerprint intent }

/-- One attempt of `submit_intent`. -/
def submitAttempt (config : SessionConfig) (submission : Submission) (key : Option String) :
    Repo SubmitOutcome := do
  let account ← issue .lockAccountForUpdate
  match ← probeKey key with
  | some existing => lift (recordedOutcome submission.intent existing)
  | none =>
    match ← lift (assess config submission account.availableBalance) with
    | .rejected reason ref required => reject submission.intent key reason ref required
    | .accepted ref required => do
      feedGate submission.intent
      acceptOrder config submission key ref required

/-- The call `submit_intent` fills an accepted market order with. -/
def marketFillCall (orderId : ℕ) (intent : OrderIntent) (price reference : ℚ)
    (filledAt : Instant) (marketEventId : Option String) (seriesIndex : ℤ) : FillCall where
  orderId := orderId
  quantity := intent.quantity
  price := price
  fillEventId := marketFillEventId orderId
  filledAt := filledAt
  reference := some reference
  marketEventId := marketEventId
  seriesIndex := seriesIndex

/-- The fill of a market order, after it has been accepted. -/
def fillAccepted (config : SessionConfig) (submission : Submission) (outcome : SubmitOutcome) :
    Repo SubmitOutcome := do
  let instant ← lift (ofOption .invalidOrderIntent
    (submission.filledAt.or (eventInstant submission.latestEvent)))
  let reference ← lift (ofOption .invalidOrderIntent outcome.referencePrice)
  let side ← lift (oneOf submission.intent.side)
  let price ← lift (marketFillPrice reference side config)
  let fill ← applyFill config (marketFillCall outcome.order.id submission.intent price reference
    instant (submission.latestEvent.map MarketEvent.sourceEventId) submission.seriesIndex)
  return {
    outcome with
    order := fill.order
    account := fill.account.or outcome.account
    balanceEvent := fill.balanceEvent.or outcome.balanceEvent
    fill := some fill }

/-- The submission proper: the attempts, without the fill that follows them. -/
def placeOrder (config : SessionConfig) (submission : Submission) (key : Option String) :
    Repo SubmitOutcome :=
  withRetries .submitIntent (submitAttempt config submission key)

/-- `submit_intent`. -/
def submitIntent (config : SessionConfig) (submission : Submission) : Repo SubmitOutcome := do
  let key ← lift (validateIdempotencyKey submission.intent.idempotencyKey)
  let outcome ← placeOrder config submission key
  if outcome.accepted ∧ submission.intent.orderType = .recognised .market then
    fillAccepted config submission outcome
  else
    return outcome

end VyomQuant.Paper
