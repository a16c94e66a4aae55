/-
  VyomQuant.Marketplace.Requests

  The other writers of a subscription, as programs over the statements of `Store`: the
  refund webhook of `routers/billing.py`, the cancellation of `routers/library.py`, the
  expiry sweep, the administrative hold, and the reinstatement that lifts it.

  `Request.program` gathers them and `settle`, so that a pool of requests is a pool of
  programs.
-/

import VyomQuant.Lib.RelyGuarantee
import VyomQuant.Marketplace.Settlement

namespace VyomQuant.Marketplace

open Except Program

def issue (op : MarketOp) : Program Res MarketError (Res op) := perform op

/-! ## Refunds -/

/-- A refund event: the payment it names, what was refunded, and how its reversal settles. -/
structure RefundEvent where
  paymentReference : String
  provider : Provider
  refundedAmount : ℤ
  instant : Instant
  attempts : ℕ
  attempts_pos : 1 ≤ attempts

/-- The reversal of the payment the ledger holds. -/
def RefundEvent.reversal (event : RefundEvent) (payment : SettlementRow) : SettleCall where
  providerReference := event.paymentReference
  provider := event.provider
  amountMinor := event.refundedAmount
  currency := payment.currency
  subscriptionId := payment.subscriptionId
  confirmationInstant := event.instant
  isReversal := true
  reversesReference := some event.paymentReference
  actorId := none
  grantPermission := grantDeploymentPermission
  attempts := event.attempts
  attempts_pos := event.attempts_pos

/-- The refund webhook: the payment is read back from the ledger, and nothing is written for
    one that is not there. -/
def refund (event : RefundEvent) : Program Res MarketError (Option SettlementResult) :=
  (issue (.findSettledPayment event.paymentReference)).bind fun
    | none => ret none
    | some payment => (settle (event.reversal payment)).bind fun result => ret (some result)

/-! ## Cancellation and hold -/

/-- `cancel_subscription`: only an active subscription of the caller is cancelled, and no
    period column is touched. -/
def cancelSubscription (id userId : String) (until_ : Instant) : Program Res MarketError Unit :=
  (issue (.readSubscription id)).bind fun
    | none => raise .notFound
    | some row =>
      if row.userId ≠ userId then raise .notFound
      else (issue (.cancelSubscription id until_)).bind fun _ => ret ()

/-- An administrative hold.  The application writes `suspended` only to revert a
    reinstatement; the hold itself is that statement. -/
def suspend (id : String) : Program Res MarketError Unit :=
  (issue (.suspendSubscription id)).bind fun _ => ret ()

/-! ## The expiry sweep -/

/-- The history row of an expiry records no period. -/
def expiryRow (now : Instant) (candidate : SubscriptionRow) : TransitionRow where
  subscriptionId := candidate.id
  userId := candidate.userId
  fromState := candidate.status
  toState := .expired
  cause := .expirySweep
  actorId := none
  priorPeriodExpiry := none
  newPeriodExpiry := none
  transitionedAt := now

/-- One history row and one audit entry per expired row; a failure on one row does not
    abandon the others. -/
def recordExpiries (now : Instant) : List SubscriptionRow → Bool → Program Res MarketError Unit
  | [], failed => if failed then raise .expirySweepFailed else ret ()
  | candidate :: rest, failed =>
    .call (.insertTransition (expiryRow now candidate)) fun inserted =>
      .call (.writeAudit candidate.id) fun audited =>
        recordExpiries now rest (failed || inserted.isOk == false || audited.isOk == false)

/-- `sweep`: the candidate read proposes, the one update decides. -/
def sweep (now : Instant) : Program Res MarketError Unit :=
  ((issue (.readExpiryCandidates now)).bind fun candidates =>
    if candidates.isEmpty then ret ()
    else (issue (.expireCandidates now (candidates.map (·.id)))).bind fun expired =>
      recordExpiries now
        (expired.filterMap fun id => candidates.find? fun row => row.id = id) false).tryCatch
    fun _ => raise .expirySweepFailed

/-! ## Reinstatement -/

def MAX_REASON_CHARS : ℕ := 2000

/-- The history row of a reinstatement carries the same expiry twice. -/
def reinstatementRow (subscription : SubscriptionRow) (actorId : Option String) (instant : Instant)
    (periodExpiry : Instant) : TransitionRow where
  subscriptionId := subscription.id
  userId := subscription.userId
  fromState := .suspended
  toState := .active
  cause := .adminReinstatement
  actorId
  priorPeriodExpiry := some periodExpiry
  newPeriodExpiry := some periodExpiry
  transitionedAt := instant

/-- A statement whose failure is `MARKETPLACE_READ_FAILED`. -/
def readable (op : MarketOp) : Program Res MarketError (Res op) :=
  (issue op).tryCatch fun _ => raise .readFailed

/-- Put the row back after an audit that could not be written. -/
def revertStatus (id : String) : Program Res MarketError Unit :=
  .call (.suspendSubscription id) fun _ => raise .actionNotRecorded

/-- `reinstate`: a suspended subscription whose stored period was paid for becomes active
    again, its period unchanged. -/
def reinstate (adminId : Option String) (subscriptionId reason : String) (now : Instant) :
    Program Res MarketError Unit := do
  refuseIf (reason = "" ∨ MAX_REASON_CHARS < reason.length) .reasonRequired
  let subscription ← readable (.readSubscription subscriptionId)
  match subscription with
  | none => raise .notFound
  | some row =>
    refuseIf (row.status ≠ .suspended) .paymentRequired
    match row.periodExpiry with
    | none => raise .paymentRequired
    | some periodExpiry =>
      let payments ← readable (.readPayments subscriptionId)
      refuseIf (¬ ∃ payment ∈ payments, payment.settledAt ≤ periodExpiry) .paymentRequired
      let touched ← readable (.reinstateSubscription subscriptionId row.status)
      refuseIf (touched = none) .paymentRequired
      let _ ← readable (.insertTransition (reinstatementRow row adminId now periodExpiry))
      (issue (.writeAudit subscriptionId)).tryCatch fun _ => revertStatus subscriptionId

/-! ## Requests -/

inductive Request where
  | settle (settlement : SettleCall)
  | refund (event : RefundEvent)
  | cancel (id userId : String) (until_ : Instant)
  | suspend (id : String)
  | sweep (now : Instant)
  | reinstate (adminId : Option String) (id reason : String) (now : Instant)

/-- What a request answers: the result of a settlement, if it settled anything. -/
abbrev Answer := Option SettlementResult

def Request.program : Request → Program Res MarketError Answer
  | .settle settlement => (Marketplace.settle settlement).bind fun result => ret (some result)
  | .refund event => Marketplace.refund event
  | .cancel id userId until_ => (cancelSubscription id userId until_).bind fun _ => ret none
  | .suspend id => (Marketplace.suspend id).bind fun _ => ret none
  | .sweep now => (Marketplace.sweep now).bind fun _ => ret none
  | .reinstate adminId id reason now =>
    (Marketplace.reinstate adminId id reason now).bind fun _ => ret none

/-! ## One subscription and its payments -/

theorem calendar_2026 : 1 ≤ 2026 ∧ 2026 ≤ MAXYEAR := by decide

theorem midnight_lt : 0 < MICROSECONDS_PER_DAY := by decide

def onDay (month day : ℕ) (h_month : 1 ≤ month ∧ month ≤ 12)
    (h_day : 1 ≤ day ∧ day ≤ lastDay 2026 month) : Instant :=
  ⟨2026, month, day, 0, calendar_2026, h_month, h_day, midnight_lt⟩

theorem january : 1 ≤ 1 ∧ 1 ≤ 12 := by decide

theorem february : 1 ≤ 2 ∧ 2 ≤ 12 := by decide

theorem march : 1 ≤ 3 ∧ 3 ≤ 12 := by decide

def january5 : Instant := onDay 1 5 january currentExpiry.day_bounds

def january10 : Instant := onDay 1 10 january (by decide)

def january12 : Instant := onDay 1 12 january (by decide)

def january20 : Instant := onDay 1 20 january (by decide)

def january25 : Instant := onDay 1 25 january (by decide)

def february5 : Instant := onDay 2 5 february (by decide)

def february6 : Instant := onDay 2 6 february (by decide)

def february7 : Instant := onDay 2 7 february (by decide)

def march10 : Instant := onDay 3 10 march (by decide)

def march11 : Instant := onDay 3 11 march (by decide)

/-- A subscription that was checked out and not paid yet. -/
def checkedOut : SubscriptionRow where
  id := "subscription"
  userId := "purchaser"
  libraryId := "listing"
  ownerId := "owner"
  status := .pending
  periodStart := none
  periodExpiry := none
  cancelledAt := none
  priceMinor := some 1000
  currency := .usd

def paidUntilFebruary : SubscriptionRow :=
  { checkedOut with
    status := .active
    periodStart := some january5
    periodExpiry := some february5 }

/-- The tables with this subscription and no settlement. -/
def unsettled (row : SubscriptionRow) : MarketStore where
  subscriptions := ⟨[row], List.nodup_singleton _⟩
  settlements := []
  transitions := []
  permissions := []

/-- One delivery of a payment for it, settled in one attempt. -/
def paymentFor (reference : String) (instant : Instant) : SettleCall where
  providerReference := reference
  provider := .stripe
  amountMinor := 1000
  currency := .usd
  subscriptionId := "subscription"
  confirmationInstant := instant
  isReversal := false
  reversesReference := none
  actorId := none
  grantPermission := grantDeploymentPermission
  attempts := 1
  attempts_pos := Nat.one_pos

/-! ## What the decision says -/

theorem ofPeriod_eq_ok {α : Type} {x : Except PeriodError α} {a : α} (h : ofPeriod x = .ok a) :
    x = .ok a := by
  cases x with
  | ok b =>
    simp only [ofPeriod, Except.ok.injEq] at h
    rw [h]
  | error e =>
    cases e
    cases h

theorem decidePeriod_eq_ok {row : SubscriptionRow} {instant start expiry : Instant}
    (h : decidePeriod row instant = .ok (start, expiry)) :
    instant < expiry ∧ ∀ stored ∈ row.periodExpiry, stored < expiry := by
  unfold decidePeriod at h
  split at h
  · rename_i h_none
    obtain ⟨-, h_lt⟩ := periodForActivation_eq_ok (ofPeriod_eq_ok h)
    exact ⟨h_lt, fun stored h_mem => by rw [h_none] at h_mem; cases h_mem⟩
  · rename_i storedExpiry h_some
    obtain ⟨expiry', h_renewal, h_pair⟩ := bind_eq_ok.mp h
    cases h_pair
    obtain ⟨h_stored, h_instant⟩ := periodForRenewal_eq_ok (ofPeriod_eq_ok h_renewal)
    refine ⟨h_instant, fun stored h_mem => ?_⟩
    rw [h_some] at h_mem
    cases h_mem
    exact h_stored

/-- What a payment decides: a move into `active` whose period ends after the payment and
    after the period that was read. -/
structure DecidesPayment (row : SubscriptionRow) (instant : Instant) (decision : Decision) :
    Prop where
  status_ne : row.status ≠ .refunded
  fromStatus : decision.fromStatus = row.status
  toStatus : decision.toStatus = .active
  expiry : ∃ expiry, decision.periodExpiry = some expiry ∧ instant < expiry ∧
    ∀ stored ∈ row.periodExpiry, stored < expiry

theorem decideTransition_payment {row : SubscriptionRow} {instant : Instant} {decision : Decision}
    (h : decideTransition row false instant = .ok (some decision)) :
    DecidesPayment row instant decision := by
  unfold decideTransition at h
  rw [if_neg Bool.false_ne_true] at h
  split at h
  · rename_i h_permitted
    obtain ⟨⟨start, expiry⟩, h_period, h_decision⟩ := bind_eq_ok.mp h
    cases h_decision
    obtain ⟨h_instant, h_stored⟩ := decidePeriod_eq_ok h_period
    refine ⟨?_, rfl, rfl, expiry, rfl, h_instant, h_stored⟩
    rcases h_permitted with h_eligible | h_active
    · exact ((eligible_iff _).mp h_eligible).2
    · rw [h_active]
      decide
  · cases h

theorem decideTransition_reversal {row : SubscriptionRow} {instant : Instant} {decision : Decision}
    (h : decideTransition row true instant = .ok (some decision)) :
    row.status = .active ∧ decision.toStatus = .refunded ∧
      decision.periodExpiry = row.periodExpiry ∧ decision.priorPeriodExpiry = row.periodExpiry := by
  unfold decideTransition at h
  rw [if_pos rfl] at h
  split at h
  · rename_i h_permitted
    cases h
    exact ⟨(canTransition_refunded_iff _).mp h_permitted, rfl, rfl, rfl⟩
  · cases h

/-! ## The other statements -/

/-- A request that settles nothing does not call the database function, a history row it
    writes is no settlement and moves no period, and it reinstates only what it `reinstates`,
    from `suspended`. -/
def SettlesNothing (reinstates : String → Prop) : MarketOp → Prop
  | .recordAndTransition _ => False
  | .insertTransition row =>
    row.cause ≠ .settlement ∧ row.newPeriodExpiry = row.priorPeriodExpiry
  | .reinstateSubscription id fromStatus => reinstates id ∧ fromStatus = .suspended
  | _ => True

section Issues

variable {reinstates : String → Prop}

theorem cancelSubscription_issues (id userId : String) (until_ : Instant) :
    (cancelSubscription id userId until_).Issues (SettlesNothing reinstates) := by
  refine Issues.bind (Issues.perform trivial) fun answer => ?_
  split
  · trivial
  · split
    · trivial
    · exact (Issues.perform trivial).bind fun _ => trivial

theorem suspend_issues (id : String) : (suspend id).Issues (SettlesNothing reinstates) :=
  Issues.bind (Issues.perform trivial) fun _ => trivial

theorem recordExpiries_issues (now : Instant) (candidates : List SubscriptionRow) (failed : Bool) :
    (recordExpiries now candidates failed).Issues (SettlesNothing reinstates) := by
  induction candidates generalizing failed with
  | nil =>
    unfold recordExpiries
    split <;> trivial
  | cons candidate rest ih =>
    have h_cause : TransitionCause.expirySweep ≠ .settlement := by decide
    exact ⟨⟨h_cause, rfl⟩, fun _ => ⟨trivial, fun _ => ih _⟩⟩

theorem sweep_issues (now : Instant) : (sweep now).Issues (SettlesNothing reinstates) := by
  refine Issues.tryCatch (Issues.bind (Issues.perform trivial) fun candidates => ?_) fun _ => trivial
  split
  · trivial
  · exact (Issues.perform trivial).bind fun _ => recordExpiries_issues _ _ _

theorem readable_issues (op : MarketOp) (h : SettlesNothing reinstates op) :
    (readable op).Issues (SettlesNothing reinstates) :=
  (Issues.perform h).tryCatch fun _ => trivial

theorem reinstate_issues (adminId : Option String) {id : String} (reason : String) (now : Instant)
    (h_id : reinstates id) : (reinstate adminId id reason now).Issues (SettlesNothing reinstates) := by
  refine Issues.refuseIf_bind fun _ =>
    (readable_issues (.readSubscription id) trivial).bind fun answer => ?_
  split
  · trivial
  · rename_i row
    refine Issues.refuseIf_bind fun h_suspended => ?_
    split
    · trivial
    · rename_i periodExpiry _
      have h_cause : TransitionCause.adminReinstatement ≠ .settlement := by decide
      refine (readable_issues (.readPayments id) trivial).bind fun _ =>
        Issues.refuseIf_bind fun _ =>
          (readable_issues (.reinstateSubscription id row.status)
            ⟨h_id, not_not.mp h_suspended⟩).bind fun _ =>
              Issues.refuseIf_bind fun _ =>
                (readable_issues (.insertTransition
                  (reinstatementRow row adminId now periodExpiry)) ⟨h_cause, rfl⟩).bind fun _ => ?_
      exact (Issues.perform trivial).tryCatch fun _ => ⟨trivial, fun _ => trivial⟩

end Issues

/-- The subscription a request may reinstate. -/
def Request.Reinstates : Request → String → Prop
  | .reinstate _ id _ _, subscriptionId => subscriptionId = id
  | _, _ => False

theorem Request.issues {request : Request} (h_settle : ∀ settlement, request ≠ .settle settlement)
    (h_refund : ∀ event, request ≠ .refund event) :
    request.program.Issues (SettlesNothing request.Reinstates) := by
  cases request with
  | settle settlement => exact absurd rfl (h_settle settlement)
  | refund event => exact absurd rfl (h_refund event)
  | cancel id userId until_ =>
    exact (cancelSubscription_issues id userId until_).bind fun _ => Issues.ret none
  | suspend id => exact (suspend_issues id).bind fun _ => Issues.ret none
  | sweep now => exact (sweep_issues now).bind fun _ => Issues.ret none
  | reinstate adminId id reason now =>
    have h_id : (Request.reinstate adminId id reason now).Reinstates id := rfl
    exact (reinstate_issues adminId reason now h_id).bind fun _ => Issues.ret none

end VyomQuant.Marketplace
