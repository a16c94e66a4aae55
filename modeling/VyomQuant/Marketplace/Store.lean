/-
  VyomQuant.Marketplace.Store

  The marketplace tables and the statements against them.  One statement is one atomic
  step: `handle` answers it and applies all of its effect, or none when it is refused.

  Every write of a subscription row goes through `updateSubscription`, which is where the
  transition guard trigger and `chk_ls_active_has_period` stand.  The database function
  `record_and_transition_settlement` is one statement: the ledger row, the subscription
  row and the history row together.
-/

import VyomQuant.Lib.KeyedList
import VyomQuant.Lib.Program
import VyomQuant.Marketplace.Period
import VyomQuant.Marketplace.SubscriptionState

namespace VyomQuant.Marketplace

open Except

/-! ## Rows -/

/-- `chk_settlement_currency`. -/
inductive Currency where
  | usd
  | inr
deriving DecidableEq

/-- `chk_settlement_provider`. -/
inductive Provider where
  | stripe
  | razorpay
deriving DecidableEq

/-- `library_subscription_transitions.cause`. -/
inductive TransitionCause where
  | settlement
  | refund
  | expirySweep
  | adminReinstatement
deriving DecidableEq

/-- One row of `library_subscriptions`. -/
structure SubscriptionRow where
  id : String
  userId : String
  libraryId : String
  ownerId : String
  status : SubscriptionState
  periodStart : Option Instant
  periodExpiry : Option Instant
  cancelledAt : Option Instant
  priceMinor : Option ℤ
  currency : Currency
deriving DecidableEq

/-- One row of `marketplace_settlements`. -/
structure SettlementRow where
  subscriptionId : String
  listingId : String
  ownerId : String
  purchaserId : String
  amountMinor : ℤ
  ownerShareMinor : ℤ
  platformFeeMinor : ℤ
  currency : Currency
  provider : Provider
  providerReference : String
  isReversal : Bool
  reversesReference : Option String
  settledAt : Instant
deriving DecidableEq

/-- The columns of `uq_settlement_reference_reversal`. -/
def SettlementRow.key (row : SettlementRow) : String × Bool :=
  (row.providerReference, row.isReversal)

/-- One row of `library_subscription_transitions`. -/
structure TransitionRow where
  subscriptionId : String
  userId : String
  fromState : SubscriptionState
  toState : SubscriptionState
  cause : TransitionCause
  actorId : Option String
  priorPeriodExpiry : Option Instant
  newPeriodExpiry : Option Instant
  transitionedAt : Instant
deriving DecidableEq

/-- One row of `deployment_permissions`, granted through a subscription. -/
structure PermissionRow where
  userId : String
  libraryId : String
  subscriptionId : String
  isActive : Bool
  expiresAt : Option Instant
deriving DecidableEq

structure MarketStore where
  subscriptions : KeyedList SubscriptionRow.id
  settlements : List SettlementRow
  transitions : List TransitionRow
  permissions : List PermissionRow

inductive MarketError where
  /-- The statement did not complete. -/
  | connectionLost
  /-- `MK001`: the subscription is not in the expected status. -/
  | mk001
  /-- `MK002`: a required argument is missing. -/
  | mk002
  /-- `23514`: the transition guard or a table check. -/
  | checkViolation
  /-- `23505`. -/
  | uniqueViolation
  | valueError
  | invalidAmount
  | settlementPersistFailed
  | expirySweepFailed
  | notFound
  | paymentRequired
  | reasonRequired
  | actionNotRecorded
  | readFailed
deriving DecidableEq

/-! ## The subscription table -/

/-- `marketplace_subscription_reinstatement_shape`. -/
def reinstatementShape (old new : SubscriptionRow) : Prop :=
  new.status = .active ∧ old.status = .suspended ∧ old.periodExpiry ≠ none ∧
    new.periodExpiry = old.periodExpiry ∧ new.periodStart = old.periodStart

instance (old new : SubscriptionRow) : Decidable (reinstatementShape old new) :=
  inferInstanceAs (Decidable (_ ∧ _))

/-- A row of the ledger that is a payment of the subscription. -/
def SettlementRow.PaymentOf (row : SettlementRow) (subscriptionId : String) : Prop :=
  row.subscriptionId = subscriptionId ∧ row.isReversal = false

instance (row : SettlementRow) (subscriptionId : String) :
    Decidable (row.PaymentOf subscriptionId) := inferInstanceAs (Decidable (_ ∧ _))

/-- `marketplace_subscription_guard`. -/
def marketplaceSubscriptionGuard (settlements : List SettlementRow) (old new : SubscriptionRow) :
    Except MarketError Unit :=
  if new.status = old.status then .ok ()
  else if ¬ allowedTransition old.status new.status then .error .checkViolation
  else if new.status = .active then
    if reinstatementShape old new then
      -- Arm 3a: the period being resumed was paid for.
      refuseIf (¬ ∃ row ∈ settlements, row.PaymentOf new.id ∧
        ∃ expiry ∈ old.periodExpiry, row.settledAt ≤ expiry) .checkViolation
    else
      -- Arm 3b: a payment confirmed at or after the current expiry.
      refuseIf (¬ ∃ row ∈ settlements, row.PaymentOf new.id ∧
        ∀ expiry ∈ old.periodExpiry, expiry ≤ row.settledAt) .checkViolation
  else .ok ()

/-- `chk_ls_active_has_period`. -/
def activeHasPeriod (row : SubscriptionRow) : Prop :=
  row.status = .active → ∃ start ∈ row.periodStart, ∃ expiry ∈ row.periodExpiry, start < expiry

instance (row : SubscriptionRow) : Decidable (activeHasPeriod row) :=
  inferInstanceAs (Decidable (_ → _))

def updateSubscription (s : MarketStore) (old new : SubscriptionRow) :
    Except MarketError MarketStore := do
  marketplaceSubscriptionGuard s.settlements old new
  refuseIf (¬ activeHasPeriod new) .checkViolation
  return { s with subscriptions := s.subscriptions.put new }

/-- An UPDATE of the row with this id where it meets `condition`, returning the row. -/
def updateSubscriptionWhere (s : MarketStore) (id : String) (condition : SubscriptionRow → Prop)
    [DecidablePred condition] (values : SubscriptionRow → SubscriptionRow) :
    Except MarketError (Option SubscriptionRow × MarketStore) :=
  match s.subscriptions.get? id with
  | none => .ok (none, s)
  | some row =>
    if condition row then do
      let s' ← updateSubscription s row (values row)
      return (some (values row), s')
    else .ok (none, s)

/-! ## `record_and_transition_settlement` -/

/-- What `_decide_transition` decided. -/
structure Decision where
  fromStatus : SubscriptionState
  toStatus : SubscriptionState
  periodStart : Option Instant
  periodExpiry : Option Instant
  cancelledAt : Option Instant
  priorPeriodExpiry : Option Instant

/-- The arguments of `record_and_transition_settlement`; `row` is `p_settlement` with the
    columns given beside it. -/
structure RecordArgs where
  row : SettlementRow
  proceedIfDuplicate : Bool
  expectedFromStatus : SubscriptionState
  transition : Option Decision
  userId : String
  actorId : Option String

structure RecordResult where
  inserted : Bool
  transitioned : Bool

/-- `chk_settlement_amounts`, `chk_settlement_conserved` and
    `chk_settlement_reversal_reference`. -/
def settlementChecks (row : SettlementRow) : Prop :=
  0 ≤ row.amountMinor ∧ 0 ≤ row.ownerShareMinor ∧ 0 ≤ row.platformFeeMinor ∧
    row.ownerShareMinor + row.platformFeeMinor = row.amountMinor ∧
    (row.isReversal = true ↔ row.reversesReference ≠ none)

instance (row : SettlementRow) : Decidable (settlementChecks row) :=
  inferInstanceAs (Decidable (_ ∧ _))

/-- The key of the row is taken. -/
def recorded (s : MarketStore) (key : String × Bool) : Prop :=
  ∃ row ∈ s.settlements, row.key = key

instance (s : MarketStore) (key : String × Bool) : Decidable (recorded s key) :=
  inferInstanceAs (Decidable (∃ row ∈ s.settlements, row.key = key))

/-- The `INSERT .. ON CONFLICT DO NOTHING`: whether it inserted, and the store. -/
def insertSettlement (s : MarketStore) (row : SettlementRow) :
    Except MarketError (Bool × MarketStore) :=
  if recorded s row.key then .ok (false, s)
  else do
    refuseIf (¬ settlementChecks row) .checkViolation
    return (true, { s with settlements := s.settlements ++ [row] })

/-- The subscription row with the decided values. -/
def Decision.apply (decision : Decision) (row : SubscriptionRow) : SubscriptionRow :=
  { row with
    status := decision.toStatus
    periodStart := decision.periodStart
    periodExpiry := decision.periodExpiry
    cancelledAt := decision.cancelledAt }

def historyRow (args : RecordArgs) (decision : Decision) : TransitionRow where
  subscriptionId := args.row.subscriptionId
  userId := args.userId
  fromState := decision.fromStatus
  toState := decision.toStatus
  cause := if args.row.isReversal then .refund else .settlement
  actorId := args.actorId
  priorPeriodExpiry := decision.priorPeriodExpiry
  newPeriodExpiry := decision.periodExpiry
  transitionedAt := args.row.settledAt

/-- `UPDATE library_subscriptions .. WHERE id = .. AND status = p_expected_from_status`, and
    the history row; no row updated is `MK001`. -/
def applyTransition (s : MarketStore) (args : RecordArgs) (decision : Decision) :
    Except MarketError MarketStore := do
  let (updated, s') ← updateSubscriptionWhere s args.row.subscriptionId
    (fun row => row.status = args.expectedFromStatus) decision.apply
  refuseIf (updated = none) .mk001
  return { s' with transitions := s'.transitions ++ [historyRow args decision] }

def recordAndTransitionSettlement (s : MarketStore) (args : RecordArgs) :
    Except MarketError (RecordResult × MarketStore) := do
  refuseIf (args.row.providerReference = "") .mk002
  let (inserted, s') ← insertSettlement s args.row
  if inserted = false ∧ args.proceedIfDuplicate = false then
    return (⟨false, false⟩, s)
  else match args.transition with
    | none => return (⟨inserted, false⟩, s')
    | some decision => do
      let s'' ← applyTransition s' args decision
      return (⟨inserted, true⟩, s'')

/-! ## The entitlement table -/

/-- What an entitlement writer is given. -/
structure Grant where
  userId : String
  libraryId : String
  subscriptionId : String
  expiresAt : Instant

/-- An entitlement writer: one statement on `deployment_permissions`. -/
abbrev GrantPermission := List PermissionRow → Grant → Except MarketError (List PermissionRow)

/-- The row is the active permission of the user for the listing. -/
def PermissionRow.ActiveFor (row : PermissionRow) (userId libraryId : String) : Prop :=
  row.userId = userId ∧ row.libraryId = libraryId ∧ row.isActive = true

instance (row : PermissionRow) (userId libraryId : String) :
    Decidable (row.ActiveFor userId libraryId) := inferInstanceAs (Decidable (_ ∧ _))

/-- `grant_deployment_permission`: a plain INSERT, under the table's
    `UNIQUE (user_id, library_id, is_active)`. -/
def grantDeploymentPermission : GrantPermission := fun permissions grant => do
  refuseIf (∃ row ∈ permissions, row.ActiveFor grant.userId grant.libraryId) .uniqueViolation
  return permissions ++ [{
    userId := grant.userId
    libraryId := grant.libraryId
    subscriptionId := grant.subscriptionId
    isActive := true
    expiresAt := some grant.expiresAt }]

/-! ## The expiry sweep's statements -/

/-- The sweep's predicate: `period_expiry <= now` and a status with an edge to `expired`. -/
def Expirable (now : Instant) (row : SubscriptionRow) : Prop :=
  (∃ expiry ∈ row.periodExpiry, expiry ≤ now) ∧ canTransition row.status .expired

instance (now : Instant) : DecidablePred (Expirable now) :=
  fun _ => inferInstanceAs (Decidable (_ ∧ _))

/-- The one UPDATE over all candidates, returning the ids it expired. -/
def expireCandidates (now : Instant) :
    List String → MarketStore → Except MarketError (List String × MarketStore)
  | [], s => .ok ([], s)
  | id :: ids, s => do
    let (updated, s') ← updateSubscriptionWhere s id (Expirable now)
      fun row => { row with status := .expired }
    let (expired, s'') ← expireCandidates now ids s'
    return (if updated.isSome then (id :: expired, s'') else (expired, s''))

/-! ## Statements -/

inductive MarketOp where
  | readSubscription (id : String)
  | recordAndTransition (args : RecordArgs)
  | grantPermission (writer : GrantPermission) (grant : Grant)
  | writeAudit (reference : String)
  | findSettledPayment (providerReference : String)
  | cancelSubscription (id : String) (cancelledAt : Instant)
  /-- An administrative hold, and `_revert_status`. -/
  | suspendSubscription (id : String)
  | readExpiryCandidates (now : Instant)
  | expireCandidates (now : Instant) (ids : List String)
  | insertTransition (row : TransitionRow)
  | readPayments (id : String)
  | reinstateSubscription (id : String) (fromStatus : SubscriptionState)

/-- What a statement answers. -/
abbrev Res : MarketOp → Type
  | .readSubscription _ => Option SubscriptionRow
  | .recordAndTransition _ => RecordResult
  | .grantPermission _ _ => Unit
  | .writeAudit _ => Unit
  | .findSettledPayment _ => Option SettlementRow
  | .cancelSubscription _ _ => Option SubscriptionRow
  | .suspendSubscription _ => Option SubscriptionRow
  | .readExpiryCandidates _ => List SubscriptionRow
  | .expireCandidates _ _ => List String
  | .insertTransition _ => Unit
  | .readPayments _ => List SettlementRow
  | .reinstateSubscription _ _ => Option SubscriptionRow

/-- The effect of a statement. -/
def execute (s : MarketStore) : (op : MarketOp) → Except MarketError (Res op × MarketStore)
  | .readSubscription id => .ok (s.subscriptions.get? id, s)
  | .recordAndTransition args => recordAndTransitionSettlement s args
  | .grantPermission writer grant => do
    let permissions ← writer s.permissions grant
    return ((), { s with permissions })
  | .writeAudit _ => .ok ((), s)
  | .findSettledPayment providerReference =>
    .ok (s.settlements.find? fun row => row.key = (providerReference, false), s)
  | .cancelSubscription id cancelledAt =>
    updateSubscriptionWhere s id (fun row => row.status = .active)
      fun row => { row with status := .cancelled, cancelledAt := some cancelledAt }
  | .suspendSubscription id =>
    updateSubscriptionWhere s id (fun row => row.status = .active)
      fun row => { row with status := .suspended }
  | .readExpiryCandidates now =>
    .ok (s.subscriptions.items.filter fun row => decide (Expirable now row), s)
  | .expireCandidates now ids => expireCandidates now ids s
  | .insertTransition row => .ok ((), { s with transitions := s.transitions ++ [row] })
  | .readPayments id => .ok (s.settlements.filter fun row => decide (row.PaymentOf id), s)
  | .reinstateSubscription id fromStatus =>
    updateSubscriptionWhere s id (fun row => row.status = fromStatus)
      fun row => { row with status := .active }

/-- A statement that is refused changes nothing. -/
def handle : Program.Handler Res MarketError MarketStore := fun op s =>
  match execute s op with
  | .ok (answer, s') => (.ok answer, s')
  | .error e => (.error e, s)

/-! ## What the statements do -/

variable {old new : SubscriptionRow}

theorem guard_eq_ok {settlements : List SettlementRow}
    (h : marketplaceSubscriptionGuard settlements old new = .ok ()) :
    new.status = old.status ∨ allowedTransition old.status new.status := by
  unfold marketplaceSubscriptionGuard at h
  split at h
  · rename_i h_same
    exact Or.inl h_same
  · split at h
    · cases h
    · rename_i h_allowed
      exact Or.inr (not_not.mp h_allowed)

/-- A row that moved into `active` with another period was paid for at or after the expiry
    it had. -/
theorem guard_paid {settlements : List SettlementRow}
    (h : marketplaceSubscriptionGuard settlements old new = .ok ()) (h_old : old.status ≠ .active)
    (h_new : new.status = .active) (h_expiry : new.periodExpiry ≠ old.periodExpiry) :
    ∃ row ∈ settlements, row.PaymentOf new.id ∧ ∀ expiry ∈ old.periodExpiry,
      expiry ≤ row.settledAt := by
  have h_move : ¬ new.status = old.status := fun h_same => h_old (h_same ▸ h_new)
  have h_shape : ¬ reinstatementShape old new := fun h_shape => h_expiry h_shape.2.2.2.1
  unfold marketplaceSubscriptionGuard at h
  rw [if_neg h_move, if_pos h_new, if_neg h_shape] at h
  split at h
  · cases h
  · exact not_not.mp (refuseIf_eq_ok.mp h)

/-- The row a guarded UPDATE wrote, with the checks it passed. -/
structure RowUpdated (s : MarketStore) (ledger : List SettlementRow) (old new : SubscriptionRow) :
    Prop where
  found : s.subscriptions.get? old.id = some old
  guard : marketplaceSubscriptionGuard ledger old new = .ok ()
  period : activeHasPeriod new
  id_eq : new.id = old.id

variable {s s' : MarketStore}

theorem RowUpdated.status {ledger : List SettlementRow} (h : RowUpdated s ledger old new) :
    new.status = old.status ∨ allowedTransition old.status new.status := guard_eq_ok h.guard

/-- Nothing leaves `refunded`. -/
theorem RowUpdated.refunded {ledger : List SettlementRow} (h : RowUpdated s ledger old new)
    (h_old : old.status = .refunded) : new.status = .refunded := by
  rcases h.status with h_same | h_move
  · rw [h_same, h_old]
  · rw [h_old] at h_move
    exact absurd h_move (not_allowedTransition_refunded _)

theorem updateSubscriptionWhere_cases {id : String} {condition : SubscriptionRow → Prop}
    [DecidablePred condition] {values : SubscriptionRow → SubscriptionRow}
    {answer : Option SubscriptionRow}
    (h : updateSubscriptionWhere s id condition values = .ok (answer, s'))
    (h_id : ∀ row, (values row).id = row.id) :
    (answer = none ∧ s' = s) ∨
      ∃ old, old.id = id ∧ condition old ∧ RowUpdated s s.settlements old (values old) ∧
        answer = some (values old) ∧
        s' = { s with subscriptions := s.subscriptions.put (values old) } := by
  unfold updateSubscriptionWhere at h
  split at h
  · cases h
    exact Or.inl ⟨rfl, rfl⟩
  · rename_i row h_row
    have h_row_id : row.id = id := (KeyedList.mem_of_get? h_row).2
    split at h
    · rename_i h_condition
      obtain ⟨s'', h_update, h_answer⟩ := bind_eq_ok.mp h
      obtain ⟨_, h_guard, h_update⟩ := bind_eq_ok.mp h_update
      obtain ⟨_, h_period, h_store⟩ := bind_eq_ok.mp h_update
      cases h_store
      cases h_answer
      have h_found : s.subscriptions.get? row.id = some row := by rw [h_row_id, h_row]
      exact Or.inr ⟨row, h_row_id, h_condition,
        ⟨h_found, h_guard, not_not.mp (refuseIf_eq_ok.mp h_period), h_id row⟩, rfl, rfl⟩
    · cases h
      exact Or.inl ⟨rfl, rfl⟩

/-- The ledger with the row, unless its key is taken. -/
def ledgerWith (s : MarketStore) (row : SettlementRow) : List SettlementRow :=
  if recorded s row.key then s.settlements else s.settlements ++ [row]

/-- The transition of one call of the database function took effect. -/
structure TransitionApplied (s : MarketStore) (args : RecordArgs) (decision : Decision)
    (old : SubscriptionRow) (s' : MarketStore) : Prop where
  proceeds : recorded s args.row.key → args.proceedIfDuplicate = true
  id_eq : old.id = args.row.subscriptionId
  expected : old.status = args.expectedFromStatus
  updated : RowUpdated s (ledgerWith s args.row) old (decision.apply old)
  store : s' = {
    subscriptions := s.subscriptions.put (decision.apply old)
    settlements := ledgerWith s args.row
    transitions := s.transitions ++ [historyRow args decision]
    permissions := s.permissions }

theorem insertSettlement_eq_ok {row : SettlementRow} {inserted : Bool}
    (h : insertSettlement s row = .ok (inserted, s')) :
    s' = { s with settlements := ledgerWith s row } ∧ (inserted = false ↔ recorded s row.key) := by
  unfold insertSettlement at h
  unfold ledgerWith
  split at h
  · rename_i h_recorded
    cases h
    rw [if_pos h_recorded]
    exact ⟨rfl, iff_of_true rfl h_recorded⟩
  · rename_i h_recorded
    obtain ⟨_, _, h_store⟩ := bind_eq_ok.mp h
    cases h_store
    rw [if_neg h_recorded]
    exact ⟨rfl, iff_of_false (by simp) h_recorded⟩

theorem applyTransition_eq_ok {args : RecordArgs} {decision : Decision}
    (h : applyTransition s args decision = .ok s') :
    ∃ old, old.id = args.row.subscriptionId ∧ old.status = args.expectedFromStatus ∧
      RowUpdated s s.settlements old (decision.apply old) ∧
      s' = { s with
        subscriptions := s.subscriptions.put (decision.apply old)
        transitions := s.transitions ++ [historyRow args decision] } := by
  obtain ⟨⟨updated, s₁⟩, h_update, h⟩ := bind_eq_ok.mp h
  obtain ⟨_, h_some, h_store⟩ := bind_eq_ok.mp h
  cases h_store
  rcases updateSubscriptionWhere_cases h_update fun _ => rfl with ⟨rfl, _⟩ | h_row
  · exact absurd rfl (refuseIf_eq_ok.mp h_some)
  · obtain ⟨old, h_id, h_status, h_updated, -, rfl⟩ := h_row
    exact ⟨old, h_id, h_status, h_updated, rfl⟩

theorem recordAndTransition_cases {args : RecordArgs} {result : RecordResult}
    (h : recordAndTransitionSettlement s args = .ok (result, s')) :
    (recorded s args.row.key ∧ result.inserted = false ∧ args.proceedIfDuplicate = false ∧ s' = s) ∨
      (result.inserted = false ↔ recorded s args.row.key) ∧
        ((args.transition = none ∧ s' = { s with settlements := ledgerWith s args.row }) ∨
          ∃ decision old, args.transition = some decision ∧
            TransitionApplied s args decision old s') := by
  obtain ⟨_, _, h⟩ := bind_eq_ok.mp h
  obtain ⟨⟨inserted, s₁⟩, h_insert, h⟩ := bind_eq_ok.mp h
  obtain ⟨rfl, h_inserted⟩ := insertSettlement_eq_ok h_insert
  dsimp only at h
  split at h
  · rename_i h_ignored
    cases h
    exact Or.inl ⟨h_inserted.mp h_ignored.1, rfl, h_ignored.2, rfl⟩
  · rename_i h_proceeds
    have h_may : recorded s args.row.key → args.proceedIfDuplicate = true := by
      intro h_recorded
      have h_not : ¬ args.proceedIfDuplicate = false := fun h_no =>
        h_proceeds ⟨h_inserted.mpr h_recorded, h_no⟩
      simpa using h_not
    right
    split at h
    · rename_i h_none
      cases h
      exact ⟨h_inserted, Or.inl ⟨h_none, rfl⟩⟩
    · rename_i decision h_some
      obtain ⟨s₂, h_apply, h_result⟩ := bind_eq_ok.mp h
      cases h_result
      obtain ⟨old, h_id, h_status, h_updated, rfl⟩ := applyTransition_eq_ok h_apply
      exact ⟨h_inserted, Or.inr ⟨decision, old, h_some, h_may, h_id, h_status,
        ⟨h_updated.found, h_updated.guard, h_updated.period, h_updated.id_eq⟩, rfl⟩⟩

/-- A status write of one row: the statements of the cancellation, the hold, the
    reinstatement, and each row of the sweep. -/
structure StatusWritten (s : MarketStore) (old new : SubscriptionRow) (s' : MarketStore) : Prop where
  updated : RowUpdated s s.settlements old new
  only_status : new = { old with status := new.status, cancelledAt := new.cancelledAt }
  store : s' = { s with subscriptions := s.subscriptions.put new }

/-- The sweep's UPDATE keeps what every status write to `expired` keeps. -/
theorem expireCandidates_invariant {I : MarketStore → Prop}
    (h_write : ∀ s old new s', I s → StatusWritten s old new s' → new.status = .expired → I s')
    {now : Instant} {ids : List String} {expired : List String} (h_init : I s)
    (h : expireCandidates now ids s = .ok (expired, s')) : I s' := by
  induction ids generalizing s expired with
  | nil =>
    cases h
    exact h_init
  | cons id ids ih =>
    obtain ⟨⟨updated, s₁⟩, h_update, h⟩ := bind_eq_ok.mp h
    obtain ⟨⟨expired', s₂⟩, h_rest, h⟩ := bind_eq_ok.mp h
    have h_store : s₂ = s' := by
      dsimp only at h
      split at h <;> (cases h; rfl)
    subst h_store
    refine ih ?_ h_rest
    rcases updateSubscriptionWhere_cases h_update fun _ => rfl with ⟨_, rfl⟩ | h_row
    · exact h_init
    · obtain ⟨old, -, -, h_updated, -, rfl⟩ := h_row
      exact h_write s old _ _ h_init ⟨h_updated, rfl, rfl⟩ rfl

theorem handle_invariant {I : MarketStore → Prop} {op : MarketOp} (h_init : I s)
    (h : ∀ answer s', execute s op = .ok (answer, s') → I s') : I (handle op s).2 := by
  unfold handle
  split
  · rename_i answer s' h_eq
    exact h answer s' h_eq
  · exact h_init

end VyomQuant.Marketplace
