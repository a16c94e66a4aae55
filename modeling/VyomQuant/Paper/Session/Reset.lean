/-
  VyomQuant.Paper.Session.Reset

  `paper_session_service.py`: the operations of a session and `reset_session`, as a
  program over the repository.

  A reset gates on the session state, cancels the open orders, returns the balances to
  the recorded capital, closes the open positions and begins a new equity series, each in
  statements of their own, and takes its transition last.  The balances are returned by
  two statements (`returnBalances`): the account, and then its ledger row.
-/

import VyomQuant.Paper.Simulator.Submit

namespace VyomQuant.Paper

open Decimal Except Program
open Accounting (Instant Position)

/-! ## Operations -/

/-- The operations of `OPERATION_TRANSITIONS`. -/
inductive SessionOperation where
  | start
  | pause
  | resume
  | stop
  | reset
  | abandon
deriving DecidableEq

/-- `target_state`: the state an operation moves a session to, when it may. -/
def targetState : SessionOperation → SessionState → Option SessionState
  | .start, .created => some .running
  | .pause, .running => some .paused
  | .resume, .paused => some .running
  | .stop, .running => some .stopped
  | .stop, .paused => some .stopped
  | .reset, .stopped => some .created
  | .reset, .abandoned => some .created
  | .abandon, .running => some .abandoned
  | _, _ => none

/-- `CALLER_OPERATIONS`: starting is the tail of `start_session` and abandoning the
    system's. -/
def callerOperations : List SessionOperation := [.pause, .resume, .stop, .reset]

/-- `PaperSessionOperationRejected`. -/
structure OperationRejected where
  sessionState : SessionState
  operation : SessionOperation

/-- The state gate of `_gate`: where the operation leads. -/
def gate (operation : SessionOperation) (session : SessionRow) :
    Except OperationRejected SessionState :=
  if operation ∈ callerOperations then
    ofOption ⟨session.sessionState, operation⟩ (targetState operation session.sessionState)
  else .error ⟨session.sessionState, operation⟩

/-- `apply_operation`: the gate, and the transition guarded by the state it read. -/
def applyOperation (operation : SessionOperation) :
    Repo (Except OperationRejected SessionRow) := do
  let session ← issue .readSession
  match gate operation session with
  | .error rejected => return .error rejected
  | .ok target =>
    let moved ← issue (.transitionSession session.sessionState target)
    return .ok moved

/-! ## What a reset writes -/

/-- `MINOR_UNIT_EXPONENT`. -/
def minorUnitExponent (currency : String) : Option ℕ :=
  if currency = "USD" then some 2
  else if currency = "INR" then some 2
  else none

/-- `recorded_capital`, in major units. -/
def recordedCapital (initialCapitalMinor : ℤ) (currency : String) : Except PaperError ℚ := do
  let exponent ← ofOption .valueError (minorUnitExponent currency)
  Except.refuseIf (initialCapitalMinor ≤ 0) .valueError
  return initialCapitalMinor / 10 ^ exponent

/-- `current_series_index`: the highest, or zero. -/
def currentSeriesIndex (snapshots : List SnapshotRow) : ℤ :=
  (snapshots.map SnapshotRow.seriesIndex).max?.getD 0

/-- `OPEN_ORDER_STATES`. -/
def openOrderStates : List OrderState := [.accepted, .partiallyFilled]

/-- Step 1: every open order is cancelled, under the state it was read in.  The answer
    is the orders that were, and those at `CREATED`, which cannot be. -/
def cancelOpenOrders : List OrderRow → Repo (List ℕ × List ℕ)
  | [] => return ([], [])
  | order :: rest => do
    if order.orderState ∈ openOrderStates then
      let _ ← updateOrder order.id .cancelled order.orderState none
      let (cancelled, notCancellable) ← cancelOpenOrders rest
      return (order.id :: cancelled, notCancellable)
    else if order.orderState = .created then
      let (cancelled, notCancellable) ← cancelOpenOrders rest
      return (cancelled, order.id :: notCancellable)
    else cancelOpenOrders rest

def resetPayload (capital : ℚ) : AccountUpdate where
  availableBalance := some capital
  lockedBalance := some 0
  realizedPnl := some 0
  totalEquity := some capital
  lastPriceAt := some none
  stale := some false

/-- The ledger row of a reset: what it moves is read off the account before. -/
def resetEvent (capital : ℚ) (before : AccountRow) (instant : Instant) : BalanceEventRow where
  cause := .reset
  availableDelta := ambientContext.sub capital before.availableBalance
  lockedDelta := ambientContext.neg before.lockedBalance
  realizedDelta := ambientContext.neg before.realizedPnl
  availableAfter := capital
  lockedAfter := 0
  realizedAfter := 0
  fillId := none
  occurredAt := instant

/-- Step 2: the balances, guarded by the version read, and then their ledger row. -/
def returnBalances (capital : ℚ) (instant : Instant) : Repo (AccountRow × BalanceEventRow) := do
  let before ← issue .lockAccountForUpdate
  let account ← issue (.bumpVersion before.version (resetPayload capital))
  let event ← issue (.insertBalanceEvent (resetEvent capital before instant))
  return (account, event)

/-- The columns of a position that a reset closes. -/
def closedValues (position : Position) (instant : Instant) : PositionValues where
  symbol := position.symbol
  side := position.side
  size := 0
  entryPrice := position.entryPrice
  openedAt := position.openedAt.getD instant
  currentPrice := position.currentPrice
  unrealizedPnl := some 0
  priceAt := position.priceAt
  closedAt := some instant

/-- Step 3: every open position to size zero. -/
def closePositions (instant : Instant) : List Position → Repo (List String)
  | [] => return []
  | position :: rest => do
    if position.isOpen then
      let _ ← upsertPosition (closedValues position instant)
      let closed ← closePositions instant rest
      return position.symbol :: closed
    else closePositions instant rest

/-- Step 4: the opening point of the series. -/
def openingSnapshot (seriesIndex : ℤ) (capital : ℚ) (instant : Instant) : SnapshotRow where
  seriesIndex := seriesIndex
  totalEquity := capital
  availableBalance := capital
  lockedBalance := 0
  positionMarketValue := 0
  stale := false
  cause := .sessionStart
  takenAt := instant

/-! ## `reset_session` -/

/-- `ResetOutcome`. -/
structure ResetOutcome where
  session : SessionRow
  initialCapital : ℚ
  account : AccountRow
  balanceEvent : BalanceEventRow
  cancelledOrders : List ℕ
  ordersNotCancellable : List ℕ
  closedPositions : List String
  previousSeriesIndex : ℤ
  openingSnapshot : SnapshotRow

/-- The body of a reset and its transition, once the gate is passed.  The session's
    currency is that of its account, which `read_account` looks up by it. -/
def resetBody (config : SessionConfig) (instant : Instant) (lifecycle : SessionRow) :
    Repo (Except OperationRejected ResetOutcome) := do
  let accountRow ← issue .lockAccountForUpdate
  let capital ← lift (recordedCapital lifecycle.initialCapitalMinor accountRow.currency)
  let snapshots ← issue .getEquitySnapshots
  let previousSeries := currentSeriesIndex snapshots
  let orders ← issue (.getOrders none)
  let (cancelled, notCancellable) ← cancelOpenOrders orders
  let (account, event) ← returnBalances capital instant
  let rows ← issue (.getPositions false)
  let positions ← lift (ofAccounting (positionsOf rows))
  let closed ← closePositions instant positions.items
  let opening ← issue (.insertEquitySnapshot (openingSnapshot (previousSeries + 1) capital instant))
  let rowsAfter ← issue (.getPositions false)
  let positionsAfter ← lift (ofAccounting (positionsOf rowsAfter))
  lift (ofAccounting (Accounting.assertInvariants (accountOf account) positionsAfter.items
    (fun _ => none) config.accounting))
  match ← applyOperation .reset with
  | .error rejected => return .error rejected
  | .ok session => return .ok {
      session, initialCapital := capital, account, balanceEvent := event
      cancelledOrders := cancelled, ordersNotCancellable := notCancellable
      closedPositions := closed, previousSeriesIndex := previousSeries
      openingSnapshot := opening }

/-- `reset_session`. -/
def resetSession (config : SessionConfig) (instant : Instant) :
    Repo (Except OperationRejected ResetOutcome) := do
  let session ← issue .readSession
  match gate .reset session with
  | .error rejected => return .error rejected
  | .ok _ => do
    let lifecycle ← issue .readSession
    resetBody config instant lifecycle

end VyomQuant.Paper
