/-
  VyomQuant.Paper.Store.Repository

  The repository functions of `paper_repository.py` as operations on the store.

  One operation is one statement, which is also what is atomic here: `handle` answers
  it and either applies all of its effect or, when it fails, none of it.  An update
  guarded by a version or a state that matches no row is a `concurrencyConflict`, as
  is an insert that loses to a unique index.  `upsert_position` is two statements.
-/

import Mathlib.Data.List.Sort
import VyomQuant.Lib.Program
import VyomQuant.Paper.Store.ApplyFillAtomic

namespace VyomQuant.Paper

open Except Program
open Accounting (Instant OrderSide AccountingError Position Book)

/-! ## Operations -/

/-- What `insert_order` is given; the order is inserted at `CREATED`. -/
structure NewOrder where
  symbol : String
  side : OrderSide
  orderType : OrderType
  quantity : ℚ
  limitPrice : Option ℚ
  referencePrice : Option ℚ
  idempotencyKey : Option String
  signalId : Option String
  fingerprint : OrderFingerprint

/-- The `payload` of `bump_version`: the columns it writes. -/
structure AccountUpdate where
  availableBalance : Option ℚ := none
  lockedBalance : Option ℚ := none
  realizedPnl : Option ℚ := none
  totalEquity : Option ℚ := none
  lastPriceAt : Option (Option Instant) := none
  stale : Option Bool := none

/-- The statements of the repository. -/
inductive RepoOp where
  | lockAccountForUpdate
  | readOrder (orderId : ℕ)
  | readSession
  | getFills (orderId : ℕ)
  | getBalanceEvents (cause : BalanceEventCause)
  | getPositions (includeClosed : Bool)
  | getOrders (status : Option LegacyStatus)
  | getEquitySnapshots
  | probeIdempotencyKey (key : String)
  | readOpenPosition (symbol : String)
  | insertOrder (order : NewOrder)
  | updateOrder (orderId : ℕ) (orderState expectedState : OrderState)
      (rejectionReason : Option RejectionReason)
  | bumpVersion (expectedVersion : ℕ) (payload : AccountUpdate)
  | insertBalanceEvent (event : BalanceEventRow)
  | insertEquitySnapshot (snapshot : SnapshotRow)
  | updatePosition (rowId version : ℕ) (values : PositionValues)
  | insertPosition (values : PositionValues)
  | applyFillAtomic (args : AtomicFill)
  | transitionSession (current target : SessionState)

/-- What a statement answers. -/
abbrev Res : RepoOp → Type
  | .lockAccountForUpdate => AccountRow
  | .readOrder _ => Option OrderRow
  | .readSession => SessionRow
  | .getFills _ => List FillRow
  | .getBalanceEvents _ => List BalanceEventRow
  | .getPositions _ => List PositionRow
  | .getOrders _ => List OrderRow
  | .getEquitySnapshots => List SnapshotRow
  | .probeIdempotencyKey _ => Option OrderRow
  | .readOpenPosition _ => Option PositionRow
  | .insertOrder _ => OrderRow
  | .updateOrder .. => OrderRow
  | .bumpVersion .. => AccountRow
  | .insertBalanceEvent _ => BalanceEventRow
  | .insertEquitySnapshot _ => SnapshotRow
  | .updatePosition .. => PositionRow
  | .insertPosition _ => PositionRow
  | .applyFillAtomic _ => FillCommit
  | .transitionSession .. => SessionRow

/-- A program over the repository. -/
abbrev Repo (α : Type) := Program Res PaperError α

def issue (op : RepoOp) : Repo (Res op) := perform op

/-! ## Statements that write -/

/-- The INSERT of `insert_order`. -/
def insertOrderRow (order : NewOrder) (s : Store) : Except PaperError (OrderRow × Store) := do
  let quantity ← numeric order.quantity
  let limitPrice ← optionalNumeric order.limitPrice
  let referencePrice ← optionalNumeric order.referencePrice
  refuseIf (quantity ≤ 0) .persistence
  refuseIf (∃ limit ∈ limitPrice, limit ≤ 0) .persistence
  -- `uq_paper_order_idem`; a null key is equal to no key.
  refuseIf (∃ key ∈ order.idempotencyKey, ∃ old ∈ s.orders, old.idempotencyKey = some key)
    .concurrencyConflict
  let row : OrderRow := {
    id := s.clock, symbol := order.symbol, side := order.side, orderType := order.orderType
    quantity, limitPrice, referencePrice, filledQuantity := 0, avgFillPrice := none
    feeMinor := 0, slippageMinor := 0, orderState := .created, rejectionReason := none
    idempotencyKey := order.idempotencyKey, signalId := order.signalId
    fingerprint := order.fingerprint, createdAt := s.clock }
  return (row, { s with orders := s.orders ++ [row], clock := s.clock + 1 })

/-- The UPDATE of `update_order`. -/
def updateOrderRow (orderId : ℕ) (orderState expectedState : OrderState)
    (rejectionReason : Option RejectionReason) (s : Store) :
    Except PaperError (OrderRow × Store) := do
  let old ← ofOption .concurrencyConflict
    (s.orders.find? fun old => old.id = orderId ∧ old.orderState = expectedState)
  refuseIf (¬ transitionAllowed old.orderState orderState) .persistence
  let row : OrderRow :=
    { old with orderState, rejectionReason := rejectionReason.or old.rejectionReason }
  return (row, replaceOrder row s)

/-- The UPDATE of `bump_version`. -/
def bumpVersionRow (expectedVersion : ℕ) (payload : AccountUpdate) (s : Store) :
    Except PaperError (AccountRow × Store) := do
  refuseIf (s.account.version ≠ expectedVersion) .concurrencyConflict
  let availableBalance ← numeric (payload.availableBalance.getD s.account.availableBalance)
  let lockedBalance ← numeric (payload.lockedBalance.getD s.account.lockedBalance)
  let realizedPnl ← numeric (payload.realizedPnl.getD s.account.realizedPnl)
  let totalEquity ← numeric (payload.totalEquity.getD s.account.totalEquity)
  refuseIf (availableBalance < 0 ∨ lockedBalance < 0) .persistence
  let row : AccountRow := {
    s.account with
    availableBalance, lockedBalance, realizedPnl, totalEquity
    lastPriceAt := payload.lastPriceAt.getD s.account.lastPriceAt
    stale := payload.stale.getD s.account.stale
    version := expectedVersion + 1
    updatedAt := s.clock }
  return (row, { s with account := row, clock := s.clock + 1 })

/-- The INSERT of `insert_balance_event`. -/
def insertBalanceEventRow (event : BalanceEventRow) (s : Store) :
    Except PaperError (BalanceEventRow × Store) := do
  let availableDelta ← numeric event.availableDelta
  let lockedDelta ← numeric event.lockedDelta
  let realizedDelta ← numeric event.realizedDelta
  let availableAfter ← numeric event.availableAfter
  let lockedAfter ← numeric event.lockedAfter
  let realizedAfter ← numeric event.realizedAfter
  let row : BalanceEventRow := {
    event with
    availableDelta, lockedDelta, realizedDelta, availableAfter, lockedAfter, realizedAfter }
  return (row, { s with balanceEvents := s.balanceEvents ++ [row] })

/-- The UPDATE of `upsert_position`, guarded by the version its own read returned. -/
def updatePositionRow (rowId version : ℕ) (values : PositionValues) (s : Store) :
    Except PaperError (PositionRow × Store) := do
  let size ← numeric values.size
  let entryPrice ← numeric values.entryPrice
  let currentPrice ← optionalNumeric values.currentPrice
  let unrealizedPnl ← optionalNumeric values.unrealizedPnl
  refuseIf (size < 0) .persistence
  let old ← ofOption .concurrencyConflict
    (s.positions.find? fun old => old.id = rowId ∧ old.version = version)
  let row : PositionRow := {
    old with
    side := values.side, size, entryPrice, currentPrice, unrealizedPnl
    priceAt := values.priceAt
    closedAt := values.closedAt
    version := version + 1 }
  return (row, replacePosition row s)

/-- The INSERT of `upsert_position`. -/
def insertPositionRow (values : PositionValues) (s : Store) :
    Except PaperError (PositionRow × Store) := do
  let size ← numeric values.size
  let entryPrice ← numeric values.entryPrice
  let currentPrice ← optionalNumeric values.currentPrice
  let unrealizedPnl ← optionalNumeric values.unrealizedPnl
  refuseIf (size < 0) .persistence
  -- `uq_paper_position_open`
  refuseIf (values.closedAt = none ∧ (findOpenPosition values.symbol s.positions).isSome)
    .concurrencyConflict
  let row : PositionRow := {
    id := s.clock, symbol := values.symbol, side := values.side, size, entryPrice, currentPrice
    unrealizedPnl, priceAt := values.priceAt, openedAt := values.openedAt
    closedAt := values.closedAt, version := 1 }
  return (row, { s with positions := s.positions ++ [row], clock := s.clock + 1 })

def transitionSessionRow (current target : SessionState) (s : Store) :
    Except PaperError (SessionRow × Store) := do
  refuseIf (s.session.sessionState ≠ current) .concurrencyConflict
  let row : SessionRow := { s.session with sessionState := target }
  return (row, { s with session := row })

/-! ## The handler -/

def statement : (op : RepoOp) → Store → Except PaperError (Res op × Store)
  | .lockAccountForUpdate, s => .ok (s.account, s)
  | .readOrder orderId, s => .ok (s.orders.find? fun order => order.id = orderId, s)
  | .readSession, s => .ok (s.session, s)
  | .getFills orderId, s =>
    .ok ((s.fills.filter fun fill => fill.orderId = orderId).insertionSort
      fun a b => b.filledAt ≤ a.filledAt, s)
  | .getBalanceEvents cause, s =>
    .ok ((s.balanceEvents.filter fun event => event.cause = cause).insertionSort
      fun a b => b.occurredAt ≤ a.occurredAt, s)
  | .getPositions includeClosed, s =>
    .ok ((s.positions.filter fun row => includeClosed ∨ row.closedAt = none).insertionSort
      fun a b => b.openedAt ≤ a.openedAt, s)
  | .getOrders status, s =>
    .ok ((s.orders.filter fun order => ∀ required ∈ status, order.legacyStatus = required)
      |>.insertionSort fun a b => b.createdAt ≤ a.createdAt, s)
  | .getEquitySnapshots, s => .ok (s.snapshots, s)
  | .probeIdempotencyKey key, s =>
    .ok (s.orders.find? fun order => order.idempotencyKey = some key, s)
  | .readOpenPosition symbol, s => .ok (findOpenPosition symbol s.positions, s)
  | .insertOrder order, s => insertOrderRow order s
  | .updateOrder orderId orderState expectedState reason, s =>
    updateOrderRow orderId orderState expectedState reason s
  | .bumpVersion expectedVersion payload, s => bumpVersionRow expectedVersion payload s
  | .insertBalanceEvent event, s => insertBalanceEventRow event s
  | .insertEquitySnapshot snapshot, s => writeSnapshot snapshot s
  | .updatePosition rowId version values, s => updatePositionRow rowId version values s
  | .insertPosition values, s => insertPositionRow values s
  | .applyFillAtomic args, s => applyFillAtomic args s
  | .transitionSession current target, s => transitionSessionRow current target s

/-- A failed statement leaves the store as it was. -/
def handle : Handler Res PaperError Store := fun op s =>
  match statement op s with
  | .ok (answer, s') => (.ok answer, s')
  | .error e => (.error e, s)

/-- Whether a statement only reads. -/
def RepoOp.isRead : RepoOp → Bool
  | .lockAccountForUpdate | .readOrder _ | .readSession | .getFills _ | .getBalanceEvents _
  | .getPositions _ | .getOrders _ | .getEquitySnapshots | .probeIdempotencyKey _
  | .readOpenPosition _ => true
  | _ => false

variable {op : RepoOp} {s s' : Store}

theorem handle_of_ok {answer : Res op} (h : statement op s = .ok (answer, s')) :
    handle op s = (.ok answer, s') := by
  unfold handle
  rw [h]

theorem handle_of_error {e : PaperError} (h : statement op s = .error e) :
    handle op s = (.error e, s) := by
  unfold handle
  rw [h]

theorem handle_eq_ok {answer : Res op} :
    handle op s = (.ok answer, s') ↔ statement op s = .ok (answer, s') := by
  unfold handle
  split
  · rename_i answer' s'' h
    simp [h]
  · rename_i e h
    simp [h]

theorem handle_cases (op : RepoOp) (s : Store) :
    (∃ answer s', statement op s = .ok (answer, s') ∧ handle op s = (.ok answer, s')) ∨
      ∃ e, statement op s = .error e ∧ handle op s = (.error e, s) := by
  cases h : statement op s with
  | ok result => exact Or.inl ⟨result.1, result.2, rfl, handle_of_ok h⟩
  | error e => exact Or.inr ⟨e, rfl, handle_of_error h⟩

theorem handle_of_isRead (h : op.isRead = true) (s : Store) : (handle op s).2 = s := by
  cases op <;> first | rfl | cases h

theorem run_issue_eq_ok {answer : Res op} :
    (issue op).run handle s = (.ok answer, s') ↔ statement op s = .ok (answer, s') := by
  rw [issue, run_perform, handle_eq_ok]

/-! ## Repository functions of more than one statement -/

/-- `_one_of`. -/
def oneOf {α : Type} : Spelled α → Except PaperError α
  | .recognised value => .ok value
  | .unrecognised _ => .error .valueError

/-- `update_order`: a transition that is not permitted is refused before the statement. -/
def updateOrder (orderId : ℕ) (orderState expectedState : OrderState)
    (rejectionReason : Option RejectionReason) : Repo OrderRow := do
  Program.refuseIf (¬ expectedState.canTransition orderState) .valueError
  issue (.updateOrder orderId orderState expectedState rejectionReason)

/-- `upsert_position`: the open row of the symbol is read, and then updated under the
    version of that read, or a row is inserted. -/
def upsertPosition (values : PositionValues) : Repo PositionRow := do
  match ← issue (.readOpenPosition values.symbol) with
  | some current => issue (.updatePosition current.id current.version values)
  | none => issue (.insertPosition values)

/-- `RETRY_ATTEMPTS`. -/
def retryAttempts : ℕ := 3

/-- `with_retries`. -/
def withRetries {α : Type} (operation : RetriedOperation) (attempt : Repo α) : Repo α :=
  retrying isRetryable (.concurrencyExhausted operation none false) attempt retryAttempts

/-! ## Rows as values -/

/-- `position_of`. -/
def positionOf (row : PositionRow) : Except AccountingError Position :=
  Position.make {
    symbol := row.symbol, side := row.side, size := row.size, entryPrice := row.entryPrice
    currentPrice := row.currentPrice, unrealizedPnl := row.unrealizedPnl
    priceAt := row.priceAt, openedAt := some row.openedAt, closedAt := row.closedAt }

/-- One round of `positions_of`: the open row of a symbol wins over its history. -/
def addPosition (resolved : Book) (row : PositionRow) : Except AccountingError Book := do
  let position ← positionOf row
  match resolved.get? position.symbol with
  | none => return resolved.put position
  | some existing =>
    if position.isOpen ∧ ¬ existing.isOpen then return resolved.put position
    else return resolved

/-- `positions_of`. -/
def positionsOf (rows : List PositionRow) : Except AccountingError Book :=
  rows.foldlM addPosition KeyedList.empty

end VyomQuant.Paper
