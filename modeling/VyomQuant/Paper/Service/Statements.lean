/-
  VyomQuant.Paper.Service.Statements

  The statements of the default account's service that the session path does not issue, and
  the positions as the service reads them.

  A fill of the default account is written by statements of its own: the fill row, the
  account, its ledger row, the positions, the trade and the order.
-/

import VyomQuant.Paper.Service.Fill
import VyomQuant.Paper.Simulator.Pricing
import VyomQuant.Paper.Store.Repository

namespace VyomQuant.Paper.Service

open Except
open Accounting (AccountingConfig AccountingError Account Book Position OrderSide Instant FillResult)

/-! ## Writes -/

/-- `_fill_event_id`: an order of the default account fills once. -/
def fillEventId (orderId : ℕ) : FillEventId := .named ("exec_paper_" ++ toString orderId)

/-- The INSERT of `insert_fill`. -/
def insertFillRow (orderId : ℕ) (values : FillValues) (s : Store) :
    Except PaperError (FillRow × Store) := do
  let quantity ← numeric values.quantity
  let price ← numeric values.price
  let feeMinor ← bigint values.feeMinor
  let slippageMinor ← bigint values.slippageMinor
  refuseIf (quantity ≤ 0) .persistence
  refuseIf (price ≤ 0) .persistence
  -- `uq_paper_fill_event`
  refuseIf (∃ fill ∈ s.fills, fill.orderId = orderId ∧ fill.fillEventId = fillEventId orderId)
    .duplicateFill
  let fill : FillRow := {
    id := s.clock, orderId, fillEventId := fillEventId orderId, quantity, price, feeMinor
    slippageMinor, marketEventId := values.marketEventId, filledAt := values.filledAt }
  return (fill, { s with fills := s.fills ++ [fill], clock := s.clock + 1 })

/-- The UPDATE of `update_order` that writes the figures of a fill.  A transition that is not
    permitted is refused before the statement. -/
def fillOrderRow (orderId : ℕ) (expectedState : OrderState) (values : OrderValues) (s : Store) :
    Except PaperError (OrderRow × Store) := do
  refuseIf (¬ expectedState.canTransition values.targetState) .valueError
  let filledQuantity ← numeric values.filledQuantity
  let avgFillPrice ← numeric values.avgFillPrice
  let feeMinor ← bigint values.feeMinor
  let slippageMinor ← bigint values.slippageMinor
  let old ← ofOption .concurrencyConflict
    (s.orders.find? fun old => old.id = orderId ∧ old.orderState = expectedState)
  refuseIf (¬ transitionAllowed old.orderState values.targetState) .persistence
  -- `chk_paper_order_fill_bound`
  refuseIf (filledQuantity < 0 ∨ old.quantity < filledQuantity) .persistence
  let row : OrderRow := {
    old with
    orderState := values.targetState, filledQuantity, avgFillPrice := some avgFillPrice, feeMinor
    slippageMinor }
  return (row, replaceOrder row s)

/-- `update_order` without figures. -/
def moveOrderRow (orderId : ℕ) (orderState expectedState : OrderState)
    (rejectionReason : Option RejectionReason) (s : Store) : Except PaperError (OrderRow × Store) := do
  refuseIf (¬ expectedState.canTransition orderState) .valueError
  updateOrderRow orderId orderState expectedState rejectionReason s

/-- The INSERT of `insert_trade`. -/
def insertTradeRow (trade : TradeRow) (s : Store) : Except PaperError (TradeRow × Store) := do
  let quantity ← numeric trade.quantity
  let entryPrice ← numeric trade.entryPrice
  let exitPrice ← numeric trade.exitPrice
  let realizedPnl ← numeric trade.realizedPnl
  let feeMinor ← bigint trade.feeMinor
  let row : TradeRow := { trade with quantity, entryPrice, exitPrice, realizedPnl, feeMinor }
  return (row, { s with trades := s.trades ++ [row] })

/-- The second statement of `upsert_position`: the open row that was read is updated under
    its version, or a row is inserted. -/
def writePositionRow (current : Option PositionRow) (values : PositionValues) (s : Store) :
    Except PaperError (PositionRow × Store) :=
  match current with
  | some row => updatePositionRow row.id row.version values s
  | none => insertPositionRow values s

/-! ## Reads -/

/-- One round of `_positions_of`: a row is taken unless an open one has been. -/
def addPositionRow (positions : Book) (row : PositionRow) : Except AccountingError Book :=
  if ∃ position ∈ positions.get? row.symbol, position.isOpen then .ok positions
  else do
    let position ← positionOf row
    return positions.put position

/-- `_positions_of`. -/
def positionsOfRows (rows : List PositionRow) : Except AccountingError Book :=
  rows.foldlM addPositionRow KeyedList.empty

/-- `get_positions`, newest first. -/
def positionRows (includeClosed : Bool) (s : Store) : List PositionRow :=
  (s.positions.filter fun row => includeClosed ∨ row.closedAt = none).insertionSort
    fun a b => b.openedAt ≤ a.openedAt

/-- `get_orders` of one legacy status, newest first. -/
def openOrders (s : Store) : List OrderRow :=
  (s.orders.filter fun order => order.legacyStatus = .open).insertionSort
    fun a b => b.createdAt ≤ a.createdAt

/-- `get_fills` of an order, newest first. -/
def fillsOf (orderId : ℕ) (s : Store) : List FillRow :=
  (s.fills.filter fun fill => fill.orderId = orderId).insertionSort
    fun a b => b.filledAt ≤ a.filledAt

/-- `get_balance_events` of the cause `FILL`. -/
def fillEvents (s : Store) : List BalanceEventRow :=
  s.balanceEvents.filter fun event => event.cause = .fill

/-- `probe_idempotency_key`. -/
def recordedUnder (key : String) (s : Store) : Option OrderRow :=
  s.orders.find? fun order => order.idempotencyKey = some key

/-- `read_order`. -/
def orderById (orderId : ℕ) (s : Store) : Option OrderRow :=
  s.orders.find? fun order => order.id = orderId

/-- `_minor`: an amount that is not whole in minor units is refused. -/
def minor (config : AccountingConfig) (amount : ℚ) : Except PaperError ℤ := do
  let quantized ← ofAccounting (config.money amount)
  let scaled := ambientContext.round (quantized * 10 ^ config.minorUnitExponent)
  if scaled.den = 1 then .ok scaled.num else .error .valueError

end VyomQuant.Paper.Service
