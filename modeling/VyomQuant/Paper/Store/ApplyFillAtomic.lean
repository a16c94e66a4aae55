/-
  VyomQuant.Paper.Store.ApplyFillAtomic

  `paper_apply_fill_atomic` (`048_paper05_apply_fill_atomic.sql`): the one
  transaction that commits a fill.  It re-checks the account version and the order
  state under a lock, inserts the fill row on its unique key (or picks up a fill row
  that was left without a ledger row), and then writes the account, the ledger, the
  positions, the order, the trade and the equity point.

  Each write is a function of the store; the first that fails takes the whole
  transaction back, which `Except` is here.  `applyFillAtomic_eq_ok` is the inversion
  lemma: what every table is after a commit.
-/

import VyomQuant.Paper.Store.Rows

namespace VyomQuant.Paper

open Except
open Accounting (Instant PositionSide)

/-! ## The arguments -/

/-- `p_fill`. -/
structure FillValues where
  quantity : ℚ
  price : ℚ
  feeMinor : ℤ
  slippageMinor : ℤ
  marketEventId : Option String
  filledAt : Instant

/-- `p_account`. -/
structure AccountValues where
  availableBalance : ℚ
  lockedBalance : ℚ
  realizedPnl : ℚ
  totalEquity : ℚ

/-- `p_balance_event`. -/
structure BalanceEventValues where
  availableDelta : ℚ
  lockedDelta : ℚ
  realizedDelta : ℚ
  occurredAt : Instant

/-- `p_order`. -/
structure OrderValues where
  targetState : OrderState
  filledQuantity : ℚ
  avgFillPrice : ℚ
  feeMinor : ℤ
  slippageMinor : ℤ

/-- `p_position`. -/
structure PositionValues where
  symbol : String
  side : PositionSide
  size : ℚ
  entryPrice : ℚ
  openedAt : Instant
  currentPrice : Option ℚ
  unrealizedPnl : Option ℚ
  priceAt : Option Instant
  closedAt : Option Instant

/-- `p_closed_leg`. -/
structure ClosedLegValues where
  side : PositionSide
  entryPrice : ℚ
  openedAt : Instant

/-- The arguments of `paper_apply_fill_atomic`.  The trade and the equity point are
    the rows to insert. -/
structure AtomicFill where
  orderId : ℕ
  fillEventId : FillEventId
  expectedAccountVersion : ℕ
  expectedOrderState : OrderState
  resumeFillId : Option ℕ
  fill : FillValues
  account : AccountValues
  balanceEvent : BalanceEventValues
  order : OrderValues
  position : PositionValues
  closedLeg : Option ClosedLegValues
  trade : Option TradeRow
  equitySnapshot : SnapshotRow

/-- The rows the call returns. -/
structure FillCommit where
  fill : FillRow
  account : AccountRow
  balanceEvent : BalanceEventRow
  position : PositionRow
  closedPosition : Option PositionRow
  order : OrderRow
  trade : Option TradeRow
  snapshot : SnapshotRow

/-! ## The writes -/

def writeFill (args : AtomicFill) (s : Store) : Except PaperError (FillRow × Store) :=
  match args.resumeFillId with
  | some fillId => do
    let fill ← ofOption .persistence (s.fills.find? fun fill =>
      fill.id = fillId ∧ fill.orderId = args.orderId ∧ fill.fillEventId = args.fillEventId)
    return (fill, s)
  | none => do
    let quantity ← numeric args.fill.quantity
    let price ← numeric args.fill.price
    let feeMinor ← bigint args.fill.feeMinor
    let slippageMinor ← bigint args.fill.slippageMinor
    refuseIf (quantity ≤ 0) .persistence
    refuseIf (price ≤ 0) .persistence
    -- `uq_paper_fill_event`
    refuseIf (∃ fill ∈ s.fills, fill.orderId = args.orderId ∧ fill.fillEventId = args.fillEventId)
      .duplicateFill
    let fill : FillRow := {
      id := s.clock, orderId := args.orderId, fillEventId := args.fillEventId, quantity, price,
      feeMinor, slippageMinor, marketEventId := args.fill.marketEventId,
      filledAt := args.fill.filledAt }
    return (fill, { s with fills := s.fills ++ [fill], clock := s.clock + 1 })

/-- Write 2: the money, moving the version. -/
def writeAccount (args : AtomicFill) (s : Store) : Except PaperError (AccountRow × Store) := do
  let availableBalance ← numeric args.account.availableBalance
  let lockedBalance ← numeric args.account.lockedBalance
  let realizedPnl ← numeric args.account.realizedPnl
  let totalEquity ← numeric args.account.totalEquity
  refuseIf (availableBalance < 0 ∨ lockedBalance < 0) .persistence
  let account : AccountRow := {
    s.account with
    availableBalance, lockedBalance, realizedPnl, totalEquity
    lastPriceAt := some args.fill.filledAt
    stale := false
    version := s.account.version + 1
    updatedAt := s.clock }
  return (account, { s with account, clock := s.clock + 1 })

def writeBalanceEvent (args : AtomicFill) (fill : FillRow) (s : Store) :
    Except PaperError (BalanceEventRow × Store) := do
  let availableDelta ← numeric args.balanceEvent.availableDelta
  let lockedDelta ← numeric args.balanceEvent.lockedDelta
  let realizedDelta ← numeric args.balanceEvent.realizedDelta
  let event : BalanceEventRow := {
    cause := .fill, availableDelta, lockedDelta, realizedDelta
    availableAfter := s.account.availableBalance
    lockedAfter := s.account.lockedBalance
    realizedAfter := s.account.realizedPnl
    fillId := some fill.id
    occurredAt := args.balanceEvent.occurredAt }
  return (event, { s with balanceEvents := s.balanceEvents ++ [event] })

/-- The first half of write 4: the closed leg of a reversal, in its own row. -/
def writeClosedLeg (args : AtomicFill) (s : Store) :
    Except PaperError (Option PositionRow × Store) :=
  match args.closedLeg with
  | none => .ok (none, s)
  | some leg => do
    let entryPrice ← numeric leg.entryPrice
    let currentPrice ← numeric args.fill.price
    let row : PositionRow := {
      id := s.clock, symbol := args.position.symbol, side := leg.side, size := 0, entryPrice
      currentPrice := some currentPrice, unrealizedPnl := some 0
      priceAt := some args.fill.filledAt, openedAt := leg.openedAt
      closedAt := some args.fill.filledAt, version := 1 }
    return (some row, { s with positions := s.positions ++ [row], clock := s.clock + 1 })

def findOpenPosition (symbol : String) (positions : List PositionRow) : Option PositionRow :=
  positions.find? fun row => row.isOpenFor symbol

/-- An updated row in the place of the row with its identity. -/
def replacePosition (row : PositionRow) (s : Store) : Store :=
  { s with positions := s.positions.map fun old => if old.id = row.id then row else old }

/-- The second half of write 4: the open row of the symbol is updated in place, and
    keeps the `opened_at` it has; without one a row is inserted. -/
def writePosition (args : AtomicFill) (s : Store) : Except PaperError (PositionRow × Store) := do
  let size ← numeric args.position.size
  let entryPrice ← numeric args.position.entryPrice
  let currentPrice ← optionalNumeric args.position.currentPrice
  let unrealizedPnl ← optionalNumeric args.position.unrealizedPnl
  refuseIf (size < 0) .persistence
  match findOpenPosition args.position.symbol s.positions with
  | some old =>
    let row : PositionRow := {
      old with
      side := args.position.side, size, entryPrice, currentPrice, unrealizedPnl
      priceAt := args.position.priceAt
      closedAt := args.position.closedAt
      version := old.version + 1 }
    return (row, replacePosition row s)
  | none =>
    let row : PositionRow := {
      id := s.clock, symbol := args.position.symbol, side := args.position.side, size, entryPrice
      currentPrice, unrealizedPnl, priceAt := args.position.priceAt
      openedAt := args.position.openedAt, closedAt := args.position.closedAt, version := 1 }
    return (row, { s with positions := s.positions ++ [row], clock := s.clock + 1 })

/-- An updated order in the place of the order with its identity. -/
def replaceOrder (order : OrderRow) (s : Store) : Store :=
  { s with orders := s.orders.map fun old => if old.id = order.id then order else old }

/-- `paper_order_transition_guard`: whether an update from one state to another is let
    through.  Only the self-edge of a partial fill is a transition. -/
def transitionAllowed (current target : OrderState) : Prop :=
  (target = current ∧ target ≠ .partiallyFilled) ∨ current.canTransition target

instance (current target : OrderState) : Decidable (transitionAllowed current target) :=
  inferInstanceAs (Decidable (_ ∨ _))

def writeOrder (args : AtomicFill) (order : OrderRow) (s : Store) :
    Except PaperError (OrderRow × Store) := do
  let filledQuantity ← numeric args.order.filledQuantity
  let avgFillPrice ← numeric args.order.avgFillPrice
  let feeMinor ← bigint args.order.feeMinor
  let slippageMinor ← bigint args.order.slippageMinor
  refuseIf (¬ transitionAllowed order.orderState args.order.targetState) .persistence
  refuseIf (filledQuantity < 0 ∨ order.quantity < filledQuantity) .persistence
  let order : OrderRow := {
    order with
    orderState := args.order.targetState, filledQuantity, avgFillPrice := some avgFillPrice
    feeMinor, slippageMinor }
  return (order, replaceOrder order s)

/-- Write 6: the closed round trip. -/
def writeTrade (args : AtomicFill) (s : Store) : Except PaperError (Option TradeRow × Store) :=
  match args.trade with
  | none => .ok (none, s)
  | some trade => do
    let quantity ← numeric trade.quantity
    let entryPrice ← numeric trade.entryPrice
    let exitPrice ← numeric trade.exitPrice
    let realizedPnl ← numeric trade.realizedPnl
    let feeMinor ← bigint trade.feeMinor
    let row : TradeRow := { trade with quantity, entryPrice, exitPrice, realizedPnl, feeMinor }
    return (some row, { s with trades := s.trades ++ [row] })

/-- An equity point, with its columns cast. -/
def writeSnapshot (snapshot : SnapshotRow) (s : Store) :
    Except PaperError (SnapshotRow × Store) := do
  let totalEquity ← numeric snapshot.totalEquity
  let availableBalance ← numeric snapshot.availableBalance
  let lockedBalance ← numeric snapshot.lockedBalance
  let positionMarketValue ← numeric snapshot.positionMarketValue
  let row : SnapshotRow :=
    { snapshot with totalEquity, availableBalance, lockedBalance, positionMarketValue }
  return (row, { s with snapshots := s.snapshots ++ [row] })

/-- `paper_apply_fill_atomic`.  A missing order (`PA003`) is a persistence failure to
    its caller. -/
def applyFillAtomic (args : AtomicFill) (s : Store) : Except PaperError (FillCommit × Store) := do
  refuseIf (s.account.version ≠ args.expectedAccountVersion) .concurrencyConflict
  let order ← ofOption .persistence (s.orders.find? fun order => order.id = args.orderId)
  refuseIf (order.orderState ≠ args.expectedOrderState) .concurrencyConflict
  let (fill, s) ← writeFill args s
  let (account, s) ← writeAccount args s
  let (balanceEvent, s) ← writeBalanceEvent args fill s
  let (closedPosition, s) ← writeClosedLeg args s
  let (position, s) ← writePosition args s
  let (order, s) ← writeOrder args order s
  let (trade, s) ← writeTrade args s
  let (snapshot, s) ← writeSnapshot args.equitySnapshot s
  return ({ fill, account, balanceEvent, position, closedPosition, order, trade, snapshot }, s)

/-! ## What a commit did -/

/-- The fill row of a commit: new on its key, or resumed. -/
inductive FillWritten (args : AtomicFill) (s : Store) (fill : FillRow) (fills : List FillRow) :
    Prop
  | inserted (h_args : args.resumeFillId = none) (h_id : fill.id = s.clock)
      (h_quantity : numeric args.fill.quantity = .ok fill.quantity) (h_pos : 0 < fill.quantity)
      (h_price : numeric args.fill.price = .ok fill.price)
      (h_fresh : ∀ old ∈ s.fills,
        ¬ (old.orderId = args.orderId ∧ old.fillEventId = args.fillEventId))
      (h_fills : fills = s.fills ++ [fill])
  | resumed {fillId : ℕ} (h_args : args.resumeFillId = some fillId) (h_id : fill.id = fillId)
      (h_mem : fill ∈ s.fills) (h_fills : fills = s.fills)

structure AccountWritten (args : AtomicFill) (old new : AccountRow) : Prop where
  available : numeric args.account.availableBalance = .ok new.availableBalance
  locked : numeric args.account.lockedBalance = .ok new.lockedBalance
  realized : numeric args.account.realizedPnl = .ok new.realizedPnl
  totalEquity : numeric args.account.totalEquity = .ok new.totalEquity
  available_nonneg : 0 ≤ new.availableBalance
  locked_nonneg : 0 ≤ new.lockedBalance
  version : new.version = old.version + 1

/-- The ledger row of a commit. -/
structure MovementWritten (args : AtomicFill) (fill : FillRow) (event : BalanceEventRow) : Prop where
  cause : event.cause = .fill
  fillId : event.fillId = some fill.id
  available : numeric args.balanceEvent.availableDelta = .ok event.availableDelta
  locked : numeric args.balanceEvent.lockedDelta = .ok event.lockedDelta
  realized : numeric args.balanceEvent.realizedDelta = .ok event.realizedDelta

/-- The order after a commit: only its state and its running totals are written. -/
structure OrderWritten (args : AtomicFill) (old new : OrderRow) : Prop where
  allowed : transitionAllowed old.orderState args.order.targetState
  filledQuantity : numeric args.order.filledQuantity = .ok new.filledQuantity
  filledQuantity_mem : 0 ≤ new.filledQuantity ∧ new.filledQuantity ≤ old.quantity
  row : ∃ avgFillPrice feeMinor slippageMinor, new =
    { old with
      orderState := args.order.targetState, filledQuantity := new.filledQuantity
      avgFillPrice, feeMinor, slippageMinor }

/-- The closed leg a reversal inserts. -/
structure ClosedLegRow (args : AtomicFill) (leg : ClosedLegValues) (row : PositionRow) :
    Prop where
  symbol : row.symbol = args.position.symbol
  side : row.side = leg.side
  size : row.size = 0
  entryPrice : numeric leg.entryPrice = .ok row.entryPrice
  openedAt : row.openedAt = leg.openedAt
  closedAt : row.closedAt = some args.fill.filledAt

/-- The columns every position write sets. -/
structure PositionColumns (args : AtomicFill) (row : PositionRow) : Prop where
  symbol : row.symbol = args.position.symbol
  side : row.side = args.position.side
  size : numeric args.position.size = .ok row.size
  size_nonneg : 0 ≤ row.size
  entryPrice : numeric args.position.entryPrice = .ok row.entryPrice
  currentPrice : optionalNumeric args.position.currentPrice = .ok row.currentPrice
  unrealizedPnl : optionalNumeric args.position.unrealizedPnl = .ok row.unrealizedPnl
  priceAt : row.priceAt = args.position.priceAt
  closedAt : row.closedAt = args.position.closedAt

/-- The position row of a commit: the open row of the symbol in place, with the
    `opened_at` it had, or a new row. -/
inductive PositionWritten (args : AtomicFill) (clock clock' : ℕ) (before : List PositionRow)
    (row : PositionRow) (after : List PositionRow) : Prop
  | updated {old : PositionRow} (h_old : findOpenPosition args.position.symbol before = some old)
      (h_row : PositionColumns args row) (h_id : row.id = old.id)
      (h_openedAt : row.openedAt = old.openedAt)
      (h_after : after = before.map fun old => if old.id = row.id then row else old)
      (h_clock : clock ≤ clock')
  | inserted (h_none : findOpenPosition args.position.symbol before = none)
      (h_row : PositionColumns args row) (h_id : row.id = clock)
      (h_openedAt : row.openedAt = args.position.openedAt) (h_after : after = before ++ [row])
      (h_clock : clock < clock')

/-- The trade row of a commit, its figures cast. -/
structure TradeWritten (trade row : TradeRow) : Prop where
  symbol : row.symbol = trade.symbol
  side : row.side = trade.side
  openedAt : row.openedAt = trade.openedAt
  closedAt : row.closedAt = trade.closedAt

variable {args : AtomicFill} {s s' : Store}

theorem writeFill_eq_ok {fill : FillRow} (h : writeFill args s = .ok (fill, s')) :
    FillWritten args s fill s'.fills ∧ fill.orderId = args.orderId ∧
      fill.fillEventId = args.fillEventId ∧
      ∃ clock, s.clock ≤ clock ∧ s' = { s with fills := s'.fills, clock := clock } := by
  unfold writeFill at h
  split at h
  · rename_i fillId h_args
    simp only [bind_eq_ok, pure_eq_ok, ofOption_eq_ok, Prod.mk.injEq] at h
    obtain ⟨row, h_find, rfl, rfl⟩ := h
    have h_mem := List.mem_of_find?_eq_some h_find
    have h_key := List.find?_some h_find
    simp only [decide_eq_true_eq] at h_key
    exact ⟨.resumed h_args h_key.1 h_mem rfl, h_key.2.1, h_key.2.2, s.clock, le_rfl, rfl⟩
  · rename_i h_args
    simp only [bind_eq_ok, pure_eq_ok, refuseIf_eq_ok, Prod.mk.injEq, not_le] at h
    obtain ⟨quantity, h_quantity, price, h_price, feeMinor, _, slippageMinor, _, _, h_pos, _, _,
      _, h_fresh, rfl, rfl⟩ := h
    refine ⟨.inserted h_args rfl h_quantity h_pos h_price ?_ rfl, rfl, rfl, s.clock + 1,
      Nat.le_succ _, rfl⟩
    intro old h_old h_key
    exact h_fresh ⟨old, h_old, h_key⟩

theorem writeAccount_eq_ok {account : AccountRow} (h : writeAccount args s = .ok (account, s')) :
    AccountWritten args s.account account ∧
      ∃ clock, s.clock < clock ∧ s' = { s with account, clock := clock } := by
  simp only [writeAccount, bind_eq_ok, pure_eq_ok, refuseIf_eq_ok, Prod.mk.injEq, not_or,
    not_lt] at h
  obtain ⟨available, h_available, locked, h_locked, realized, h_realized, totalEquity, h_equity,
    _, ⟨h_nonneg, h_nonneg'⟩, rfl, rfl⟩ := h
  exact ⟨⟨h_available, h_locked, h_realized, h_equity, h_nonneg, h_nonneg', rfl⟩, s.clock + 1,
    Nat.lt_succ_self _, rfl⟩

theorem writeBalanceEvent_eq_ok {fill : FillRow} {event : BalanceEventRow}
    (h : writeBalanceEvent args fill s = .ok (event, s')) :
    MovementWritten args fill event ∧
      s' = { s with balanceEvents := s.balanceEvents ++ [event] } := by
  simp only [writeBalanceEvent, bind_eq_ok, pure_eq_ok, Prod.mk.injEq] at h
  obtain ⟨_, h_available, _, h_locked, _, h_realized, rfl, rfl⟩ := h
  exact ⟨⟨rfl, rfl, h_available, h_locked, h_realized⟩, rfl⟩

theorem writeClosedLeg_eq_ok {closed : Option PositionRow}
    (h : writeClosedLeg args s = .ok (closed, s')) :
    (∀ row ∈ closed, ∃ leg, args.closedLeg = some leg ∧ ClosedLegRow args leg row ∧
        row.id = s.clock) ∧
      (closed = none ↔ args.closedLeg = none) ∧
      ∃ clock, s.clock + closed.toList.length ≤ clock ∧
        s' = { s with positions := s.positions ++ closed.toList, clock := clock } := by
  unfold writeClosedLeg at h
  split at h
  · rename_i h_leg
    cases h
    exact ⟨by simp, by simp [h_leg], s.clock, by simp, by simp⟩
  · rename_i leg h_leg
    simp only [bind_eq_ok, pure_eq_ok, Prod.mk.injEq] at h
    obtain ⟨entryPrice, h_entry, currentPrice, h_current, rfl, rfl⟩ := h
    refine ⟨?_, by simp [h_leg], s.clock + 1, by simp, by simp⟩
    rintro row ⟨⟩
    exact ⟨leg, h_leg, ⟨rfl, rfl, rfl, h_entry, rfl, rfl⟩, rfl⟩

theorem writePosition_eq_ok {row : PositionRow} (h : writePosition args s = .ok (row, s')) :
    PositionWritten args s.clock s'.clock s.positions row s'.positions ∧
      ∃ clock, s.clock ≤ clock ∧ s' = { s with positions := s'.positions, clock := clock } := by
  simp only [writePosition, bind_eq_ok, refuseIf_eq_ok, not_lt] at h
  obtain ⟨size, h_size, entryPrice, h_entry, currentPrice, h_current, unrealizedPnl, h_pnl, _,
    h_nonneg, h⟩ := h
  split at h
  · rename_i old h_old
    simp only [pure_eq_ok, Prod.mk.injEq] at h
    obtain ⟨rfl, rfl⟩ := h
    have h_symbol : old.symbol = args.position.symbol := by
      have h_some := List.find?_some h_old
      simp only [PositionRow.isOpenFor, decide_eq_true_eq] at h_some
      exact h_some.1
    exact ⟨.updated h_old ⟨h_symbol, rfl, h_size, h_nonneg, h_entry, h_current, h_pnl, rfl, rfl⟩
      rfl rfl rfl le_rfl, s.clock, le_rfl, rfl⟩
  · rename_i h_none
    simp only [pure_eq_ok, Prod.mk.injEq] at h
    obtain ⟨rfl, rfl⟩ := h
    exact ⟨.inserted h_none ⟨rfl, rfl, h_size, h_nonneg, h_entry, h_current, h_pnl, rfl, rfl⟩
      rfl rfl rfl (Nat.lt_succ_self _), s.clock + 1, Nat.le_succ _, rfl⟩

theorem writeOrder_eq_ok {old new : OrderRow} (h : writeOrder args old s = .ok (new, s')) :
    OrderWritten args old new ∧ s' = replaceOrder new s := by
  simp only [writeOrder, bind_eq_ok, pure_eq_ok, refuseIf_eq_ok, Prod.mk.injEq, not_or,
    not_lt, not_not] at h
  obtain ⟨filled, h_filled, avgFillPrice, _, feeMinor, _, slippageMinor, _, _, h_allowed, _,
    h_bound, rfl, rfl⟩ := h
  exact ⟨⟨h_allowed, h_filled, h_bound, _, _, _, rfl⟩, rfl⟩

theorem writeTrade_eq_ok {row : Option TradeRow} (h : writeTrade args s = .ok (row, s')) :
    Option.Rel TradeWritten args.trade row ∧
      s' = { s with trades := s.trades ++ row.toList } := by
  unfold writeTrade at h
  split at h
  · rename_i h_trade
    cases h
    rw [h_trade]
    exact ⟨.none, by simp⟩
  · rename_i trade h_trade
    simp only [bind_eq_ok, pure_eq_ok, Prod.mk.injEq] at h
    obtain ⟨_, _, _, _, _, _, _, _, _, _, rfl, rfl⟩ := h
    rw [h_trade]
    exact ⟨.some ⟨rfl, rfl, rfl, rfl⟩, rfl⟩

theorem writeSnapshot_eq_ok {snapshot row : SnapshotRow}
    (h : writeSnapshot snapshot s = .ok (row, s')) :
    s' = { s with snapshots := s.snapshots ++ [row] } := by
  simp only [writeSnapshot, bind_eq_ok, pure_eq_ok, Prod.mk.injEq] at h
  obtain ⟨_, _, _, _, _, _, _, _, rfl, rfl⟩ := h
  rfl

structure Committed (args : AtomicFill) (s : Store) (commit : FillCommit) (s' : Store) : Prop where
  version : s.account.version = args.expectedAccountVersion
  order : ∃ old, (s.orders.find? fun order => order.id = args.orderId) = some old ∧
    old.orderState = args.expectedOrderState ∧ OrderWritten args old commit.order
  orders : s'.orders = s.orders.map fun old => if old.id = commit.order.id then commit.order else old
  fill_orderId : commit.fill.orderId = args.orderId
  fill_eventId : commit.fill.fillEventId = args.fillEventId
  fill : FillWritten args s commit.fill s'.fills
  account : AccountWritten args s.account commit.account
  account_eq : s'.account = commit.account
  movement : MovementWritten args commit.fill commit.balanceEvent
  balanceEvents : s'.balanceEvents = s.balanceEvents ++ [commit.balanceEvent]
  closedLeg : ∀ row ∈ commit.closedPosition, ∃ leg, args.closedLeg = some leg ∧
    ClosedLegRow args leg row ∧ s.clock ≤ row.id
  closedLeg_none : commit.closedPosition = none ↔ args.closedLeg = none
  position : ∃ clock, (∀ row ∈ commit.closedPosition, row.id < clock) ∧ s.clock ≤ clock ∧
    PositionWritten args clock s'.clock
      (s.positions ++ commit.closedPosition.toList) commit.position s'.positions
  trade : Option.Rel TradeWritten args.trade commit.trade
  trades : s'.trades = s.trades ++ commit.trade.toList
  snapshots : s'.snapshots = s.snapshots ++ [commit.snapshot]
  session : s'.session = s.session
  clock : s.clock < s'.clock

theorem applyFillAtomic_eq_ok {commit : FillCommit}
    (h : applyFillAtomic args s = .ok (commit, s')) : Committed args s commit s' := by
  simp only [applyFillAtomic, bind_eq_ok, pure_eq_ok, refuseIf_eq_ok, ofOption_eq_ok, not_not,
    Prod.exists, Prod.mk.injEq] at h
  obtain ⟨_, h_version, old, h_old, _, h_state, fill, s₁, h_fill, account, s₂, h_account, event,
    s₃, h_event, closed, s₄, h_closed, position, s₅, h_position, order, s₆, h_order, trade, s₇,
    h_trade, snapshot, s₈, h_snapshot, rfl, rfl⟩ := h
  obtain ⟨h_fill_row, h_fill_order, h_fill_event, clock₁, h_clock₁, h_s₁⟩ := writeFill_eq_ok h_fill
  obtain ⟨h_account_row, clock₂, h_clock₂, h_s₂⟩ := writeAccount_eq_ok h_account
  obtain ⟨h_movement, h_s₃⟩ := writeBalanceEvent_eq_ok h_event
  obtain ⟨h_leg, h_leg_none, clock₄, h_clock₄, h_s₄⟩ := writeClosedLeg_eq_ok h_closed
  obtain ⟨h_position_row, clock₅, h_clock₅, h_s₅⟩ := writePosition_eq_ok h_position
  obtain ⟨h_order_row, h_s₆⟩ := writeOrder_eq_ok h_order
  obtain ⟨h_trade_row, h_s₇⟩ := writeTrade_eq_ok h_trade
  have h_s₈ := writeSnapshot_eq_ok h_snapshot
  rw [h_s₁] at h_clock₂ h_account_row h_s₂
  rw [h_s₂] at h_s₃
  rw [h_s₃] at h_clock₄ h_s₄ h_leg
  rw [h_s₄] at h_clock₅ h_position_row h_s₅
  rw [h_s₅] at h_s₆
  rw [h_s₆, replaceOrder] at h_s₇
  rw [h_s₇] at h_s₈
  simp only at h_clock₂ h_clock₄ h_clock₅ h_position_row h_account_row h_leg
  have h_final : s₈.clock = clock₅ := by rw [h_s₈]
  have h_s₅_clock : s₅.clock = clock₅ := by rw [h_s₅]
  rw [h_s₅_clock] at h_position_row
  exact {
    version := h_version
    order := ⟨old, h_old, h_state, h_order_row⟩
    orders := by rw [h_s₈]
    fill_orderId := h_fill_order
    fill_eventId := h_fill_event
    fill := by rw [h_s₈]; exact h_fill_row
    account := h_account_row
    account_eq := by rw [h_s₈]
    movement := h_movement
    balanceEvents := by rw [h_s₈]
    closedLeg := by
      intro row h_row
      obtain ⟨leg, h_args, h_columns, h_id⟩ := h_leg row h_row
      exact ⟨leg, h_args, h_columns, by omega⟩
    closedLeg_none := h_leg_none
    position := by
      refine ⟨clock₄, ?_, by omega, by rw [h_s₈]; exact h_position_row⟩
      intro row h_row
      obtain ⟨_, _, _, h_id⟩ := h_leg row h_row
      have h_length : closed.toList.length = 1 := by
        have h_some : closed = some row := h_row
        rw [h_some]
        rfl
      omega
    trade := h_trade_row
    trades := by rw [h_s₈]
    snapshots := by rw [h_s₈]
    session := by rw [h_s₈]
    clock := by omega }

theorem Committed.version_succ {commit : FillCommit} (h : Committed args s commit s') :
    s'.account.version = s.account.version + 1 := by
  rw [h.account_eq]
  exact h.account.version

end VyomQuant.Paper
