/-
  VyomQuant.Paper.Simulator.ApplyFill

  `paper_simulator.apply_fill`, the single write path for every fill, as a program
  over the repository.

  One attempt reads the account with its version, the order, the order's fills (and
  the ledger when the event is already there), the session and the positions, decides
  the fill in memory (`prepareFill`), and issues one `paper_apply_fill_atomic`.  Every
  guard is evaluated before that call.  `applyFillAttempt_applied` is the inversion
  lemma of an attempt that applied a fill.
-/

import VyomQuant.Lib.Optimistic
import VyomQuant.Paper.Simulator.Pricing
import VyomQuant.Paper.Store.Repository

namespace VyomQuant.Paper

open Decimal Except Program
open Accounting (Instant OrderSide PositionSide AccountingError Invariant Account Book Position
  FillRequest FillResult ClosedTrade)

/-! ## The call and its outcome -/

/-- The arguments of `apply_fill` beside the session and its configuration. -/
structure FillCall where
  orderId : ℕ
  quantity : ℚ
  price : ℚ
  fillEventId : FillEventId
  filledAt : Instant
  reference : Option ℚ := none
  marketEventId : Option String := none
  releaseFromLocked : Option ℚ := none
  seriesIndex : ℤ := 0

structure AppliedFill where
  commit : FillCommit
  result : FillResult
  fillPrice : ℚ
  fee : ℚ
  slippage : ℚ
  filledQuantity : ℚ

/-- `FillOutcome`: `TERMINAL` and `DUPLICATE` carry the order unchanged. -/
inductive FillOutcome where
  | terminal (order : OrderRow)
  | duplicate (order : OrderRow)
  | applied (fill : AppliedFill)

/-- `FillOutcome.applied`. -/
def FillOutcome.isApplied : FillOutcome → Prop
  | .applied _ => True
  | _ => False

/-- `FillOutcome.order`. -/
def FillOutcome.order : FillOutcome → OrderRow
  | .terminal order => order
  | .duplicate order => order
  | .applied fill => fill.commit.order

/-- `FillOutcome.account`. -/
def FillOutcome.account : FillOutcome → Option AccountRow
  | .applied fill => some fill.commit.account
  | _ => none

/-- `FillOutcome.balance_event`. -/
def FillOutcome.balanceEvent : FillOutcome → Option BalanceEventRow
  | .applied fill => some fill.commit.balanceEvent
  | _ => none

/-! ## The figures of an order's fills -/

/-- The columns `_fill_event_totals` reads. -/
structure FillAmounts where
  quantity : ℚ
  price : ℚ
  feeMinor : ℤ
  slippageMinor : ℤ

def FillRow.amounts (fill : FillRow) : FillAmounts where
  quantity := fill.quantity
  price := fill.price
  feeMinor := fill.feeMinor
  slippageMinor := fill.slippageMinor

/-- The running totals of `_fill_event_totals`. -/
structure FillTotals where
  quantity : ℚ
  notional : ℚ
  feeMinor : ℤ
  slippageMinor : ℤ

/-- One round of `_fill_event_totals`. -/
def addFillAmounts (config : SessionConfig) (totals : FillTotals) (amounts : FillAmounts) :
    Except AccountingError FillTotals := do
  let qty ← config.accounting.qty amounts.quantity
  let price ← config.accounting.price amounts.price
  return {
    quantity := ambientContext.add totals.quantity qty
    notional := ambientContext.add totals.notional (ambientContext.mul qty price)
    feeMinor := totals.feeMinor + amounts.feeMinor
    slippageMinor := totals.slippageMinor + amounts.slippageMinor }

/-- `_fill_event_totals`. -/
def fillEventTotals (fills : List FillAmounts) (config : SessionConfig) :
    Except AccountingError FillTotals := do
  let totals ← fills.foldlM (addFillAmounts config) ⟨0, 0, 0, 0⟩
  let quantity ← config.accounting.qty totals.quantity
  return { totals with quantity }

/-- `_minor_units`: refused, not rounded, when it is not whole. -/
def minorUnits (amount : ℚ) (config : SessionConfig) : Except PaperError ℤ :=
  let scaled := ambientContext.round (amount * 10 ^ config.minorUnitExponent)
  if scaled.den = 1 then .ok scaled.num else .error .invalidOrderIntent

/-! ## The decision of a fill -/

/-- `admit_execution`: only a healthy feed is tradeable. -/
def admitExecution (session : SessionRow) : Except PaperError Unit :=
  refuseIf (session.feedState ≠ .healthy) .feedNotHealthy

/-- `_release_for_fill`: clamped to what is locked on the account. -/
def releaseForFill (order : OrderRow) (account : Account) (fillQty : ℚ) (config : SessionConfig)
    (releaseFromLocked : Option ℚ) : Except AccountingError ℚ :=
  match releaseFromLocked with
  | some release => do
    let explicit ← config.accounting.money release
    return if explicit < account.lockedBalance then explicit else account.lockedBalance
  | none =>
    match order.orderType, order.limitPrice with
    | .limit, some limit =>
      if limit ≤ 0 then
        .ok 0
      else do
        let needed ← Accounting.requiredFunds fillQty limit config.accounting
        return if needed < account.lockedBalance then needed else account.lockedBalance
    | _, _ => .ok 0

/-- The arithmetic of a fill with its closing assert; a breach names the invariant. -/
def engineFill (account : Account) (positions : Book) (request : FillRequest)
    (config : SessionConfig) : Except PaperError FillResult :=
  let outcome : Except AccountingError FillResult := do
    let result ← Accounting.applyFill account positions request config.accounting
    Accounting.assertInvariants result.account result.positions.items
      (Function.update (Accounting.lastValidatedPrices result.positions) request.symbol
        (some request.price)) config.accounting
    return result
  match outcome with
  | .ok result => .ok result
  | .error (.invariantViolation invariant) => .error (.invariantViolation invariant .applyFill)
  | .error e => .error (.accounting e)

/-- The closed leg a fill writes: the open position it meets, when the fill turns it
    to the other side. -/
def closedLegFor (positions : Book) (symbol : String) (newPosition : Position)
    (filledAt : Instant) : Option ClosedLegValues :=
  (Accounting.openPosition positions symbol).bind fun existing =>
    if existing.side = newPosition.side then none
    else some {
      side := existing.side
      entryPrice := existing.entryPrice
      openedAt := existing.openedAt.getD filledAt }

/-- The trade row of a closed round trip. -/
def tradeFor (closed : ClosedTrade) (filledAt : Instant) (config : SessionConfig) :
    Except PaperError TradeRow := do
  let feeMinor ← minorUnits closed.fee config
  return {
    symbol := closed.symbol, side := closed.side, quantity := closed.quantity
    entryPrice := closed.entryPrice, exitPrice := closed.exitPrice
    realizedPnl := closed.realizedPnl, feeMinor
    openedAt := closed.openedAt.getD filledAt, closedAt := closed.closedAt.getD filledAt }

def positionValuesFor (symbol : String) (position : Position) (filledAt : Instant) :
    PositionValues where
  symbol := symbol
  side := position.side
  size := position.size
  entryPrice := position.entryPrice
  openedAt := position.openedAt.getD filledAt
  currentPrice := position.currentPrice
  unrealizedPnl := position.unrealizedPnl
  priceAt := some filledAt
  closedAt := position.closedAt

/-- What an attempt knows of the order when it decides the fill: the rows it read,
    the totals of the order's other fills, and the state the fill leads to. -/
structure FillContext where
  account : AccountRow
  order : OrderRow
  otherFills : List FillRow
  resumeFillId : Option ℕ
  prior : FillTotals
  filledQuantity : ℚ
  target : OrderState

/-- A fill that has been decided and not yet written. -/
structure PreparedFill where
  args : AtomicFill
  result : FillResult
  fee : ℚ
  slippage : ℚ

/-- The request the accounting engine is given. -/
def fillRequestFor (call : FillCall) (order : OrderRow) (fillQty fillPrice fee release : ℚ) :
    FillRequest where
  symbol := order.symbol
  side := order.side
  quantity := fillQty
  price := fillPrice
  fee := fee
  filledAt := some call.filledAt
  releaseFromLocked := release

/-- Everything `apply_fill` computes between its last read and its one write. -/
def prepareFill (config : SessionConfig) (call : FillCall) (fillQty fillPrice : ℚ)
    (context : FillContext) (rows : List PositionRow) : Except PaperError PreparedFill := do
  let account := accountOf context.account
  let positions ← ofAccounting (positionsOf rows)
  let reference ← ofAccounting (config.accounting.price
    (call.reference.getD (context.order.referencePrice.getD fillPrice)))
  let fee ← ofAccounting (feeAmount fillQty fillPrice config)
  let slippage ← ofAccounting (slippageAmount fillQty fillPrice reference config)
  let release ← ofAccounting
    (releaseForFill context.order account fillQty config call.releaseFromLocked)
  let result ← engineFill account positions
    (fillRequestFor call context.order fillQty fillPrice fee release) config
  let feeMinor ← minorUnits fee config
  let slippageMinor ← minorUnits slippage config
  let totals ← ofAccounting (fillEventTotals (context.otherFills.map FillRow.amounts ++
    [⟨fillQty, fillPrice, feeMinor, slippageMinor⟩]) config)
  let trade ← result.closedTrade.mapM fun closed => tradeFor closed call.filledAt config
  let avgFillPrice ← ofAccounting
    (config.accounting.price (ambientContext.div totals.notional context.filledQuantity))
  return {
    result, fee, slippage
    args := {
      orderId := call.orderId
      fillEventId := call.fillEventId
      expectedAccountVersion := context.account.version
      expectedOrderState := context.order.orderState
      resumeFillId := context.resumeFillId
      fill := {
        quantity := fillQty, price := fillPrice, feeMinor, slippageMinor
        marketEventId := call.marketEventId, filledAt := call.filledAt }
      account := {
        availableBalance := result.account.availableBalance
        lockedBalance := result.account.lockedBalance
        realizedPnl := result.account.realizedPnl
        totalEquity := result.account.totalEquity }
      balanceEvent := {
        availableDelta := result.availableDelta
        lockedDelta := result.lockedDelta
        realizedDelta := result.realizedDelta
        occurredAt := call.filledAt }
      order := {
        targetState := context.target
        filledQuantity := context.filledQuantity
        avgFillPrice
        feeMinor := context.prior.feeMinor + feeMinor
        slippageMinor := context.prior.slippageMinor + slippageMinor }
      position := positionValuesFor context.order.symbol result.position call.filledAt
      closedLeg := closedLegFor positions context.order.symbol result.position call.filledAt
      trade
      equitySnapshot := {
        seriesIndex := call.seriesIndex
        totalEquity := result.account.totalEquity
        availableBalance := result.account.availableBalance
        lockedBalance := result.account.lockedBalance
        positionMarketValue := result.positionMarketValue
        stale := false
        cause := .fill
        takenAt := call.filledAt } } }

/-! ## The program -/

/-- What the fills of the order say about the event. -/
inductive EventStatus where
  | fresh
  | resumed (fill : FillRow)
  | settled

/-- Guard 2: an event already filled is settled when a ledger row carries its fill,
    and is resumed otherwise. -/
def eventStatus (call : FillCall) (fills : List FillRow) : Repo EventStatus := do
  match fills.find? fun fill => fill.fillEventId = call.fillEventId with
  | none => return .fresh
  | some fill =>
    let ledger ← issue (.getBalanceEvents .fill)
    if ledger.any fun event => event.fillId = some fill.id then return .settled
    else return .resumed fill

/-- Guards 3 and 4: the cumulative quantity stays within the order, and the state it
    leads to is a permitted transition. -/
def fillContext (config : SessionConfig) (fillQty : ℚ) (account : AccountRow) (order : OrderRow)
    (otherFills : List FillRow) (resumeFillId : Option ℕ) : Except PaperError FillContext := do
  let prior ← ofAccounting (fillEventTotals (otherFills.map FillRow.amounts) config)
  let ordered ← ofAccounting (config.accounting.qty order.quantity)
  let filledQuantity ←
    ofAccounting (config.accounting.qty (ambientContext.add prior.quantity fillQty))
  Except.refuseIf (ordered < filledQuantity) .overFill
  let target : OrderState := if filledQuantity = ordered then .filled else .partiallyFilled
  Except.refuseIf (¬ order.orderState.canTransition target)
    (.orderInvalid (.illegalTransition order.orderState target))
  return { account, order, otherFills, resumeFillId, prior, filledQuantity, target }

/-- The rest of an attempt once the event is known not to be settled. -/
def commitFill (config : SessionConfig) (call : FillCall) (fillQty fillPrice : ℚ)
    (account : AccountRow) (order : OrderRow) (otherFills : List FillRow)
    (resumeFillId : Option ℕ) : Repo FillOutcome := do
  let session ← issue .readSession
  lift (admitExecution session)
  let context ← lift (fillContext config fillQty account order otherFills resumeFillId)
  let rows ← issue (.getPositions true)
  let prepared ← lift (prepareFill config call fillQty fillPrice context rows)
  .call (.applyFillAtomic prepared.args) fun
    | .ok commit => .ret (.applied {
        commit, result := prepared.result, fillPrice, fee := prepared.fee
        slippage := prepared.slippage, filledQuantity := context.filledQuantity })
    -- A concurrent writer inserted this event first and owns the movement.
    | .error .duplicateFill => .ret (.duplicate order)
    | .error e => .raise e

/-- One attempt of `apply_fill`. -/
def applyFillAttempt (config : SessionConfig) (call : FillCall) (fillQty fillPrice : ℚ) :
    Repo FillOutcome := do
  let account ← issue .lockAccountForUpdate
  match ← issue (.readOrder call.orderId) with
  | none => .raise .invalidOrderIntent
  | some order =>
    if order.orderState.isTerminal then
      return .terminal order
    else do
      let fills ← issue (.getFills call.orderId)
      match ← eventStatus call fills with
      | .settled => return .duplicate order
      | .fresh => commitFill config call fillQty fillPrice account order fills none
      | .resumed fill =>
        commitFill config call fillQty fillPrice account order
          (fills.filter fun other => other.id ≠ fill.id) (some fill.id)

/-- The quantized quantity and price of a call, both positive. -/
def fillFigures (config : SessionConfig) (call : FillCall) : Except PaperError (ℚ × ℚ) := do
  let fillQty ← ofAccounting (config.accounting.qty call.quantity)
  let fillPrice ← ofAccounting (config.accounting.price call.price)
  Except.refuseIf (fillQty ≤ 0) .invalidOrderIntent
  Except.refuseIf (fillPrice ≤ 0) .invalidOrderIntent
  return (fillQty, fillPrice)

/-- `apply_fill`. -/
def applyFill (config : SessionConfig) (call : FillCall) : Repo FillOutcome :=
  match fillFigures config call with
  | .error e => .raise e
  | .ok (fillQty, fillPrice) =>
    withRetries .applyFill (applyFillAttempt config call fillQty fillPrice)

/-! ## Inversions -/

variable {config : SessionConfig} {call : FillCall} {fillQty fillPrice : ℚ}

theorem fillFigures_eq_ok :
    fillFigures config call = .ok (fillQty, fillPrice) ↔
      config.accounting.qty call.quantity = .ok fillQty ∧
      config.accounting.price call.price = .ok fillPrice ∧ 0 < fillQty ∧ 0 < fillPrice := by
  simp only [fillFigures, bind_eq_ok, pure_eq_ok, ofAccounting_eq_ok, Except.refuseIf_eq_ok,
    Prod.mk.injEq, not_le]
  constructor
  · rintro ⟨qty, h_qty, price, h_price, _, h_qty_pos, _, h_price_pos, rfl, rfl⟩
    exact ⟨h_qty, h_price, h_qty_pos, h_price_pos⟩
  · rintro ⟨h_qty, h_price, h_qty_pos, h_price_pos⟩
    exact ⟨fillQty, h_qty, fillPrice, h_price, (), h_qty_pos, (), h_price_pos, rfl, rfl⟩

theorem engineFill_eq_ok {account : Account} {positions : Book} {request : FillRequest}
    {result : FillResult} (h : engineFill account positions request config = .ok result) :
    Accounting.applyFill account positions request config.accounting = .ok result := by
  simp only [engineFill] at h
  split at h
  · rename_i result' h_outcome
    cases h
    simp only [bind_eq_ok, pure_eq_ok] at h_outcome
    obtain ⟨result'', h_result, _, _, rfl⟩ := h_outcome
    exact h_result
  · cases h
  · cases h

/-! ## An attempt is optimistic -/

/-- The version every fill is guarded by. -/
def accountVersion (s : Store) : ℕ := s.account.version

theorem applyFillAtomic_settles (args : AtomicFill)
    (next : Except PaperError FillCommit → Repo FillOutcome)
    (h_ok : ∀ commit, ∃ fill, next (.ok commit) = .ret (.applied fill))
    (h_error : ∀ e, (∃ e', next (.error e) = .raise e') ∨
      ∃ order, next (.error e) = .ret (.duplicate order)) (s : Store) :
    Optimistic.Settles handle accountVersion FillOutcome.isApplied args.expectedAccountVersion
      (.applyFillAtomic args) next s := by
  rcases handle_cases (.applyFillAtomic args) s with ⟨commit, s', h_ran, h_handle⟩ | ⟨e, _, h_handle⟩
  · have h_commit : Committed args s commit s' := applyFillAtomic_eq_ok h_ran
    obtain ⟨fill, h_next⟩ := h_ok commit
    refine Or.inl ⟨h_commit.version, ?_, .applied fill, trivial, by rw [h_handle]; exact h_next⟩
    rw [h_handle]
    show s.account.version < s'.account.version
    rw [h_commit.version_succ]
    omega
  · refine Or.inr ⟨by rw [h_handle], ?_⟩
    rw [h_handle]
    rcases h_error e with h_raise | ⟨order, h_ret⟩
    · exact Or.inl h_raise
    · exact Or.inr ⟨.duplicate order, fun h => h, h_ret⟩

/-- The record of a decided fill: what was computed, and what goes into the write. -/
structure FillDecision (config : SessionConfig) (call : FillCall) (fillQty fillPrice : ℚ)
    (context : FillContext) (rows : List PositionRow) (prepared : PreparedFill) where
  positions : Book
  release : ℚ
  positions_eq : positionsOf rows = .ok positions
  fee_eq : feeAmount fillQty fillPrice config = .ok prepared.fee
  release_eq : releaseForFill context.order (accountOf context.account) fillQty config
    call.releaseFromLocked = .ok release
  result_eq : engineFill (accountOf context.account) positions
    (fillRequestFor call context.order fillQty fillPrice prepared.fee release) config
    = .ok prepared.result
  trade_eq : (prepared.result.closedTrade.mapM fun closed => tradeFor closed call.filledAt config)
    = .ok prepared.args.trade
  orderId_eq : prepared.args.orderId = call.orderId
  event_eq : prepared.args.fillEventId = call.fillEventId
  version_eq : prepared.args.expectedAccountVersion = context.account.version
  state_eq : prepared.args.expectedOrderState = context.order.orderState
  resume_eq : prepared.args.resumeFillId = context.resumeFillId
  quantity_eq : prepared.args.fill.quantity = fillQty
  price_eq : prepared.args.fill.price = fillPrice
  filledAt_eq : prepared.args.fill.filledAt = call.filledAt
  available_eq : prepared.args.account.availableBalance = prepared.result.account.availableBalance
  locked_eq : prepared.args.account.lockedBalance = prepared.result.account.lockedBalance
  realized_eq : prepared.args.account.realizedPnl = prepared.result.account.realizedPnl
  movement_eq : prepared.args.balanceEvent = {
    availableDelta := prepared.result.availableDelta
    lockedDelta := prepared.result.lockedDelta
    realizedDelta := prepared.result.realizedDelta
    occurredAt := call.filledAt }
  target_eq : prepared.args.order.targetState = context.target
  filled_eq : prepared.args.order.filledQuantity = context.filledQuantity
  position_eq : prepared.args.position
    = positionValuesFor context.order.symbol prepared.result.position call.filledAt
  closedLeg_eq : prepared.args.closedLeg
    = closedLegFor positions context.order.symbol prepared.result.position call.filledAt

theorem prepareFill_eq_ok {context : FillContext} {rows : List PositionRow}
    {prepared : PreparedFill}
    (h : prepareFill config call fillQty fillPrice context rows = .ok prepared) :
    Nonempty (FillDecision config call fillQty fillPrice context rows prepared) := by
  simp only [prepareFill, bind_eq_ok, pure_eq_ok, ofAccounting_eq_ok] at h
  obtain ⟨positions, h_positions, reference, _, fee, h_fee, slippage, _, release, h_release,
    result, h_result, feeMinor, _, slippageMinor, _, totals, _, trade, h_trade, avgFillPrice, _,
    rfl⟩ := h
  exact ⟨{
    positions, release
    positions_eq := h_positions
    fee_eq := h_fee
    release_eq := h_release
    result_eq := h_result
    trade_eq := h_trade
    orderId_eq := rfl
    event_eq := rfl
    version_eq := rfl
    state_eq := rfl
    resume_eq := rfl
    quantity_eq := rfl
    price_eq := rfl
    filledAt_eq := rfl
    available_eq := rfl
    locked_eq := rfl
    realized_eq := rfl
    movement_eq := rfl
    target_eq := rfl
    filled_eq := rfl
    position_eq := rfl
    closedLeg_eq := rfl }⟩

/-- The record of the guards an attempt has passed. -/
structure GuardsPassed (config : SessionConfig) (fillQty : ℚ) (account : AccountRow)
    (order : OrderRow) (otherFills : List FillRow) (resumeFillId : Option ℕ)
    (context : FillContext) : Prop where
  account_eq : context.account = account
  order_eq : context.order = order
  resume_eq : context.resumeFillId = resumeFillId
  prior_eq : fillEventTotals (otherFills.map FillRow.amounts) config = .ok context.prior
  filled_eq : config.accounting.qty (ambientContext.add context.prior.quantity fillQty)
    = .ok context.filledQuantity
  ordered : ∃ ordered, config.accounting.qty order.quantity = .ok ordered ∧
    context.filledQuantity ≤ ordered ∧
    context.target = if context.filledQuantity = ordered then .filled else .partiallyFilled
  allowed : order.orderState.canTransition context.target

variable {account : AccountRow} {order : OrderRow} {otherFills : List FillRow}
   {resumeFillId : Option ℕ}

theorem fillContext_eq_ok {context : FillContext}
    (h : fillContext config fillQty account order otherFills resumeFillId = .ok context) :
    GuardsPassed config fillQty account order otherFills resumeFillId context := by
  simp only [fillContext, bind_eq_ok, pure_eq_ok, Except.refuseIf_eq_ok, ofAccounting_eq_ok,
    not_lt, not_not] at h
  obtain ⟨prior, h_prior, ordered, h_ordered, filled, h_filled, _, h_le, _, h_allowed, rfl⟩ := h
  exact ⟨rfl, rfl, rfl, h_prior, h_filled, ⟨ordered, h_ordered, h_le, rfl⟩, h_allowed⟩

theorem commitFill_guarded (config : SessionConfig) (call : FillCall) (fillQty fillPrice : ℚ)
    (account : AccountRow) (order : OrderRow) (otherFills : List FillRow)
    (resumeFillId : Option ℕ) :
    Optimistic.Guarded handle accountVersion FillOutcome.isApplied account.version
      (commitFill config call fillQty fillPrice account order otherFills resumeFillId) := by
  apply Optimistic.Guarded.perform_bind (handle_of_isRead rfl)
  intro session
  apply Optimistic.Guarded.lift_bind
  intro _ _
  apply Optimistic.Guarded.lift_bind
  intro context h_context
  apply Optimistic.Guarded.perform_bind (handle_of_isRead rfl)
  intro rows
  apply Optimistic.Guarded.lift_bind
  intro prepared h_prepared
  apply Optimistic.Guarded.commit
  intro s
  obtain ⟨decision⟩ := prepareFill_eq_ok h_prepared
  rw [← (fillContext_eq_ok h_context).account_eq, ← decision.version_eq]
  apply applyFillAtomic_settles
  · intro commit
    exact ⟨_, rfl⟩
  · intro e
    cases e with
    | duplicateFill => exact Or.inr ⟨order, rfl⟩
    | _ => exact Or.inl ⟨_, rfl⟩

theorem eventStatus_guarded {v : ℕ} {fills : List FillRow} {next : EventStatus → Repo FillOutcome}
    (h : ∀ status, Optimistic.Guarded handle accountVersion FillOutcome.isApplied v (next status)) :
    Optimistic.Guarded handle accountVersion FillOutcome.isApplied v
      ((eventStatus call fills).bind next) := by
  unfold eventStatus
  split
  · exact h .fresh
  · rename_i fill _
    apply Optimistic.Guarded.read (handle_of_isRead rfl)
    intro answer
    cases answer with
    | error e => exact .raise
    | ok ledger =>
      show Optimistic.Guarded _ _ _ v (Program.bind (if _ then _ else _) next)
      split
      · exact h .settled
      · exact h (.resumed fill)

/-- An attempt of `apply_fill` reads, and then issues at most one write, guarded by
    the account version it read. -/
theorem applyFillAttempt_attempt (config : SessionConfig) (call : FillCall)
    (fillQty fillPrice : ℚ) :
    Optimistic.Attempt handle accountVersion FillOutcome.isApplied
      (applyFillAttempt config call fillQty fillPrice) := by
  refine ⟨.lockAccountForUpdate, _, rfl, handle_of_isRead rfl, ?_⟩
  intro s
  show Optimistic.Guarded _ _ _ s.account.version _
  apply Optimistic.Guarded.perform_bind (handle_of_isRead rfl)
  intro found
  cases found with
  | none => exact .raise
  | some order =>
    show Optimistic.Guarded _ _ _ s.account.version (if _ then _ else _)
    split
    · exact .ret fun h => h
    · apply Optimistic.Guarded.perform_bind (handle_of_isRead rfl)
      intro fills
      apply eventStatus_guarded
      intro status
      cases status with
      | settled => exact .ret fun h => h
      | fresh => exact commitFill_guarded ..
      | resumed fill => exact commitFill_guarded ..

/-! ## What an applied fill did -/

/-- The fills an attempt counts beside its own, and the fill row it resumes. -/
inductive EventResolved (call : FillCall) (s : Store) : List FillRow → Option ℕ → Prop
  | fresh {fills : List FillRow} (h_perm : fills.Perm (s.fills.filter fun fill =>
        fill.orderId = call.orderId))
      (h_fresh : ∀ fill ∈ fills, fill.fillEventId ≠ call.fillEventId) :
      EventResolved call s fills none
  | resumed {fills : List FillRow} {fill : FillRow} (h_perm : fills.Perm (s.fills.filter fun fill =>
        fill.orderId = call.orderId))
      (h_mem : fill ∈ fills) (h_event : fill.fillEventId = call.fillEventId)
      (h_orphan : ∀ event ∈ s.balanceEvents, event.cause = .fill → event.fillId ≠ some fill.id) :
      EventResolved call s (fills.filter fun other => other.id ≠ fill.id) (some fill.id)

/-- The record of an attempt that applied a fill. -/
structure FillRun (config : SessionConfig) (call : FillCall) (fillQty fillPrice : ℚ) (s : Store)
    (fill : AppliedFill) (s' : Store) where
  order : OrderRow
  otherFills : List FillRow
  resumeFillId : Option ℕ
  context : FillContext
  rows : List PositionRow
  prepared : PreparedFill
  order_eq : (s.orders.find? fun order => order.id = call.orderId) = some order
  not_terminal : order.orderState.isTerminal = false
  event : EventResolved call s otherFills resumeFillId
  healthy : s.session.feedState = .healthy
  context_eq : fillContext config fillQty s.account order otherFills resumeFillId = .ok context
  rows_eq : rows = s.positions.insertionSort fun a b => b.openedAt ≤ a.openedAt
  prepared_eq : prepareFill config call fillQty fillPrice context rows = .ok prepared
  committed : applyFillAtomic prepared.args s = .ok (fill.commit, s')
  result_eq : fill.result = prepared.result

variable {s s' : Store} {fill : AppliedFill}

theorem commitFill_applied
    (h : (commitFill config call fillQty fillPrice account order otherFills resumeFillId).run handle s = (.ok (.applied fill), s')) :
    s.session.feedState = .healthy ∧
      ∃ context prepared,
        fillContext config fillQty account order otherFills resumeFillId = .ok context ∧
        prepareFill config call fillQty fillPrice context
          (s.positions.insertionSort fun a b => b.openedAt ≤ a.openedAt) = .ok prepared ∧
        applyFillAtomic prepared.args s = .ok (fill.commit, s') ∧
        fill.result = prepared.result := by
  simp only [commitFill, bind_eq_bind, run_bind_eq_ok, run_lift_eq_ok] at h
  obtain ⟨session, s₁, h_session, _, s₂, ⟨h_feed, rfl⟩, context, s₃, ⟨h_context, rfl⟩, rows, s₄,
    h_rows, prepared, s₅, ⟨h_prepared, rfl⟩, h⟩ := h
  cases run_issue_eq_ok.mp h_session
  cases run_issue_eq_ok.mp h_rows
  rw [admitExecution, Except.refuseIf_eq_ok, not_not] at h_feed
  refine ⟨h_feed, context, prepared, h_context, by simpa using h_prepared, ?_⟩
  rw [run_call] at h
  rcases handle_cases (.applyFillAtomic prepared.args) s with
    ⟨commit, s'', h_ran, h_handle⟩ | ⟨e, _, h_handle⟩
  · rw [h_handle] at h
    cases h
    exact ⟨h_ran, rfl⟩
  · rw [h_handle] at h
    cases e <;> cases h

theorem commitFill_unapplied {outcome : FillOutcome}
    (h : (commitFill config call fillQty fillPrice account order otherFills resumeFillId).run handle s = (.ok outcome, s'))
    (h_not : ¬ outcome.isApplied) : some order = some outcome.order := by
  simp only [commitFill, bind_eq_bind, run_bind_eq_ok, run_lift_eq_ok] at h
  obtain ⟨_, s₁, _, _, s₂, _, _, s₃, _, _, s₄, _, prepared, s₅, _, h⟩ := h
  rw [run_call] at h
  rcases handle_cases (.applyFillAtomic prepared.args) s₅ with
    ⟨commit, s'', _, h_handle⟩ | ⟨e, _, h_handle⟩
  · rw [h_handle] at h
    cases h
    exact absurd trivial h_not
  · rw [h_handle] at h
    cases e <;> cases h
    rfl

theorem applyFillAttempt_applied
    (h : (applyFillAttempt config call fillQty fillPrice).run handle s = (.ok (.applied fill), s')) :
    Nonempty (FillRun config call fillQty fillPrice s fill s') := by
  simp only [applyFillAttempt, bind_eq_bind, run_bind_eq_ok] at h
  obtain ⟨account, s₁, h_account, found, s₂, h_found, h⟩ := h
  cases run_issue_eq_ok.mp h_account
  cases run_issue_eq_ok.mp h_found
  cases h_order : s.orders.find? fun order => order.id = call.orderId with
  | none =>
    rw [h_order] at h
    cases h
  | some order =>
    rw [h_order] at h
    simp only at h
    split at h
    · cases h
    · rename_i h_terminal
      simp only [eventStatus, bind_eq_bind, run_bind_eq_ok] at h
      obtain ⟨fills, s₃, h_fills, status, s₄, h_status, h⟩ := h
      cases run_issue_eq_ok.mp h_fills
      have h_perm := List.perm_insertionSort (fun a b : FillRow => b.filledAt ≤ a.filledAt)
        (s.fills.filter fun fill => fill.orderId = call.orderId)
      split at h_status
      · rename_i h_none
        cases h_status
        obtain ⟨h_healthy, context, prepared, h_context, h_prepared, h_commit, h_result⟩ :=
          commitFill_applied h
        refine ⟨⟨order, _, none, context, _, prepared, h_order, by simpa using h_terminal,
          .fresh h_perm ?_, h_healthy, h_context, rfl, h_prepared, h_commit, h_result⟩⟩
        intro other h_other h_event
        exact absurd h_event (by simpa using List.find?_eq_none.mp h_none other h_other)
      · rename_i prior h_prior
        rw [run_bind_eq_ok] at h_status
        obtain ⟨ledger, s₅, h_ledger, h_status⟩ := h_status
        cases run_issue_eq_ok.mp h_ledger
        split at h_status
        · cases h_status
          cases h
        · rename_i h_orphan
          cases h_status
          obtain ⟨h_healthy, context, prepared, h_context, h_prepared, h_commit, h_result⟩ :=
            commitFill_applied h
          refine ⟨⟨order, _, some prior.id, context, _, prepared, h_order,
            by simpa using h_terminal, .resumed h_perm (List.mem_of_find?_eq_some h_prior)
              (by simpa using List.find?_some h_prior) ?_, h_healthy, h_context, rfl, h_prepared,
            h_commit, h_result⟩⟩
          intro event h_event h_cause h_id
          refine h_orphan (List.any_eq_true.mpr ⟨event, ?_, by simpa using h_id⟩)
          exact (List.perm_insertionSort _ _).mem_iff.mpr
            (List.mem_filter.mpr ⟨h_event, by simpa using h_cause⟩)

/-- What a call of `apply_fill` that applied a fill did. -/
theorem applyFill_applied (h : (applyFill config call).run handle s = (.ok (.applied fill), s')) :
    ∃ fillQty fillPrice, fillFigures config call = .ok (fillQty, fillPrice) ∧
      Nonempty (FillRun config call fillQty fillPrice s fill s') := by
  unfold applyFill at h
  split at h
  · cases h
  · rename_i fillQty fillPrice h_figures
    exact ⟨fillQty, fillPrice, h_figures, applyFillAttempt_applied
      ((applyFillAttempt_attempt config call fillQty fillPrice).run_of_retrying h)⟩

/-! ## A call under failures -/

/-- The failures that may be run again. -/
def Retryable (e : PaperError) : Prop := isRetryable e = true

theorem commitFill_givesUp (config : SessionConfig) (call : FillCall) (fillQty fillPrice : ℚ)
    (account : AccountRow) (order : OrderRow) (otherFills : List FillRow)
    (resumeFillId : Option ℕ) : GivesUp Retryable
      (commitFill config call fillQty fillPrice account order otherFills resumeFillId) := by
  refine (GivesUp.perform _).bind fun session => ?_
  refine (GivesUp.lift _).bind fun _ => ?_
  refine (GivesUp.lift _).bind fun context => ?_
  refine (GivesUp.perform _).bind fun rows => ?_
  refine (GivesUp.lift _).bind fun prepared => ?_
  refine .call (fun e h_e => ?_) fun answer => ?_
  · -- Only a duplicate is handled, and it is not run again.
    cases e <;> first | rfl | cases h_e
  · cases answer with
    | ok commit => exact .ret _
    | error e => cases e <;> first | exact .ret _ | exact .raise _

theorem applyFillAttempt_givesUp (config : SessionConfig) (call : FillCall)
    (fillQty fillPrice : ℚ) :
    GivesUp Retryable (applyFillAttempt config call fillQty fillPrice) := by
  refine (GivesUp.perform _).bind fun account => (GivesUp.perform _).bind fun found => ?_
  cases found with
  | none => exact .raise _
  | some order =>
    show GivesUp Retryable (if _ then _ else _)
    split
    · exact .ret _
    · refine (GivesUp.perform _).bind fun fills => GivesUp.bind ?_ fun status => ?_
      · unfold eventStatus
        split
        · exact .ret _
        · refine (GivesUp.perform _).bind fun ledger => ?_
          split
          · exact .ret _
          · exact .ret _
      · cases status with
        | settled => exact .ret _
        | fresh => exact commitFill_givesUp ..
        | resumed fill => exact commitFill_givesUp ..

/-- Whatever statements of `apply_fill` fail, it ends as one of its attempts does alone,
    or has changed nothing. -/
theorem applyFill_ensures (config : SessionConfig) (call : FillCall) (s : Store) :
    (applyFill config call).Ensures handle Retryable
      (fun outcome s' => ∃ fillQty fillPrice, fillFigures config call = .ok (fillQty, fillPrice) ∧
        (applyFillAttempt config call fillQty fillPrice).run handle s = (.ok outcome, s'))
      (fun _ s' => s' = s) s := by
  unfold applyFill
  split
  · rfl
  · rename_i fillQty fillPrice h_figures
    refine ((applyFillAttempt_attempt config call fillQty fillPrice).ensures_retrying
      (applyFillAttempt_givesUp config call fillQty fillPrice) _ s).mono (fun outcome s' h => ?_)
      fun _ _ h => h
    exact ⟨fillQty, fillPrice, h_figures, h⟩

/-- What an attempt returned that applied nothing: the order it read, unchanged. -/
theorem applyFillAttempt_unapplied {outcome : FillOutcome}
    (h : (applyFillAttempt config call fillQty fillPrice).run handle s = (.ok outcome, s'))
    (h_not : ¬ outcome.isApplied) :
    s' = s ∧ (s.orders.find? fun order => order.id = call.orderId) = some outcome.order := by
  have h_same : s' = s := by
    rcases (applyFillAttempt_attempt config call fillQty fillPrice).run_cases s with
      ⟨_, _, h_run, h_applied, _⟩ | ⟨h_same, _⟩
    · rw [h] at h_run
      cases h_run
      exact absurd h_applied h_not
    · rw [h] at h_same
      exact h_same
  refine ⟨h_same, ?_⟩
  simp only [applyFillAttempt, bind_eq_bind, run_bind_eq_ok] at h
  obtain ⟨account, s₁, h_account, found, s₂, h_found, h⟩ := h
  cases run_issue_eq_ok.mp h_account
  cases run_issue_eq_ok.mp h_found
  cases h_order : s.orders.find? fun order => order.id = call.orderId with
  | none =>
    rw [h_order] at h
    cases h
  | some order =>
    rw [h_order] at h
    simp only at h
    split at h
    · cases h
      rfl
    · simp only [run_bind_eq_ok] at h
      obtain ⟨fills, s₃, _, status, s₄, _, h⟩ := h
      cases status with
      | settled =>
        cases h
        rfl
      | fresh => exact commitFill_unapplied h h_not
      | resumed fill => exact commitFill_unapplied h h_not

end VyomQuant.Paper
