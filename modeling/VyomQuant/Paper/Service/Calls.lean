/-
  VyomQuant.Paper.Service.Calls

  The default account's service (`paper_trading_service.py`), statement by statement:
  `place_order`, `cancel_order`, `check_limit_orders` and `reset_account`.

  A call is where it stands: one constructor for each statement that it is about to issue,
  with what it has read and worked out so far.  Its step issues the statement, computes up
  to the next one, and is the one thing that is atomic.  A `System` is a store and its
  calls; a process that crashes is a call that is not stepped again.
-/

import VyomQuant.Paper.Service.Statements

namespace VyomQuant.Paper.Service

open Except
open Accounting (AccountingConfig AccountingError Account Book Position OrderSide Instant FillResult
  ClosedTrade)

/-- A statement: where the call stands after it, and the store. -/
def issue {β κ : Type} (s : Store) (result : Except PaperError (β × Store)) (next : β → κ)
    (failed : PaperError → κ) : κ × Store :=
  match result with
  | .ok (answer, s') => (next answer, s')
  | .error e => (failed e, s)

/-! ## `_attempt_fill` -/

/-- The arguments of `_execute_fill`. -/
structure FillJob where
  order : OrderRow
  quantity : ℚ
  price : ℚ
  releaseFromLocked : ℚ

/-- What an attempt has read and worked out before its first write. -/
structure FillPlan where
  account : AccountRow
  figures : Figures
  existing : Option Position
  result : FillResult
  filledAt : Instant

/-- The statement that an attempt is about to issue. -/
inductive FillPhase where
  | readAccount
  | readPositions (account : AccountRow)
  | unmoved (plan : FillPlan)
  | lookup (plan : FillPlan)
  | ledger (plan : FillPlan) (existing : FillRow)
  | insert (plan : FillPlan)
  | money (plan : FillPlan) (fill : FillRow)
  | event (plan : FillPlan) (fill : FillRow)
  | closingRead (plan : FillPlan) (fill : FillRow) (existing : Position)
  | closingWrite (plan : FillPlan) (fill : FillRow) (existing : Position) (current : Option PositionRow)
  | positionRead (plan : FillPlan) (fill : FillRow)
  | positionWrite (plan : FillPlan) (fill : FillRow) (current : Option PositionRow)
  | trade (plan : FillPlan) (fill : FillRow) (closed : ClosedTrade)
  | finish (plan : FillPlan) (fill : FillRow)
  | reread
  | rereadFills (order : OrderRow)

/-- What becomes of an attempt. -/
inductive FillStep where
  | next (phase : FillPhase)
  | filled (order : OrderRow) (fill : FillRow)
  | settled (order : OrderRow) (fills : List FillRow)
  | failed (e : PaperError)

variable (config : AccountingConfig)

/-- The arithmetic of an attempt; a release never exceeds what is locked. -/
def planOf (job : FillJob) (account : AccountRow) (rows : List PositionRow) (filledAt : Instant) :
    Except PaperError FillPlan := do
  let positions ← ofAccounting (positionsOfRows rows)
  let figures ← ofAccounting (figuresOf config job.order.side job.quantity job.price)
  let asked ← ofAccounting (config.money job.releaseFromLocked)
  let result ← ofAccounting (planFill config (accountOf account) positions job.order.symbol
    job.order.side figures (min asked account.lockedBalance) filledAt)
  return {
    account, figures, existing := positions.get? job.order.symbol, result, filledAt }

/-- The open position that a fill turns to the other side. -/
def FillPlan.reversed (plan : FillPlan) : Option Position :=
  plan.existing.filter fun existing => existing.isOpen ∧ existing.side ≠ plan.result.position.side

/-- The row of `paper_fills`. -/
def FillPlan.fillValues (plan : FillPlan) : Except PaperError FillValues := do
  let feeMinor ← minor config plan.figures.fee
  let slippageMinor ← minor config plan.figures.slippageCost
  return {
    quantity := plan.figures.quantity, price := plan.figures.price, feeMinor, slippageMinor
    marketEventId := none, filledAt := plan.filledAt }

/-- The columns of `paper_accounts`. -/
def FillPlan.payload (plan : FillPlan) : AccountUpdate where
  availableBalance := some plan.result.account.availableBalance
  lockedBalance := some plan.result.account.lockedBalance
  realizedPnl := some plan.result.account.realizedPnl
  totalEquity := some plan.result.account.totalEquity
  lastPriceAt := some (some plan.filledAt)
  stale := some false

/-- The ledger row, which carries the fill. -/
def FillPlan.event (plan : FillPlan) (fill : FillRow) : BalanceEventRow where
  cause := .fill
  availableDelta := plan.result.availableDelta
  lockedDelta := plan.result.lockedDelta
  realizedDelta := plan.result.realizedDelta
  availableAfter := plan.result.account.availableBalance
  lockedAfter := plan.result.account.lockedBalance
  realizedAfter := plan.result.account.realizedPnl
  fillId := some fill.id
  occurredAt := plan.filledAt

/-- The old side of a reversal, closed. -/
def FillPlan.closingValues (plan : FillPlan) (symbol : String) (existing : Position) :
    PositionValues where
  symbol := symbol
  side := existing.side
  size := 0
  entryPrice := existing.entryPrice
  openedAt := existing.openedAt.getD plan.filledAt
  currentPrice := some plan.figures.price
  unrealizedPnl := some 0
  priceAt := some plan.filledAt
  closedAt := some plan.filledAt

def FillPlan.positionValues (plan : FillPlan) (symbol : String) : PositionValues where
  symbol := symbol
  side := plan.result.position.side
  size := plan.result.position.size
  entryPrice := plan.result.position.entryPrice
  openedAt := plan.result.position.openedAt.getD plan.filledAt
  currentPrice := plan.result.position.currentPrice
  unrealizedPnl := plan.result.position.unrealizedPnl
  priceAt := some plan.filledAt
  closedAt := plan.result.position.closedAt

/-- The closed round trip. -/
def FillPlan.tradeRow (plan : FillPlan) (closed : ClosedTrade) : Except PaperError TradeRow := do
  let feeMinor ← minor config closed.fee
  return {
    symbol := closed.symbol, side := closed.side, quantity := closed.quantity
    entryPrice := closed.entryPrice, exitPrice := closed.exitPrice
    realizedPnl := closed.realizedPnl, feeMinor
    openedAt := closed.openedAt.getD plan.filledAt, closedAt := closed.closedAt.getD plan.filledAt }

def FillPlan.orderValues (plan : FillPlan) : Except PaperError OrderValues := do
  let feeMinor ← minor config plan.figures.fee
  let slippageMinor ← minor config plan.figures.slippageCost
  return {
    targetState := .filled, filledQuantity := plan.figures.quantity
    avgFillPrice := plan.figures.price, feeMinor, slippageMinor }

/-- Behind the ledger row: the old side of a reversal, or the resulting position. -/
def FillPlan.afterEvent (plan : FillPlan) (fill : FillRow) : FillPhase :=
  match plan.reversed with
  | some existing => .closingRead plan fill existing
  | none => .positionRead plan fill

/-- Behind the position: the trade of a closed round trip, or the order. -/
def FillPlan.afterPosition (plan : FillPlan) (fill : FillRow) : FillPhase :=
  match plan.result.closedTrade with
  | some closed => .trade plan fill closed
  | none => .finish plan fill

/-- One statement of `_attempt_fill`. -/
def FillPhase.step (job : FillJob) (attempt : ℕ) (s : Store) : FillPhase → FillStep × Store
  | .readAccount => (.next (.readPositions s.account), s)
  | .readPositions account =>
    match planOf config job account (positionRows true s) s.clock with
    | .ok plan => (.next (.unmoved plan), s)
    | .error e => (.failed e, s)
  | .unmoved plan =>
    if s.account.version ≠ plan.account.version then (.failed .concurrencyConflict, s)
    else if attempt ≤ 1 then (.next (.insert plan), s)
    else (.next (.lookup plan), s)
  | .lookup plan =>
    match (fillsOf job.order.id s).find? fun fill => fill.fillEventId = fillEventId job.order.id with
    | none => (.next (.insert plan), s)
    | some existing => (.next (.ledger plan existing), s)
  | .ledger plan existing =>
    if ∃ event ∈ fillEvents s, event.fillId = some existing.id then (.next .reread, s)
    else (.next (.money plan existing), s)
  | .insert plan =>
    issue s (do insertFillRow job.order.id (← plan.fillValues config) s)
      (fun fill => .next (.money plan fill)) .failed
  | .money plan fill =>
    issue s (bumpVersionRow plan.account.version plan.payload s)
      (fun _ => .next (.event plan fill)) .failed
  | .event plan fill =>
    issue s (insertBalanceEventRow (plan.event fill) s) (fun _ => .next (plan.afterEvent fill)) .failed
  | .closingRead plan fill existing =>
    (.next (.closingWrite plan fill existing (findOpenPosition job.order.symbol s.positions)), s)
  | .closingWrite plan fill existing current =>
    issue s (writePositionRow current (plan.closingValues job.order.symbol existing) s)
      (fun _ => .next (.positionRead plan fill)) .failed
  | .positionRead plan fill =>
    (.next (.positionWrite plan fill (findOpenPosition job.order.symbol s.positions)), s)
  | .positionWrite plan fill current =>
    issue s (writePositionRow current (plan.positionValues job.order.symbol) s)
      (fun _ => .next (plan.afterPosition fill)) .failed
  | .trade plan fill closed =>
    issue s (do insertTradeRow (← plan.tradeRow config closed) s)
      (fun _ => .next (.finish plan fill)) .failed
  | .finish plan fill =>
    issue s (do fillOrderRow job.order.id job.order.orderState (← plan.orderValues config) s)
      (fun order => .filled order fill) .failed
  | .reread => (.next (.rereadFills ((orderById job.order.id s).getD job.order)), s)
  | .rereadFills order => (.settled order (fillsOf job.order.id s), s)

/-! ## `_execute_fill` -/

/-- `FILL_ATTEMPTS`. -/
def fillAttempts : ℕ := 3

structure Filling where
  job : FillJob
  attempt : ℕ
  phase : FillPhase

def Filling.start (job : FillJob) : Filling := { job, attempt := 1, phase := .readAccount }

inductive FillingStep where
  | next (filling : Filling)
  | filled (order : OrderRow) (fill : FillRow)
  | settled (order : OrderRow) (fills : List FillRow)
  | failed (e : PaperError)

/-- One statement of `_execute_fill`: a conflict begins the next attempt, if there is one. -/
def Filling.step (filling : Filling) (s : Store) : FillingStep × Store :=
  match filling.phase.step config filling.job filling.attempt s with
  | (.next phase, s') => (.next { filling with phase }, s')
  | (.filled order fill, s') => (.filled order fill, s')
  | (.settled order fills, s') => (.settled order fills, s')
  | (.failed e, s') =>
    if e = .concurrencyConflict ∧ filling.attempt < fillAttempts then
      (.next { filling with attempt := filling.attempt + 1, phase := .readAccount }, s')
    else (.failed e, s')

/-! ## `place_order` -/

/-- The arguments of `place_order`, with what the risk gates say of the account and the open
    positions that the call read, and the quote that it measures. -/
structure Request where
  symbol : String
  side : OrderSide
  orderType : Paper.OrderType
  quantity : ℚ
  price : Option ℚ
  idempotencyKey : Option String
  gates : AccountRow → List PositionRow → Except PaperError Unit
  measured : Option ℚ

/-- `exec_price`: the measured quote of a market order, the limit of a limit order. -/
def Request.execPrice (request : Request) : Except PaperError ℚ :=
  match request.orderType with
  | .market => do
    let measured ← ofOption .feedNotHealthy request.measured
    refuseIf (measured ≤ 0) .feedNotHealthy
    ofAccounting (config.price measured)
  | .limit => do
    let price ← ofOption .valueError request.price
    refuseIf (price ≤ 0) .valueError
    ofAccounting (config.price price)

/-- The row that a request inserts at its price. -/
def Request.newOrder (request : Request) (price : ℚ) : NewOrder where
  symbol := request.symbol
  side := request.side
  orderType := request.orderType
  quantity := request.quantity
  limitPrice := if request.orderType = .limit then some price else none
  referencePrice := some price
  idempotencyKey := request.idempotencyKey
  signalId := none
  fingerprint := {
    symbol := request.symbol, side := .recognised request.side
    orderType := .recognised request.orderType, quantity := request.quantity
    limitPrice := some price, timeInForce := "" }

/-- How a `place_order` ended: with an order that was recorded under its key, with its own
    order resting, filled, found settled, or refused for want of funds, or by raising. -/
inductive PlaceEnd where
  | recorded (order : OrderRow) (fills : List FillRow)
  | resting (order : OrderRow)
  | filled (order : OrderRow) (fill : FillRow)
  | settled (order : OrderRow) (fills : List FillRow)
  | insufficientFunds (order : OrderRow)
  | raised (e : PaperError)

/-- The statement that a `place_order` is about to issue. -/
inductive PlacePhase where
  | readAccount
  | readPositions (account : AccountRow)
  | probe (account : AccountRow) (rows : List PositionRow)
  | insert (available price : ℚ)
  | reprobe
  | answer (recorded : OrderRow)
  | lockRead (order : OrderRow) (price cost : ℚ)
  | lockMoney (order : OrderRow) (price : ℚ) (before : AccountRow) (locked : Account)
      (occurredAt : Instant)
  | lockEvent (order : OrderRow) (price : ℚ) (before : AccountRow) (locked : Account)
      (occurredAt : Instant)
  | accept (order : OrderRow) (price : ℚ)
  | reject (order : OrderRow)
  | filling (filling : Filling)
  | ended (ending : PlaceEnd)

/-- The ledger row of a lock or an unlock. -/
def transferEvent (cause : BalanceEventCause) (before after : Account) (occurredAt : Instant) :
    BalanceEventRow where
  cause := cause
  availableDelta := ambientContext.sub after.availableBalance before.availableBalance
  lockedDelta := ambientContext.sub after.lockedBalance before.lockedBalance
  realizedDelta := 0
  availableAfter := after.availableBalance
  lockedAfter := after.lockedBalance
  realizedAfter := after.realizedPnl
  fillId := none
  occurredAt := occurredAt

/-- The account columns of a lock or an unlock. -/
def transferPayload (before : AccountRow) (after : Account) : AccountUpdate where
  availableBalance := some after.availableBalance
  lockedBalance := some after.lockedBalance
  totalEquity := some before.totalEquity

/-- The gates, the price, and the check of a limit buy against the balance that was read. -/
def Request.admission (request : Request) (account : AccountRow) (rows : List PositionRow) :
    PlacePhase :=
  let admitted : Except PaperError ℚ := do
    request.gates account rows
    let price ← request.execPrice config
    if request.orderType = .limit then
      let cost ← ofAccounting (reservation config request.quantity price)
      refuseIf (request.side = .buy ∧ account.availableBalance < cost) .valueError
    return price
  match admitted with
  | .ok price => .insert account.availableBalance price
  | .error e => .ended (.raised e)

/-- Behind the insert: a limit buy locks its cost, a market buy that the balance does not
    cover is rejected, and everything else is accepted. -/
def Request.inserted (request : Request) (available price : ℚ) (order : OrderRow) : PlacePhase :=
  match request.orderType, request.side with
  | .limit, .buy =>
    match reservation config request.quantity price with
    | .ok cost => if 0 < cost then .lockRead order price cost else .accept order price
    | .error e => .ended (.raised (.accounting e))
  | .market, .buy =>
    match Accounting.requiredFunds request.quantity price config with
    | .ok required => if available < required then .reject order else .accept order price
    | .error e => .ended (.raised (.accounting e))
  | _, .sell => .accept order price

/-- One statement of `place_order`. -/
def PlacePhase.step (request : Request) (s : Store) : PlacePhase → PlacePhase × Store
  | .readAccount =>
    if request.quantity ≤ 0 then (.ended (.raised .valueError), s)
    else (.readPositions s.account, s)
  | .readPositions account =>
    match request.idempotencyKey with
    | some _ => (.probe account (positionRows false s), s)
    | none => (request.admission config account (positionRows false s), s)
  | .probe account rows =>
    match request.idempotencyKey.bind fun key => recordedUnder key s with
    | some recorded => (.answer recorded, s)
    | none => (request.admission config account rows, s)
  | .insert available price =>
    issue s (insertOrderRow (request.newOrder price) s) (request.inserted config available price)
      fun e =>
        if e = .concurrencyConflict ∧ request.idempotencyKey.isSome then .reprobe
        else .ended (.raised e)
  | .reprobe =>
    match request.idempotencyKey.bind fun key => recordedUnder key s with
    | some recorded => (.answer recorded, s)
    | none => (.ended (.raised .concurrencyConflict), s)
  | .answer recorded => (.ended (.recorded recorded (fillsOf recorded.id s)), s)
  | .lockRead order price cost =>
    match Accounting.lock (accountOf s.account) cost config with
    | .ok locked => (.lockMoney order price s.account locked s.clock, s)
    | .error e => (.ended (.raised (.accounting e)), s)
  | .lockMoney order price before locked occurredAt =>
    issue s (bumpVersionRow before.version (transferPayload before locked) s)
      (fun _ => .lockEvent order price before locked occurredAt) fun e => .ended (.raised e)
  | .lockEvent order price before locked occurredAt =>
    issue s (insertBalanceEventRow (transferEvent .orderLock (accountOf before) locked occurredAt) s)
      (fun _ => .accept order price) fun e => .ended (.raised e)
  | .accept order price =>
    issue s (moveOrderRow order.id .accepted .created none s)
      (fun accepted =>
        match request.orderType with
        | .limit => .ended (.resting accepted)
        | .market => .filling (.start {
            order := accepted, quantity := request.quantity, price, releaseFromLocked := 0 }))
      fun e => .ended (.raised e)
  | .reject order =>
    issue s (moveOrderRow order.id .rejected order.orderState (some .insufficientFunds) s)
      (fun rejected => .ended (.insufficientFunds rejected)) fun e => .ended (.raised e)
  | .filling fill =>
    match fill.step config s with
    | (.next fill, s') => (.filling fill, s')
    | (.filled order fill, s') => (.ended (.filled order fill), s')
    | (.settled order fills, s') => (.ended (.settled order fills), s')
    | (.failed e, s') =>
      if e = .accounting (.invariantViolation .availableBalance) then (.reject fill.job.order, s')
      else (.ended (.raised e), s')
  | .ended ending => (.ended ending, s)

/-! ## `cancel_order` -/

/-- The statement that a `cancel_order` is about to issue. -/
inductive CancelPhase where
  | readOrder
  | readAccount (order : OrderRow)
  | money (order : OrderRow) (before : AccountRow) (unlocked : Account) (occurredAt : Instant)
  | event (order : OrderRow) (before : AccountRow) (unlocked : Account) (occurredAt : Instant)
  | move (order : OrderRow)
  | answer (order : OrderRow)
  | ended (ending : Except PaperError (OrderRow × List FillRow))

/-- `reserved`, of a resting limit buy. -/
def reservedOf (order : OrderRow) : Option (Except AccountingError ℚ) :=
  match order.side, order.orderType, order.limitPrice with
  | .buy, .limit, some limit => some (reservation config order.quantity limit)
  | _, _, _ => none

/-- What a cancel unlocks of an account: what is reserved, at most what is locked. -/
def unlockOf (order : OrderRow) (account : Account) : Except PaperError Account :=
  match reservedOf config order with
  | none => .error .valueError
  | some reserved => do
    let reserved ← ofAccounting reserved
    ofAccounting (Accounting.unlock account (min reserved account.lockedBalance) config)

/-- One statement of `cancel_order`. -/
def CancelPhase.step (orderId : ℕ) (s : Store) : CancelPhase → CancelPhase × Store
  | .readOrder =>
    match orderById orderId s with
    | none => (.ended (.error .valueError), s)
    | some order =>
      match order.legacyStatus with
      | .cancelled => (.answer order, s)
      | .open =>
        if (reservedOf config order).isSome then (.readAccount order, s) else (.move order, s)
      | _ => (.ended (.error .valueError), s)
  | .readAccount order =>
    match unlockOf config order (accountOf s.account) with
    | .ok unlocked => (.money order s.account unlocked s.clock, s)
    | .error e => (.ended (.error e), s)
  | .money order before unlocked occurredAt =>
    issue s (bumpVersionRow before.version (transferPayload before unlocked) s)
      (fun _ => .event order before unlocked occurredAt) fun e => .ended (.error e)
  | .event order before unlocked occurredAt =>
    issue s
      (insertBalanceEventRow (transferEvent .orderUnlock (accountOf before) unlocked occurredAt) s)
      (fun _ => .move order) fun e => .ended (.error e)
  | .move order =>
    issue s (moveOrderRow order.id .cancelled order.orderState none s) (fun order => .answer order)
      fun e => .ended (.error e)
  | .answer order => (.ended (.ok (order, fillsOf order.id s)), s)
  | .ended ending => (.ended ending, s)

/-! ## `check_limit_orders` -/

/-- The statement that a `check_limit_orders` is about to issue; `rest` are the orders behind
    the one that it is filling. -/
inductive SweepPhase where
  | readOrders
  | filling (filling : Filling) (rest filled : List OrderRow)
  | ended (ending : Except PaperError (List OrderRow))

/-- `should_fill`. -/
def shouldFill (price : ℚ) (order : OrderRow) : Prop :=
  order.orderType = .limit ∧ ∃ limit ∈ order.limitPrice,
    (order.side = .buy ∧ price ≤ limit) ∨ (order.side = .sell ∧ limit ≤ price)

instance (price : ℚ) (order : OrderRow) : Decidable (shouldFill price order) :=
  inferInstanceAs (Decidable (_ ∧ _))

/-- The loop up to the next order that the price fills. -/
def sweepNext (price : ℚ) : List OrderRow → List OrderRow → SweepPhase
  | [], filled => .ended (.ok filled)
  | order :: rest, filled =>
    if shouldFill price order then
      match (reservedOf config order).getD (.ok 0) with
      | .ok reserved =>
        .filling (.start {
          order, quantity := order.quantity, price, releaseFromLocked := reserved }) rest filled
      | .error e => .ended (.error (.accounting e))
    else sweepNext price rest filled

/-- One statement of `check_limit_orders`. -/
def SweepPhase.step (symbol : String) (price : ℚ) (s : Store) : SweepPhase → SweepPhase × Store
  | .readOrders =>
    match ofAccounting (config.price price) with
    | .ok price =>
      (sweepNext config price ((openOrders s).filter fun order => order.symbol = symbol) [], s)
    | .error e => (.ended (.error e), s)
  | .filling fill rest filled =>
    match fill.step config s with
    | (.next fill, s') => (.filling fill rest filled, s')
    | (.filled order _, s') => (sweepNext config fill.job.price rest (filled ++ [order]), s')
    | (.settled order _, s') => (sweepNext config fill.job.price rest (filled ++ [order]), s')
    | (.failed e, s') => (.ended (.error e), s')
  | .ended ending => (.ended ending, s)

/-! ## `reset_account` -/

/-- The statement that a `reset_account` is about to issue; `cancelled` are the orders that it
    has cancelled. -/
inductive ResetPhase where
  | readOrders
  | cancel (order : OrderRow) (rest : List OrderRow) (cancelled : List ℕ)
  | readPositions (cancelled : List ℕ)
  | closeRead (row : PositionRow) (rest : List PositionRow) (cancelled : List ℕ)
  | closeWrite (row : PositionRow) (rest : List PositionRow) (current : Option PositionRow)
      (cancelled : List ℕ)
  | readAccount (cancelled : List ℕ)
  | money (before : AccountRow) (cancelled : List ℕ)
  | event (before updated : AccountRow)
  | ended (ending : Except PaperError AccountRow)

/-- The columns of a position that a reset closes. -/
def closedValues (row : PositionRow) (instant : Instant) : PositionValues where
  symbol := row.symbol
  side := row.side
  size := 0
  entryPrice := row.entryPrice
  openedAt := row.openedAt
  currentPrice := row.currentPrice
  unrealizedPnl := some 0
  priceAt := row.priceAt
  closedAt := some instant

def resetPayload (capital : ℚ) : AccountUpdate where
  availableBalance := some capital
  lockedBalance := some 0
  realizedPnl := some 0
  totalEquity := some capital
  lastPriceAt := some none
  stale := some false

def resetEvent (capital : ℚ) (before : AccountRow) (instant : Instant) : BalanceEventRow where
  cause := .reset
  availableDelta := ambientContext.sub capital before.availableBalance
  lockedDelta := ambientContext.neg before.lockedBalance
  realizedDelta := ambientContext.neg before.realizedPnl
  availableAfter := capital
  lockedAfter := 0
  realizedAfter := 0
  fillId := none
  occurredAt := instant

/-- The loop over the orders. -/
def cancelNext (cancelled : List ℕ) : List OrderRow → ResetPhase
  | [] => .readPositions cancelled
  | order :: rest => .cancel order rest cancelled

/-- The loop over the positions. -/
def closeNext (cancelled : List ℕ) : List PositionRow → ResetPhase
  | [] => .readAccount cancelled
  | row :: rest => .closeRead row rest cancelled

/-- One statement of `reset_account`. -/
def ResetPhase.step (capital : ℚ) (startedAt : Instant) (s : Store) : ResetPhase → ResetPhase × Store
  | .readOrders => (cancelNext [] (openOrders s), s)
  | .cancel order rest cancelled =>
    issue s (moveOrderRow order.id .cancelled order.orderState none s)
      (fun _ => cancelNext (order.id :: cancelled) rest) fun e => .ended (.error e)
  | .readPositions cancelled => (closeNext cancelled (positionRows false s), s)
  | .closeRead row rest cancelled =>
    (.closeWrite row rest (findOpenPosition row.symbol s.positions) cancelled, s)
  | .closeWrite row rest current cancelled =>
    issue s (writePositionRow current (closedValues row startedAt) s)
      (fun _ => closeNext cancelled rest) fun e => .ended (.error e)
  | .readAccount cancelled => (.money s.account cancelled, s)
  | .money before _ =>
    issue s (bumpVersionRow before.version (resetPayload capital) s) (.event before)
      fun e => .ended (.error e)
  | .event before updated =>
    issue s (insertBalanceEventRow (resetEvent capital before startedAt) s)
      (fun _ => .ended (.ok updated)) fun e => .ended (.error e)
  | .ended ending => (.ended ending, s)

/-! ## Systems -/

inductive Call where
  | place (request : Request) (phase : PlacePhase)
  | cancel (orderId : ℕ) (phase : CancelPhase)
  | sweep (symbol : String) (price : ℚ) (phase : SweepPhase)
  | reset (capital : ℚ) (startedAt : Instant) (phase : ResetPhase)

def Call.step (s : Store) : Call → Call × Store
  | .place request phase => ((phase.step config request s).map (.place request) id)
  | .cancel orderId phase => ((phase.step config orderId s).map (.cancel orderId) id)
  | .sweep symbol price phase => ((phase.step config symbol price s).map (.sweep symbol price) id)
  | .reset capital startedAt phase => ((phase.step capital startedAt s).map (.reset capital startedAt) id)

/-- A call that has issued no statement. -/
def Call.Fresh : Call → Prop
  | .place _ phase => phase = .readAccount
  | .cancel _ phase => phase = .readOrder
  | .sweep _ _ phase => phase = .readOrders
  | .reset _ _ phase => phase = .readOrders

/-- A call that has returned or raised. -/
def Call.Ended : Call → Prop
  | .place _ phase => ∃ ending, phase = .ended ending
  | .cancel _ phase => ∃ ending, phase = .ended ending
  | .sweep _ _ phase => ∃ ending, phase = .ended ending
  | .reset _ _ phase => ∃ ending, phase = .ended ending

/-- A store and the calls over it. -/
structure System (ι : Type) where
  store : Store
  calls : ι → Call

variable {ι : Type} [DecidableEq ι]

/-- One call issues its next statement. -/
def System.step (c : System ι) (i : ι) : System ι where
  store := ((c.calls i).step config c.store).2
  calls := Function.update c.calls i ((c.calls i).step config c.store).1

/-- The runs whose every step meets a condition on the call and the system before it. -/
inductive Reaches (Meets : System ι → ι → Prop) : System ι → System ι → Prop
  | refl (c : System ι) : Reaches Meets c c
  | step {c c' : System ι} (h : Reaches Meets c c') (i : ι) (h_meets : Meets c' i) :
      Reaches Meets c (c'.step config i)

def System.run (c : System ι) (schedule : List ι) : System ι := schedule.foldl (·.step config ·) c

end VyomQuant.Paper.Service
