/-
  VyomQuant.Paper.Accounting.Fill

  `apply_fill` and `recalculate` of `paper_accounting.py`.

  A fill decides the new position by five cases (`changePosition`: open, add,
  partial close, full close, reversal) and then moves cash by one rule for all of
  them: the residual of the position's quantized value change at the fill price,
  minus the fee.  `applyFill_eq_ok` is the inversion lemma every later proof
  starts from, and `PositionCase` lists what the five cases can produce.
-/

import VyomQuant.Paper.Accounting.Valuation

namespace VyomQuant.Paper.Accounting

open Decimal Except

/-- `_side_for_order`: the direction a fill adds. -/
def sideForOrder : OrderSide → PositionSide
  | .buy => .long
  | .sell => .short

/-- `_weighted_average_entry`. -/
def weightedAverageEntry (oldSize oldEntry addedSize fillPrice : ℚ)
    (config : AccountingConfig) : Except AccountingError ℚ := do
  let newSize := accountingContext.add oldSize addedSize
  refuseIf (newSize ≤ 0) (.invalidQuantity .resultingSize)
  config.price (accountingContext.div
    (accountingContext.add (accountingContext.mul oldSize oldEntry)
      (accountingContext.mul addedSize fillPrice)) newSize)

/-- `_realized_on_close`. -/
def realizedOnClose (closingSide : PositionSide) (entryPrice exitPrice quantity : ℚ) : ℚ :=
  match closingSide with
  | .long => accountingContext.mul (accountingContext.sub exitPrice entryPrice) quantity
  | .short => accountingContext.mul (accountingContext.sub entryPrice exitPrice) quantity

/-! ## What a fill does to the position of its symbol -/

/-- The position a fill leaves, the profit it realizes and the trade it closes. -/
structure PositionChange where
  newPosition : Position
  realized : ℚ
  closedTrade : Option ClosedTrade

/-- A position opened at the fill, from flat or by the surplus of a reversal. -/
def openedFields (symbol : String) (side : PositionSide) (size fillPrice : ℚ)
    (filledAt : Option Instant) : PositionFields where
  symbol := symbol
  side := side
  size := size
  entryPrice := fillPrice
  currentPrice := some fillPrice
  unrealizedPnl := some 0
  priceAt := filledAt
  openedAt := filledAt
  closedAt := none

/-- The open position with the fill added on the same side. -/
def addedFields (position : Position) (size entryPrice fillPrice : ℚ)
    (filledAt : Option Instant) : PositionFields :=
  { position.toPositionFields with
    size := size
    entryPrice := entryPrice
    currentPrice := some fillPrice
    unrealizedPnl := none
    priceAt := filledAt
    closedAt := none }

/-- The open position with part or all of it closed by the fill. -/
def reducedFields (position : Position) (remaining fillPrice : ℚ)
    (filledAt : Option Instant) : PositionFields :=
  { position.toPositionFields with
    size := remaining
    currentPrice := some fillPrice
    unrealizedPnl := none
    priceAt := filledAt
    closedAt := if remaining = 0 then filledAt else none }

/-- The round trip recorded when the position reaches zero. -/
def closedTradeOf (symbol : String) (position : Position) (closingQty fillPrice realized fee : ℚ)
    (filledAt : Option Instant) : ClosedTrade where
  symbol := symbol
  side := position.side
  quantity := closingQty
  entryPrice := position.entryPrice
  exitPrice := fillPrice
  realizedPnl := realized
  fee := fee
  openedAt := position.openedAt
  closedAt := filledAt

/-- The position cases of `apply_fill`, given the quantized figures of the fill. -/
def changePosition (symbol : String) (incomingSide : PositionSide)
    (fillQty fillPrice fillFee : ℚ) (config : AccountingConfig) (filledAt : Option Instant) :
    Option Position → Except AccountingError PositionChange
  | none => do
    let newPosition ←
      Position.make (openedFields symbol incomingSide fillQty fillPrice filledAt)
    return { newPosition, realized := 0, closedTrade := none }
  | some position =>
    if position.side = incomingSide then do
      let newSize ← config.qty (accountingContext.add position.size fillQty)
      let newEntry ←
        weightedAverageEntry position.size position.entryPrice fillQty fillPrice config
      let newPosition ←
        Position.make (addedFields position newSize newEntry fillPrice filledAt)
      return { newPosition, realized := 0, closedTrade := none }
    else do
      let closingQty := min fillQty position.size
      let realized ← config.money
        (realizedOnClose position.side position.entryPrice fillPrice closingQty)
      let remaining ← config.qty (accountingContext.sub position.size closingQty)
      let newPosition ←
        if fillQty ≤ position.size then
          -- Partial or full close: the entry price is untouched.
          Position.make (reducedFields position remaining fillPrice filledAt)
        else do
          -- Reversal through zero: the surplus opens on the other side.
          let surplus ← config.qty (accountingContext.sub fillQty position.size)
          Position.make (openedFields symbol incomingSide surplus fillPrice filledAt)
      return {
        newPosition
        realized
        closedTrade :=
          if remaining = 0 then
            some (closedTradeOf symbol position closingQty fillPrice realized fillFee filledAt)
          else none }

def openPosition (positions : Book) (symbol : String) : Option Position :=
  (positions.get? symbol).filter fun position => position.isOpen

/-- The quantized value of the position a fill meets, zero when there is none. -/
def oldValueOf (config : AccountingConfig) (fillPrice : ℚ) :
    Option Position → Except AccountingError ℚ
  | none => .ok 0
  | some position => config.money (positionValue position fillPrice)

/-! ## `apply_fill` -/

/-- What a fill is applied with: its order's symbol and side, its figures and its
    time, and the cash locked for it that it releases. -/
structure FillRequest where
  symbol : String
  side : OrderSide
  quantity : ℚ
  price : ℚ
  fee : ℚ
  filledAt : Option Instant
  releaseFromLocked : ℚ

/-- The figures of a request at the session's scales. -/
structure FillFigures where
  fillQty : ℚ
  fillPrice : ℚ
  fillFee : ℚ
  release : ℚ

/-- The head of `apply_fill`: quantize the figures and refuse the inadmissible ones. -/
def fillFigures (request : FillRequest) (config : AccountingConfig) :
    Except AccountingError FillFigures := do
  let fillQty ← config.qty request.quantity
  let fillPrice ← config.price request.price
  let fillFee ← config.money request.fee
  let release ← config.money request.releaseFromLocked
  refuseIf (fillQty ≤ 0) (.invalidQuantity .fillQuantity)
  refuseIf (fillPrice ≤ 0) (.invalidQuantity .fillPrice)
  refuseIf (fillFee < 0) (.invalidQuantity .fillFee)
  refuseIf (release < 0) (.invalidQuantity .releaseFromLocked)
  return { fillQty, fillPrice, fillFee, release }

/-- Cash as the residual of the position-value change. -/
def cashDelta (newValue oldValue fillFee : ℚ) : ℚ :=
  accountingContext.sub
    (accountingContext.neg (accountingContext.sub newValue oldValue)) fillFee

/-- The prices a book is valued at after a fill: the fill's own price for its
    symbol and the last validated price of every other. -/
def pricesAtFill (positions : Book) (symbol : String) (fillPrice : ℚ) : Prices :=
  Function.update (lastValidatedPrices positions) symbol (some fillPrice)

/-- `apply_fill`. -/
def applyFill (account : Account) (positions : Book) (request : FillRequest)
    (config : AccountingConfig) : Except AccountingError FillResult := do
  let figures ← fillFigures request config
  let existing := openPosition positions request.symbol
  let oldValue ← oldValueOf config figures.fillPrice existing
  let change ← changePosition request.symbol (sideForOrder request.side) figures.fillQty
    figures.fillPrice figures.fillFee config request.filledAt existing
  let newValue ← config.money (positionValue change.newPosition figures.fillPrice)
  let availableAfter := accountingContext.add
    (accountingContext.add account.availableBalance figures.release)
    (cashDelta newValue oldValue figures.fillFee)
  let lockedAfter := accountingContext.sub account.lockedBalance figures.release
  refuseIf (lockedAfter < 0) (.invariantViolation .lockedBalance)
  refuseIf (availableAfter < 0) (.invariantViolation .availableBalance)
  let newPositions := positions.put change.newPosition
  let marketValue ← positionMarketValue newPositions.items
    (pricesAtFill newPositions request.symbol figures.fillPrice) config
  let unrealized ← config.money (positionUnrealizedPnl change.newPosition figures.fillPrice)
  let newPosition ←
    Position.make { change.newPosition.toPositionFields with unrealizedPnl := some unrealized }
  return {
    account := {
      availableBalance := availableAfter
      lockedBalance := lockedAfter
      realizedPnl := accountingContext.add account.realizedPnl change.realized
      totalEquity := accountingContext.add
        (accountingContext.add availableAfter lockedAfter) marketValue
      currency := account.currency }
    positions := newPositions.put newPosition
    position := newPosition
    realizedPnl := change.realized
    fee := figures.fillFee
    availableDelta := accountingContext.sub availableAfter account.availableBalance
    lockedDelta := accountingContext.sub lockedAfter account.lockedBalance
    realizedDelta := change.realized
    totalEquityDelta := accountingContext.neg figures.fillFee
    positionMarketValue := marketValue
    closedTrade := change.closedTrade }

/-! ## The position cases of a fill -/

/-- What a fill can make of the open position of its symbol.  A partial and a
    full close are one case, told apart by what remains. -/
inductive PositionCase (symbol : String) (side : PositionSide) (fillQty fillPrice fillFee : ℚ)
    (config : AccountingConfig) (filledAt : Option Instant) :
    Option Position → PositionChange → Prop
  | opened {newPosition : Position}
      (h_new : newPosition.toPositionFields
        = openedFields symbol side fillQty fillPrice filledAt) :
      PositionCase symbol side fillQty fillPrice fillFee config filledAt none
        ⟨newPosition, 0, none⟩
  | added {position newPosition : Position} {newSize newEntry : ℚ}
      (h_side : position.side = side)
      (h_size : config.qty (accountingContext.add position.size fillQty) = .ok newSize)
      (h_entry : weightedAverageEntry position.size position.entryPrice fillQty fillPrice config
        = .ok newEntry)
      (h_new : newPosition.toPositionFields
        = addedFields position newSize newEntry fillPrice filledAt) :
      PositionCase symbol side fillQty fillPrice fillFee config filledAt (some position)
        ⟨newPosition, 0, none⟩
  | reduced {position newPosition : Position} {realized remaining : ℚ}
      (h_side : position.side ≠ side) (h_le : fillQty ≤ position.size)
      (h_realized : config.money
        (realizedOnClose position.side position.entryPrice fillPrice fillQty) = .ok realized)
      (h_remaining : config.qty (accountingContext.sub position.size fillQty) = .ok remaining)
      (h_new : newPosition.toPositionFields
        = reducedFields position remaining fillPrice filledAt) :
      PositionCase symbol side fillQty fillPrice fillFee config filledAt (some position)
        ⟨newPosition, realized, if remaining = 0 then
          some (closedTradeOf symbol position fillQty fillPrice realized fillFee filledAt)
          else none⟩
  | reversed {position newPosition : Position} {realized surplus : ℚ}
      (h_side : position.side ≠ side) (h_lt : position.size < fillQty)
      (h_realized : config.money
        (realizedOnClose position.side position.entryPrice fillPrice position.size)
        = .ok realized)
      (h_surplus : config.qty (accountingContext.sub fillQty position.size) = .ok surplus)
      (h_new : newPosition.toPositionFields
        = openedFields symbol side surplus fillPrice filledAt) :
      PositionCase symbol side fillQty fillPrice fillFee config filledAt (some position)
        ⟨newPosition, realized, some
          (closedTradeOf symbol position position.size fillPrice realized fillFee filledAt)⟩

theorem changePosition_cases {symbol : String} {side : PositionSide}
    {fillQty fillPrice fillFee : ℚ} {config : AccountingConfig} {filledAt : Option Instant}
    {existing : Option Position} {change : PositionChange}
    (h : changePosition symbol side fillQty fillPrice fillFee config filledAt existing
      = .ok change) :
    PositionCase symbol side fillQty fillPrice fillFee config filledAt existing change := by
  cases existing with
  | none =>
    simp only [changePosition, bind_eq_ok, pure_eq_ok] at h
    obtain ⟨newPosition, h_new, rfl⟩ := h
    exact .opened (Position.make_eq_ok h_new)
  | some position =>
    by_cases h_side : position.side = side
    · simp only [changePosition, if_pos h_side, bind_eq_ok, pure_eq_ok] at h
      obtain ⟨newSize, h_size, newEntry, h_entry, newPosition, h_new, rfl⟩ := h
      exact .added h_side h_size h_entry (Position.make_eq_ok h_new)
    · simp only [changePosition, if_neg h_side] at h
      by_cases h_le : fillQty ≤ position.size
      · simp only [if_pos h_le, min_eq_left h_le, bind_eq_ok, pure_eq_ok] at h
        obtain ⟨realized, h_realized, remaining, h_remaining, newPosition, h_new, rfl⟩ := h
        exact .reduced h_side h_le h_realized h_remaining (Position.make_eq_ok h_new)
      · have h_lt : position.size < fillQty := not_le.mp h_le
        simp only [if_neg h_le, min_eq_right h_lt.le, bind_eq_ok, pure_eq_ok,
          Context.sub_self, AccountingConfig.qty_zero, ok.injEq] at h
        obtain ⟨realized, h_realized, _, rfl, surplus, h_surplus, newPosition, h_new, rfl⟩ := h
        rw [if_pos rfl]
        exact .reversed h_side h_lt h_realized h_surplus (Position.make_eq_ok h_new)

section Cases

variable {symbol : String} {side : PositionSide} {fillQty fillPrice fillFee : ℚ}
  {config : AccountingConfig} {filledAt : Option Instant} {existing : Option Position}
  {change : PositionChange}

theorem PositionCase.symbol_eq
    (h : PositionCase symbol side fillQty fillPrice fillFee config filledAt existing change)
    (h_existing : ∀ position ∈ existing, position.symbol = symbol) :
    change.newPosition.symbol = symbol := by
  cases h with
  | opened h_new => rw [h_new]; rfl
  | added _ _ _ h_new => rw [h_new]; exact h_existing _ rfl
  | reduced _ _ _ _ h_new => rw [h_new]; exact h_existing _ rfl
  | reversed _ _ _ _ h_new => rw [h_new]; rfl

theorem PositionCase.currentPrice_eq
    (h : PositionCase symbol side fillQty fillPrice fillFee config filledAt existing change) :
    change.newPosition.currentPrice = some fillPrice := by
  cases h with
  | opened h_new => rw [h_new]; rfl
  | added _ _ _ h_new => rw [h_new]; rfl
  | reduced _ _ _ _ h_new => rw [h_new]; rfl
  | reversed _ _ _ _ h_new => rw [h_new]; rfl

end Cases

theorem openPosition_symbol {positions : Book} {symbol : String} {position : Position}
    (h : openPosition positions symbol = some position) : position.symbol = symbol := by
  rw [openPosition, Option.filter_eq_some_iff] at h
  exact (KeyedList.mem_of_get? h.1).2

/-! ## What a fill that returned did -/

theorem fillFigures_eq_ok {request : FillRequest} {config : AccountingConfig}
    {figures : FillFigures} :
    fillFigures request config = .ok figures ↔
      config.qty request.quantity = .ok figures.fillQty ∧
      config.price request.price = .ok figures.fillPrice ∧
      config.money request.fee = .ok figures.fillFee ∧
      config.money request.releaseFromLocked = .ok figures.release ∧
      0 < figures.fillQty ∧ 0 < figures.fillPrice ∧ 0 ≤ figures.fillFee ∧
      0 ≤ figures.release := by
  simp only [fillFigures, bind_eq_ok, refuseIf_eq_ok, pure_eq_ok, not_le, not_lt]
  constructor
  · rintro ⟨fillQty, h_qty, fillPrice, h_price, fillFee, h_fee, release, h_release, _, h_qty_pos,
      _, h_price_pos, _, h_fee_nonneg, _, h_release_nonneg, rfl⟩
    exact ⟨h_qty, h_price, h_fee, h_release, h_qty_pos, h_price_pos, h_fee_nonneg,
      h_release_nonneg⟩
  · rintro ⟨h_qty, h_price, h_fee, h_release, h_qty_pos, h_price_pos, h_fee_nonneg,
      h_release_nonneg⟩
    exact ⟨_, h_qty, _, h_price, _, h_fee, _, h_release, (), h_qty_pos, (), h_price_pos, (),
      h_fee_nonneg, (), h_release_nonneg, rfl⟩

/-- The record of a fill that returned: every figure it computed on the way, and
    what it made of them. -/
structure FillTrace (account : Account) (positions : Book) (request : FillRequest)
    (config : AccountingConfig) (result : FillResult) where
  figures : FillFigures
  oldValue : ℚ
  change : PositionChange
  newValue : ℚ
  unrealized : ℚ
  figures_eq : fillFigures request config = .ok figures
  oldValue_eq : oldValueOf config figures.fillPrice (openPosition positions request.symbol)
    = .ok oldValue
  change_eq : changePosition request.symbol (sideForOrder request.side) figures.fillQty
    figures.fillPrice figures.fillFee config request.filledAt
    (openPosition positions request.symbol) = .ok change
  newValue_eq : config.money (positionValue change.newPosition figures.fillPrice)
    = .ok newValue
  available_eq : result.account.availableBalance = accountingContext.add
    (accountingContext.add account.availableBalance figures.release)
    (cashDelta newValue oldValue figures.fillFee)
  available_nonneg : 0 ≤ result.account.availableBalance
  locked_eq : result.account.lockedBalance
    = accountingContext.sub account.lockedBalance figures.release
  locked_nonneg : 0 ≤ result.account.lockedBalance
  realized_eq : result.account.realizedPnl
    = accountingContext.add account.realizedPnl change.realized
  currency_eq : result.account.currency = account.currency
  marketValue_eq : positionMarketValue (positions.put change.newPosition).items
    (pricesAtFill (positions.put change.newPosition) request.symbol figures.fillPrice) config
    = .ok result.positionMarketValue
  totalEquity_eq : result.account.totalEquity = accountingContext.add
    (accountingContext.add result.account.availableBalance result.account.lockedBalance)
    result.positionMarketValue
  unrealized_eq : config.money (positionUnrealizedPnl change.newPosition figures.fillPrice)
    = .ok unrealized
  position_eq : result.position.toPositionFields
    = { change.newPosition.toPositionFields with unrealizedPnl := some unrealized }
  positions_eq : result.positions = positions.put result.position
  realizedPnl_eq : result.realizedPnl = change.realized
  fee_eq : result.fee = figures.fillFee
  availableDelta_eq : result.availableDelta
    = accountingContext.sub result.account.availableBalance account.availableBalance
  lockedDelta_eq : result.lockedDelta
    = accountingContext.sub result.account.lockedBalance account.lockedBalance
  realizedDelta_eq : result.realizedDelta = change.realized
  closedTrade_eq : result.closedTrade = change.closedTrade

theorem applyFill_eq_ok {account : Account} {positions : Book} {request : FillRequest}
    {config : AccountingConfig} {result : FillResult}
    (h : applyFill account positions request config = .ok result) :
    Nonempty (FillTrace account positions request config result) := by
  simp only [applyFill, bind_eq_ok, refuseIf_eq_ok, pure_eq_ok, not_lt] at h
  obtain ⟨figures, h_figures, oldValue, h_old, change, h_change, newValue, h_new, _, h_locked,
    _, h_available, marketValue, h_market, unrealized, h_unrealized, newPosition, h_position,
    rfl⟩ := h
  have h_fields := Position.make_eq_ok h_position
  have h_key : change.newPosition.key = newPosition.key := by
    show change.newPosition.symbol = newPosition.toPositionFields.symbol
    rw [h_fields]
  exact ⟨{
    figures, oldValue, change, newValue, unrealized
    figures_eq := h_figures
    oldValue_eq := h_old
    change_eq := h_change
    newValue_eq := h_new
    available_eq := rfl
    available_nonneg := h_available
    locked_eq := rfl
    locked_nonneg := h_locked
    realized_eq := rfl
    currency_eq := rfl
    marketValue_eq := h_market
    totalEquity_eq := rfl
    unrealized_eq := h_unrealized
    position_eq := h_fields
    positions_eq := KeyedList.put_put h_key positions
    realizedPnl_eq := rfl
    fee_eq := rfl
    availableDelta_eq := rfl
    lockedDelta_eq := rfl
    realizedDelta_eq := rfl
    closedTrade_eq := rfl }⟩

/-! ## `recalculate` -/

/-- The loop state of `recalculate`. -/
structure Revaluation where
  revalued : Book
  marketValue : ℚ
  unrealizedTotal : ℚ

/-- The loop body of `recalculate`: a closed position only has its unrealized
    profit set to zero. -/
def revaluePosition (prices : Prices) (config : AccountingConfig) (priceAt : Option Instant)
    (state : Revaluation) (position : Position) : Except AccountingError Revaluation :=
  if position.isOpen then do
    let current ← priceFor position.symbol prices
    let value ← config.money (positionValue position current)
    let pnl ← config.money (positionUnrealizedPnl position current)
    let revalued ← Position.make { position.toPositionFields with
      currentPrice := some current
      unrealizedPnl := some pnl
      priceAt := priceAt.or position.priceAt }
    return {
      revalued := state.revalued.put revalued
      marketValue := accountingContext.add state.marketValue value
      unrealizedTotal := accountingContext.add state.unrealizedTotal pnl }
  else do
    let revalued ←
      Position.make { position.toPositionFields with unrealizedPnl := some 0 }
    return { state with revalued := state.revalued.put revalued }

/-- `recalculate`: restate what the open positions are worth, moving no cash. -/
def recalculate (account : Account) (positions : Book) (prices : Prices)
    (config : AccountingConfig) (priceAt : Option Instant) :
    Except AccountingError Valuation := do
  let final ← positions.items.foldlM (revaluePosition prices config priceAt)
    { revalued := KeyedList.empty, marketValue := 0, unrealizedTotal := 0 }
  return {
    account := { account with
      totalEquity := accountingContext.add
        (accountingContext.add account.availableBalance account.lockedBalance)
        final.marketValue }
    positions := final.revalued
    positionMarketValue := final.marketValue
    unrealizedPnl := final.unrealizedTotal
    priceAt := priceAt.or (latestPriceAt final.revalued.items) }

end VyomQuant.Paper.Accounting
