/-
  VyomQuant.Paper.Accounting.Closing

  When `apply_fill` closes a whole position.

  `Sound` is what every accepted fill keeps: balances of at least zero, a value for every
  open position at the price recorded on it, and sizes that the quantizer leaves alone.  On
  a sound book a fill of the position's own size whose proceeds cover its fee can be refused
  for one thing only, a realized profit of more digits than the context holds
  (`applyFill_closing_iff`).
-/

import VyomQuant.Paper.Accounting.FillRun
import VyomQuant.Paper.Accounting.Ledger
import VyomQuant.Paper.Accounting.Overdraft

namespace VyomQuant.Paper.Accounting

open Decimal Except

/-! ## Sound books -/

/-- What accepted fills keep of an account and its book. -/
structure Sound (config : AccountingConfig) (account : Account) (positions : Book) : Prop where
  available_nonneg : 0 ≤ account.availableBalance
  locked_nonneg : 0 ≤ account.lockedBalance
  valued : ∃ marketValue,
    positionMarketValue positions.items (lastValidatedPrices positions) config = .ok marketValue
  sizes : SizesSettled config positions

section Sound

variable {config : AccountingConfig} {account account' : Account} {positions positions' : Book}
  {records : List FillRecord} {request : FillRequest} {result : FillResult}

theorem Flat.valued (h : Flat positions) (prices : Prices) :
    ∃ marketValue, positionMarketValue positions.items prices config = .ok marketValue := by
  refine exists_positionMarketValue_iff.mpr fun position h_mem => ⟨0, ?_⟩
  apply quantizedValue_of_not_open
  intro h_open
  have h_some : openPosition positions position.symbol = some position := by
    unfold openPosition
    rw [Book.get?_symbol h_mem]
    exact Option.filter_some_pos (by simpa using h_open)
  rw [h] at h_some
  cases h_some

theorem Sound.of_flat (h : Flat positions) (h_available : 0 ≤ account.availableBalance)
    (h_locked : 0 ≤ account.lockedBalance) : Sound config account positions where
  available_nonneg := h_available
  locked_nonneg := h_locked
  valued := h.valued _
  sizes := h.sizesSettled config

theorem Sound.step (h : Sound config account positions)
    (h_fill : applyFill account positions request config = .ok result) :
    Sound config result.account result.positions := by
  obtain ⟨trace⟩ := applyFill_eq_ok h_fill
  have h_holds : Ledger.Holds config ⟨result.account, result.positions⟩ :=
    @Ledger.applyFill_holds config ⟨account, positions⟩ request result h_fill
  obtain ⟨_, _, h_equity⟩ := invariantsHold_iff.mp h_holds
  obtain ⟨marketValue, h_market, _⟩ := totalEquity_eq_ok.mp h_equity
  exact {
    available_nonneg := trace.available_nonneg
    locked_nonneg := trace.locked_nonneg
    valued := ⟨marketValue, h_market⟩
    sizes := h.sizes.step h_fill }

theorem FillRun.sound (h : FillRun config account positions records account' positions')
    (h_start : Sound config account positions) : Sound config account' positions' := by
  induction h with
  | nil => exact h_start
  | cons applied _ ih => exact ih (h_start.step applied)

end Sound

/-! ## A fill of the whole size -/

/-- The closed position that such a fill leaves. -/
def closedPosition (position : Position) (fillPrice : ℚ) (filledAt : Option Instant) : Position where
  toPositionFields := reducedFields position 0 fillPrice filledAt
  symbol_nonblank := position.symbol_nonblank
  size_nonneg := Rat.le_refl

/-- The fill that closes the position at a price, releasing nothing. -/
structure ClosingRequest (config : AccountingConfig) (position : Position) (request : FillRequest) :
    Prop where
  side : position.side ≠ sideForOrder request.side
  quantity : request.quantity = position.size
  price : config.price request.price = .ok request.price
  fee : config.money request.fee = .ok request.fee
  fee_nonneg : 0 ≤ request.fee
  release : request.releaseFromLocked = 0

/-- `apply_fill` computes the realized profit of the fill. -/
def RealizedFits (config : AccountingConfig) (position : Position) (fillPrice : ℚ) : Prop :=
  ∃ realized, config.money (realizedOnClose position.side position.entryPrice fillPrice position.size)
    = .ok realized

section Closing

variable {config : AccountingConfig} {account : Account} {positions : Book} {position : Position}
  {request : FillRequest} {value realized : ℚ}

theorem money_zero (config : AccountingConfig) : config.money 0 = .ok 0 := by
  unfold AccountingConfig.money AccountingConfig.quantizeAt
  rw [Context.quantize_zero]
  rfl

theorem closedPosition_figures (position : Position) (fillPrice : ℚ) (filledAt : Option Instant) :
    positionValue (closedPosition position fillPrice filledAt) fillPrice = 0 ∧
      positionUnrealizedPnl (closedPosition position fillPrice filledAt) fillPrice = 0 := by
  have h_closed : ¬ (closedPosition position fillPrice filledAt).isOpen := lt_irrefl (0 : ℚ)
  have h_size : (closedPosition position fillPrice filledAt).size = 0 := rfl
  refine ⟨positionValue_of_not_open h_closed fillPrice, ?_⟩
  unfold positionUnrealizedPnl
  rw [h_size]
  cases (closedPosition position fillPrice filledAt).side with
  | long => simp [Context.mul]
  | short => simp [Context.mul]

theorem changePosition_closing {symbol : String} {side : PositionSide} {fillPrice fillFee : ℚ}
    {filledAt : Option Instant} (h_side : position.side ≠ side)
    (h_realized : config.money
      (realizedOnClose position.side position.entryPrice fillPrice position.size) = .ok realized) :
    changePosition symbol side position.size fillPrice fillFee config filledAt (some position)
      = .ok ⟨closedPosition position fillPrice filledAt, realized,
          some (closedTradeOf symbol position position.size fillPrice realized fillFee filledAt)⟩ := by
  have h_make : Position.make (reducedFields position 0 fillPrice filledAt)
      = .ok (closedPosition position fillPrice filledAt) :=
    @Position.make_of_wellFormed (reducedFields position 0 fillPrice filledAt)
      position.symbol_nonblank (le_refl (0 : ℚ))
  simp only [changePosition, if_neg h_side, min_self, h_realized, Context.sub_self,
    AccountingConfig.qty_zero, if_pos (le_refl position.size)]
  show (Position.make (reducedFields position 0 fillPrice filledAt) >>= _) = _
  rw [h_make]
  rfl

theorem ClosingRequest.figures (h : ClosingRequest config position request)
    (h_size : config.qty position.size = .ok position.size) (h_open : position.isOpen)
    (h_price : 0 < request.price) :
    fillFigures request config = .ok ⟨position.size, request.price, request.fee, 0⟩ := by
  rw [fillFigures_eq_ok, h.quantity, h.release]
  exact ⟨h_size, h.price, h.fee, money_zero config, h_open, h_price, h.fee_nonneg, le_refl 0⟩

theorem closing_available_nonneg (h_available : 0 ≤ account.availableBalance)
    (h_value : config.money (positionValue position request.price) = .ok value)
    (h_covers : request.fee ≤ value) :
    0 ≤ accountingContext.add (accountingContext.add account.availableBalance 0)
      (cashDelta 0 value request.fee) := by
  have h_representable : accountingContext.Representable value :=
    Context.quantize_representable (AccountingConfig.quantizeAt_eq_ok h_value)
  have h_proceeds : accountingContext.neg (accountingContext.sub 0 value) = value := by
    unfold Context.neg Context.sub
    rw [zero_sub, Context.round_of_representable h_representable.neg, neg_neg,
      Context.round_of_representable h_representable]
  have h_cash : 0 ≤ cashDelta 0 value request.fee := by
    unfold cashDelta
    rw [h_proceeds]
    apply Context.round_nonneg
    exact sub_nonneg.mpr h_covers
  have h_before : 0 ≤ accountingContext.add account.availableBalance 0 := by
    apply Context.round_nonneg
    rw [add_zero]
    exact h_available
  apply Context.round_nonneg
  exact add_nonneg h_before h_cash

theorem closing_marketValue (h_sound : Sound config account positions) {closed : Position}
    (h_closed : ¬ closed.isOpen) (fillPrice : ℚ) :
    ∃ marketValue, positionMarketValue (positions.put closed).items
      (pricesAtFill (positions.put closed) closed.symbol fillPrice) config = .ok marketValue := by
  have h_valued := exists_positionMarketValue_iff.mp h_sound.valued
  refine exists_positionMarketValue_iff.mpr fun p h_mem => ?_
  rcases KeyedList.mem_put h_mem with rfl | ⟨h_old, h_ne⟩
  · exact ⟨0, quantizedValue_of_not_open h_closed⟩
  · obtain ⟨value, h_value⟩ := h_valued p h_old
    refine ⟨value, ?_⟩
    have h_symbol : p.symbol ≠ closed.key := h_ne
    rw [← h_value]
    refine (SameValuation.refl p).quantizedValue_eq fun _ => ?_
    unfold pricesAtFill
    rw [Function.update_of_ne (show p.symbol ≠ closed.symbol from h_ne)]
    unfold lastValidatedPrices
    rw [KeyedList.get?_put, if_neg h_symbol]

theorem exists_applyFill {figures : FillFigures} {oldValue newValue marketValue unrealized : ℚ}
    {change : PositionChange} (h_figures : fillFigures request config = .ok figures)
    (h_old : oldValueOf config figures.fillPrice (openPosition positions request.symbol)
      = .ok oldValue)
    (h_change : changePosition request.symbol (sideForOrder request.side) figures.fillQty
      figures.fillPrice figures.fillFee config request.filledAt
      (openPosition positions request.symbol) = .ok change)
    (h_new : config.money (positionValue change.newPosition figures.fillPrice) = .ok newValue)
    (h_locked : 0 ≤ accountingContext.sub account.lockedBalance figures.release)
    (h_available : 0 ≤ accountingContext.add
      (accountingContext.add account.availableBalance figures.release)
      (cashDelta newValue oldValue figures.fillFee))
    (h_market : positionMarketValue (positions.put change.newPosition).items
      (pricesAtFill (positions.put change.newPosition) request.symbol figures.fillPrice) config
      = .ok marketValue)
    (h_unrealized : config.money (positionUnrealizedPnl change.newPosition figures.fillPrice)
      = .ok unrealized) :
    ∃ result, applyFill account positions request config = .ok result := by
  have h_stored := @Position.make_of_wellFormed
    { change.newPosition.toPositionFields with unrealizedPnl := some unrealized }
    change.newPosition.symbol_nonblank change.newPosition.size_nonneg
  simp only [applyFill, bind_eq_ok, refuseIf_eq_ok, pure_eq_ok, not_lt]
  exact ⟨_, figures, h_figures, oldValue, h_old, change, h_change, newValue, h_new, (), h_locked,
    (), h_available, marketValue, h_market, unrealized, h_unrealized, _, h_stored, rfl⟩

/-- A fill of the whole size, whose proceeds cover its fee, is applied exactly when its realized
    profit fits the context. -/
theorem applyFill_closing_iff (h_sound : Sound config account positions)
    (h_open : openPosition positions request.symbol = some position)
    (h_request : ClosingRequest config position request) (h_price : 0 < request.price)
    (h_value : config.money (positionValue position request.price) = .ok value)
    (h_covers : request.fee ≤ value) :
    (∃ result, applyFill account positions request config = .ok result) ↔
      RealizedFits config position request.price := by
  have h_size := h_sound.sizes request.symbol position h_open
  have h_isOpen : position.isOpen := by
    unfold openPosition at h_open
    exact by simpa using (Option.filter_eq_some_iff.mp h_open).2
  have h_figures := h_request.figures h_size h_isOpen h_price
  constructor
  · rintro ⟨result, h_fill⟩
    obtain ⟨trace⟩ := applyFill_eq_ok h_fill
    have h_change := trace.change_eq
    rw [h_open, show trace.figures = _ from ok.inj (trace.figures_eq.symm.trans h_figures)]
      at h_change
    simp only [changePosition, if_neg h_request.side, min_self, bind_eq_ok] at h_change
    obtain ⟨realized, h_realized, _⟩ := h_change
    exact ⟨realized, h_realized⟩
  · rintro ⟨realized, h_realized⟩
    have h_symbol : position.symbol = request.symbol := openPosition_symbol h_open
    have h_change : changePosition request.symbol (sideForOrder request.side) position.size
        request.price request.fee config request.filledAt (openPosition positions request.symbol)
        = .ok ⟨closedPosition position request.price request.filledAt, realized,
          some (closedTradeOf request.symbol position position.size request.price realized
            request.fee request.filledAt)⟩ := by
      rw [h_open]
      exact changePosition_closing h_request.side h_realized
    have h_old : oldValueOf config request.price (openPosition positions request.symbol)
        = .ok value := by
      rw [h_open]
      exact h_value
    obtain ⟨h_new, h_unrealized⟩ :=
      closedPosition_figures position request.price request.filledAt
    have h_closed : ¬ (closedPosition position request.price request.filledAt).isOpen :=
      lt_irrefl (0 : ℚ)
    obtain ⟨marketValue, h_market⟩ := closing_marketValue h_sound h_closed request.price
    have h_key : (closedPosition position request.price request.filledAt).symbol = request.symbol :=
      h_symbol
    rw [h_key] at h_market
    have h_locked : 0 ≤ accountingContext.sub account.lockedBalance 0 := by
      apply Context.round_nonneg
      rw [sub_zero]
      exact h_sound.locked_nonneg
    have h_available : 0 ≤ accountingContext.add
        (accountingContext.add account.availableBalance 0) (cashDelta 0 value request.fee) :=
      closing_available_nonneg h_sound.available_nonneg h_value h_covers
    have h_worth : config.money (positionValue
        (closedPosition position request.price request.filledAt) request.price) = .ok 0 := by
      rw [h_new]
      exact money_zero config
    have h_profit : config.money (positionUnrealizedPnl
        (closedPosition position request.price request.filledAt) request.price) = .ok 0 := by
      rw [h_unrealized]
      exact money_zero config
    exact exists_applyFill h_figures h_old h_change h_worth h_locked h_available h_market h_profit

end Closing

end VyomQuant.Paper.Accounting
