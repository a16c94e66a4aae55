/-
  VyomQuant.Paper.Accounting.Reconciliation

  Cash against realized profit.  A fill moves cash by the difference of two rounded position
  values and realizes a rounded profit against a rounded entry price, so over a round trip the
  cash, the fees and the realized profit differ by what was rounded on the way.

  The invariant is the cash plus the cost of what is open minus the realized profit: a fill
  takes its fee off it and adds its `rounding`, and when the book is flat no cost is left.
-/

import VyomQuant.Paper.Accounting.FillRun

namespace VyomQuant.Paper.Accounting

open Decimal Except

/-! ## Exact figures of a position -/

def bookCost : Option Position → ℚ
  | none => 0
  | some position => position.size * position.entryPrice

/-- `position_value` without rounding. -/
def worth (price : ℚ) : Option Position → ℚ
  | none => 0
  | some position =>
    match position.side with
    | .long => position.size * price
    | .short => position.size * (2 * position.entryPrice - price)

/-- `_realized_on_close` without rounding. -/
def profitOn (price closed : ℚ) : Option Position → ℚ
  | none => 0
  | some position =>
    match position.side with
    | .long => (price - position.entryPrice) * closed
    | .short => (position.entryPrice - price) * closed

/-- What an add rounds into the entry price: the cost of the new position less the cost of the
    old one and of the fill, counted to the side of the position. -/
def entryShift (side : PositionSide) (fillQty fillPrice : ℚ) (newPosition : Position) :
    Option Position → ℚ
  | none => 0
  | some position =>
    if position.side = side then
      let shift := newPosition.size * newPosition.entryPrice
        - (position.size * position.entryPrice + fillQty * fillPrice)
      match side with
      | .long => shift
      | .short => -shift
    else 0

section Case

variable {symbol : String} {side : PositionSide} {fillQty fillPrice fillFee : ℚ}
  {config : AccountingConfig} {filledAt : Option Instant} {existing : Option Position}
  {change : PositionChange}

/-- Exactly computed, cash and cost move by the realized profit: what is left is the rounding
    of an add's entry price. -/
theorem PositionCase.reconciles
    (h : PositionCase symbol side fillQty fillPrice fillFee config filledAt existing change)
    (h_pos : 0 < fillQty) (h_qty : config.qty fillQty = .ok fillQty)
    (h_size : ∀ position ∈ existing, config.qty position.size = .ok position.size) :
    bookCost (some change.newPosition) - bookCost existing
        - (worth fillPrice (some change.newPosition) - worth fillPrice existing)
        - profitOn fillPrice (closedBy side fillQty existing) existing
      = entryShift side fillQty fillPrice change.newPosition existing := by
  cases h with
  | @opened newPosition h_new =>
    have h_entry : newPosition.entryPrice = fillPrice := by rw [h_new]; rfl
    simp only [bookCost, worth, profitOn, entryShift, h_entry]
    cases newPosition.side <;> dsimp only <;> ring
  | @added position newPosition newSize newEntry h_side h_new_size h_entry h_new =>
    have h_fields : newPosition.size = newSize ∧ newPosition.side = position.side := by
      rw [h_new]
      exact ⟨rfl, rfl⟩
    have h_exact : newSize = position.size + fillQty :=
      Context.quantize_add_eq (AccountingConfig.quantizeAt_onGrid (h_size position rfl))
        (AccountingConfig.quantizeAt_onGrid h_qty) position.size_nonneg h_pos.le
        (AccountingConfig.quantizeAt_eq_ok h_new_size)
    subst h_side
    simp only [bookCost, worth, profitOn, closedBy, entryShift, h_fields.1, h_fields.2, h_exact,
      if_true]
    cases position.side <;> dsimp only <;> ring
  | @reduced position newPosition realized remaining h_side h_le _ h_remaining h_new =>
    have h_fields : newPosition.size = remaining ∧ newPosition.side = position.side ∧
        newPosition.entryPrice = position.entryPrice := by
      rw [h_new]
      exact ⟨rfl, rfl, rfl⟩
    have h_exact : remaining = position.size - fillQty :=
      Context.quantize_sub_eq (AccountingConfig.quantizeAt_eq_ok (h_size position rfl))
        (AccountingConfig.quantizeAt_eq_ok h_qty) position.size_nonneg h_pos.le
        (AccountingConfig.quantizeAt_eq_ok h_remaining)
    simp only [bookCost, worth, profitOn, closedBy, entryShift, if_neg h_side, min_eq_left h_le,
      h_fields.1, h_fields.2.1, h_fields.2.2, h_exact]
    cases position.side <;> dsimp only <;> ring
  | @reversed position newPosition realized surplus h_side h_lt _ h_surplus h_new =>
    have h_fields : newPosition.size = surplus ∧ newPosition.side = side ∧
        newPosition.entryPrice = fillPrice := by
      rw [h_new]
      exact ⟨rfl, rfl, rfl⟩
    have h_exact : surplus = fillQty - position.size :=
      Context.quantize_sub_eq (AccountingConfig.quantizeAt_eq_ok h_qty)
        (AccountingConfig.quantizeAt_eq_ok (h_size position rfl)) h_pos.le position.size_nonneg
        (AccountingConfig.quantizeAt_eq_ok h_surplus)
    simp only [bookCost, worth, profitOn, closedBy, entryShift, if_neg h_side,
      min_eq_right h_lt.le, h_fields.1, h_fields.2.1, h_fields.2.2, h_exact]
    cases position.side <;> cases side <;> dsimp only <;> ring

end Case

/-! ## The rounding of a fill -/

namespace FillRecord

variable (config : AccountingConfig) (record : FillRecord)

/-- The price of the fill at the price precision. -/
def price : ℚ := (config.price record.request.price).toOption.getD 0

/-- The quantized value of the position that the fill met. -/
def oldValue : ℚ := (oldValueOf config (record.price config) record.existing).toOption.getD 0

/-- The quantized value of the position that the fill left. -/
def newValue : ℚ :=
  (config.money (positionValue record.result.position (record.price config))).toOption.getD 0

/-- The quantized amount that the fill released. -/
def release : ℚ := (config.money record.request.releaseFromLocked).toOption.getD 0

/-- What rounding the two position values adds to the cash. -/
def cashRounding : ℚ :=
  (record.oldValue config - worth (record.price config) record.existing)
    - (record.newValue config - worth (record.price config) (some record.result.position))

/-- What rounding adds to the realized profit. -/
def realizedRounding : ℚ :=
  record.result.realizedPnl - profitOn (record.price config) (record.closed config) record.existing

/-- What rounding adds to the cost of the position. -/
def entryRounding : ℚ :=
  entryShift (sideForOrder record.request.side) (record.quantity config) (record.price config)
    record.result.position record.existing

def rounding : ℚ :=
  record.cashRounding config - record.realizedRounding config + record.entryRounding config

/-- The cash figures of the fill sum to less than a 34-digit number of `d` decimals. -/
def Fits (d : ℕ) : Prop :=
  |record.account.availableBalance| + |record.account.lockedBalance| + |record.account.realizedPnl|
      + |record.release config| + |record.result.fee| + |record.newValue config|
      + |record.oldValue config| + |record.result.realizedPnl|
    < 10 ^ ((accountingContext.prec : ℤ) - d)

instance (d : ℕ) : Decidable (record.Fits config d) := inferInstanceAs (Decidable (_ < _))

end FillRecord

/-- The figures of an account are at `d` decimals. -/
structure AccountOnGrid (d : ℕ) (account : Account) : Prop where
  available : OnGrid d account.availableBalance
  locked : OnGrid d account.lockedBalance
  realized : OnGrid d account.realizedPnl

/-- The cash, with the cost of the open position and without the realized profit. -/
def uncommitted (account : Account) (positions : Book) (symbol : String) : ℚ :=
  account.availableBalance + account.lockedBalance
    + bookCost (openPosition positions symbol) - account.realizedPnl

section Step

variable {account : Account} {positions : Book} {request : FillRequest}
  {config : AccountingConfig} {result : FillResult} {d : ℕ}

theorem SameValuation.bookCost_eq {p q : Position} (h : SameValuation p q) :
    bookCost (some p) = bookCost (some q) := by
  show p.size * p.entryPrice = q.size * q.entryPrice
  rw [h.size, h.entryPrice]

theorem SameValuation.worth_eq {p q : Position} (h : SameValuation p q) (price : ℚ) :
    worth price (some p) = worth price (some q) := by
  simp only [worth, h.side, h.size, h.entryPrice]

theorem SameValuation.positionValue_eq {p q : Position} (h : SameValuation p q) (price : ℚ) :
    positionValue p price = positionValue q price := by
  simp only [positionValue, h.side, h.size, h.entryPrice]

theorem bookCost_of_not_open {position : Position} (h : ¬ position.isOpen) :
    bookCost (some position) = 0 := by
  have h_zero : position.size = 0 := le_antisymm (not_lt.mp h) position.size_nonneg
  show position.size * position.entryPrice = 0
  rw [h_zero, zero_mul]

theorem FillTrace.bookCost_after (trace : FillTrace account positions request config result) :
    bookCost (openPosition result.positions request.symbol)
      = bookCost (some trace.change.newPosition) := by
  rw [trace.openPosition_self, ← trace.sameValuation.bookCost_eq]
  split
  · rfl
  · rename_i h_closed
    rw [bookCost_of_not_open h_closed]
    rfl

theorem FillTrace.record_figures (trace : FillTrace account positions request config result) :
    let record : FillRecord := ⟨account, positions, request, result⟩
    record.quantity config = trace.figures.fillQty ∧ record.price config = trace.figures.fillPrice ∧
      record.release config = trace.figures.release ∧ record.oldValue config = trace.oldValue ∧
      record.newValue config = trace.newValue := by
  intro record
  obtain ⟨h_qty, h_price, _, h_release, _⟩ := fillFigures_eq_ok.mp trace.figures_eq
  have h_fillPrice : record.price config = trace.figures.fillPrice := by
    show (config.price request.price).toOption.getD 0 = _
    rw [h_price]
    rfl
  refine ⟨?_, h_fillPrice, ?_, ?_, ?_⟩
  · show (config.qty request.quantity).toOption.getD 0 = _
    rw [h_qty]
    rfl
  · show (config.money request.releaseFromLocked).toOption.getD 0 = _
    rw [h_release]
    rfl
  · unfold FillRecord.oldValue
    rw [h_fillPrice, show oldValueOf config _ record.existing = _ from trace.oldValue_eq]
    rfl
  · unfold FillRecord.newValue
    rw [h_fillPrice, trace.sameValuation.positionValue_eq, trace.newValue_eq]
    rfl

/-- A fill takes its fee off the uncommitted cash, and adds what it rounded. -/
theorem uncommitted_of_applyFill
    (h_fill : applyFill account positions request config = .ok result)
    (h_size : ∀ position ∈ openPosition positions request.symbol,
      config.qty position.size = .ok position.size)
    (h_d : config.minorUnitExponent ≤ d) (h_grid : AccountOnGrid d account)
    (h_fits : FillRecord.Fits config ⟨account, positions, request, result⟩ d) :
    AccountOnGrid d result.account ∧
      uncommitted result.account result.positions request.symbol
        = uncommitted account positions request.symbol - result.fee
          + FillRecord.rounding config ⟨account, positions, request, result⟩ := by
  obtain ⟨trace⟩ := applyFill_eq_ok h_fill
  obtain ⟨_, _, h_fee, h_release, h_pos, _⟩ := fillFigures_eq_ok.mp trace.figures_eq
  have h_case := changePosition_cases trace.change_eq
  obtain ⟨h_quantity, h_price, h_released, h_old, h_new⟩ := trace.record_figures
  have h_realized_grid : OnGrid d trace.change.realized := h_case.realized_onGrid.mono h_d
  have h_old_grid : OnGrid d trace.oldValue := by
    have h_value := trace.oldValue_eq
    cases h_existing : openPosition positions request.symbol with
    | none =>
      rw [h_existing] at h_value
      rw [show trace.oldValue = 0 from (ok.inj h_value).symm]
      exact .zero d
    | some position =>
      rw [h_existing] at h_value
      exact (AccountingConfig.quantizeAt_onGrid h_value).mono h_d
  unfold FillRecord.Fits at h_fits
  rw [h_released, h_old, h_new, trace.fee_eq, trace.realizedPnl_eq] at h_fits
  have a1 := abs_nonneg account.availableBalance
  have a2 := abs_nonneg account.lockedBalance
  have a3 := abs_nonneg account.realizedPnl
  have a4 := abs_nonneg trace.figures.release
  have a5 := abs_nonneg trace.figures.fillFee
  have a6 := abs_nonneg trace.newValue
  have a7 := abs_nonneg trace.oldValue
  have a8 := abs_nonneg trace.change.realized
  obtain ⟨h_available, h_locked⟩ := trace.balances_of_small h_d h_grid.available h_grid.locked
    h_old_grid (by linarith)
  have h_realized : result.account.realizedPnl
      = account.realizedPnl + trace.change.realized := by
    rw [trace.realized_eq]
    exact Context.round_of_within ((Within.self h_grid.realized).add (Within.self h_realized_grid))
      (by linarith)
  have h_release_grid : OnGrid d trace.figures.release :=
    (AccountingConfig.quantizeAt_onGrid h_release).mono h_d
  have h_fee_grid : OnGrid d trace.figures.fillFee :=
    (AccountingConfig.quantizeAt_onGrid h_fee).mono h_d
  have h_new_grid : OnGrid d trace.newValue :=
    (AccountingConfig.quantizeAt_onGrid trace.newValue_eq).mono h_d
  have h_exact := h_case.reconciles h_pos trace.qty_fillQty h_size
  constructor
  · exact {
      available := by
        rw [h_available]
        exact ((h_grid.available.add h_release_grid).sub (h_new_grid.sub h_old_grid)).sub h_fee_grid
      locked := by
        rw [h_locked]
        exact h_grid.locked.sub h_release_grid
      realized := by
        rw [h_realized]
        exact h_grid.realized.add h_realized_grid }
  · have h_cash : FillRecord.cashRounding config ⟨account, positions, request, result⟩
        = (trace.oldValue - worth trace.figures.fillPrice (openPosition positions request.symbol))
          - (trace.newValue - worth trace.figures.fillPrice (some trace.change.newPosition)) := by
      unfold FillRecord.cashRounding
      rw [h_price, h_old, h_new, trace.sameValuation.worth_eq]
      rfl
    have h_profit : FillRecord.realizedRounding config ⟨account, positions, request, result⟩
        = trace.change.realized - profitOn trace.figures.fillPrice
          (closedBy (sideForOrder request.side) trace.figures.fillQty
            (openPosition positions request.symbol)) (openPosition positions request.symbol) := by
      unfold FillRecord.realizedRounding FillRecord.closed
      rw [h_price, h_quantity, ← trace.realizedPnl_eq]
      rfl
    have h_entry : FillRecord.entryRounding config ⟨account, positions, request, result⟩
        = entryShift (sideForOrder request.side) trace.figures.fillQty trace.figures.fillPrice
          trace.change.newPosition (openPosition positions request.symbol) := by
      unfold FillRecord.entryRounding
      rw [h_price, h_quantity]
      unfold entryShift
      simp only [trace.sameValuation.size, trace.sameValuation.entryPrice]
      rfl
    unfold uncommitted FillRecord.rounding
    rw [h_cash, h_profit, h_entry, trace.bookCost_after, h_available, h_locked, h_realized,
      trace.fee_eq]
    linarith

end Step

/-! ## Round trips -/

section Run

variable {config : AccountingConfig} {account account' : Account} {positions positions' : Book}
  {records : List FillRecord} {symbol : String} {d : ℕ}

/-- A run of fills on one symbol takes its fees off the uncommitted cash, and adds what its
    fills rounded. -/
theorem FillRun.uncommitted_eq (h : FillRun config account positions records account' positions')
    (h_symbol : ∀ record ∈ records, record.request.symbol = symbol)
    (h_size : ∀ position ∈ openPosition positions symbol,
      config.qty position.size = .ok position.size)
    (h_d : config.minorUnitExponent ≤ d) (h_grid : AccountOnGrid d account)
    (h_fits : ∀ record ∈ records, record.Fits config d) :
    uncommitted account' positions' symbol
      = uncommitted account positions symbol
        - (records.map fun record => record.result.fee).sum
        + (records.map fun record => record.rounding config).sum := by
  induction h with
  | nil => simp
  | @cons account account' positions positions' request result records applied rest ih =>
    rw [List.forall_mem_cons] at h_symbol h_fits
    obtain ⟨rfl, h_symbols⟩ := h_symbol
    obtain ⟨h_grid', h_step⟩ := uncommitted_of_applyFill applied h_size h_d h_grid h_fits.1
    have h_size' : ∀ position ∈ openPosition result.positions request.symbol,
        config.qty position.size = .ok position.size := by
      obtain ⟨trace⟩ := applyFill_eq_ok applied
      intro position h_open
      rw [trace.openPosition_self] at h_open
      split at h_open
      · cases h_open
        exact trace.qty_size
      · cases h_open
    rw [ih h_symbols h_size' h_grid' h_fits.2, h_step, List.map_cons, List.map_cons, List.sum_cons,
      List.sum_cons]
    ring

end Run

/-! ## An entry price that was rounded -/

/-- One is bought at 100.00 and two at 100.01, and the three are sold at 100.02. -/
def roundedEntry : List FillRequest :=
  [freeFill .buy 1 100, freeFill .buy 2 (10001 / 100), freeFill .sell 3 (10002 / 100)]

end VyomQuant.Paper.Accounting
