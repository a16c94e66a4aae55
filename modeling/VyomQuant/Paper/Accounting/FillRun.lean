/-
  VyomQuant.Paper.Accounting.FillRun

  Runs of fills on one account, each applied to what the one before it left, and what the
  closed trades of a run account for.

  Along a run that starts flat the size of every open position is one that the quantizer
  leaves alone (`SizesSettled`), so what a fill adds to a position and takes from it is exact.
-/

import VyomQuant.Paper.Accounting.Equity

namespace VyomQuant.Paper.Accounting

open Decimal Except

/-! ## Runs -/

/-- One fill of a run: what it was applied to, and what it made of it. -/
structure FillRecord where
  account : Account
  positions : Book
  request : FillRequest
  result : FillResult

/-- The fills of a run, from an account and its book to what they leave. -/
inductive FillRun (config : AccountingConfig) : Account → Book → List FillRecord → Account → Book → Prop
  | nil {account : Account} {positions : Book} : FillRun config account positions [] account positions
  | cons {account account' : Account} {positions positions' : Book} {request : FillRequest}
      {result : FillResult} {records : List FillRecord}
      (applied : applyFill account positions request config = .ok result)
      (rest : FillRun config result.account result.positions records account' positions') :
      FillRun config account positions (⟨account, positions, request, result⟩ :: records)
        account' positions'

def Flat (positions : Book) : Prop := ∀ symbol, openPosition positions symbol = none

/-- The size of every open position is at the quantity precision. -/
def SizesSettled (config : AccountingConfig) (positions : Book) : Prop :=
  ∀ symbol position, openPosition positions symbol = some position →
    config.qty position.size = .ok position.size

theorem Flat.sizesSettled {positions : Book} (h : Flat positions) (config : AccountingConfig) :
    SizesSettled config positions := by
  intro symbol position h_open
  rw [h symbol] at h_open
  cases h_open

variable {symbol : String} {side : PositionSide} {fillQty fillPrice fillFee : ℚ}
   {filledAt : Option Instant} {change : PositionChange}

section Step

variable {account : Account} {positions : Book} {request : FillRequest}
  {config : AccountingConfig} {result : FillResult}

theorem FillTrace.openPosition_self (trace : FillTrace account positions request config result) :
    openPosition result.positions request.symbol =
      if result.position.isOpen then some result.position else none := by
  unfold openPosition
  rw [trace.positions_eq, ← trace.key_eq, KeyedList.get?_put_self]
  split
  · rename_i h_open
    exact Option.filter_some_pos (by simpa using h_open)
  · rename_i h_open
    exact Option.filter_some_neg (by simpa using h_open)

theorem FillTrace.openPosition_other (trace : FillTrace account positions request config result)
    (h : symbol ≠ request.symbol) :
    openPosition result.positions symbol = openPosition positions symbol := by
  unfold openPosition
  rw [trace.positions_eq, KeyedList.get?_put, trace.key_eq, if_neg h]

theorem PositionCase.qty_size {existing : Option Position}
    (h : PositionCase symbol side fillQty fillPrice fillFee config filledAt existing change)
    (h_qty : config.qty fillQty = .ok fillQty) :
    config.qty change.newPosition.size = .ok change.newPosition.size := by
  cases h with
  | opened h_new => rw [h_new]; exact h_qty
  | added _ h_size _ h_new => rw [h_new]; exact AccountingConfig.quantizeAt_idem h_size
  | reduced _ _ _ h_remaining h_new =>
    rw [h_new]
    exact AccountingConfig.quantizeAt_idem h_remaining
  | reversed _ _ _ h_surplus h_new =>
    rw [h_new]
    exact AccountingConfig.quantizeAt_idem h_surplus

theorem PositionCase.realized_onGrid {existing : Option Position}
    (h : PositionCase symbol side fillQty fillPrice fillFee config filledAt existing change) :
    OnGrid config.minorUnitExponent change.realized := by
  cases h with
  | opened _ => exact .zero _
  | added _ _ _ _ => exact .zero _
  | reduced _ _ h_realized _ _ => exact AccountingConfig.quantizeAt_onGrid h_realized
  | reversed _ _ h_realized _ _ => exact AccountingConfig.quantizeAt_onGrid h_realized

theorem FillTrace.qty_fillQty (trace : FillTrace account positions request config result) :
    config.qty trace.figures.fillQty = .ok trace.figures.fillQty :=
  AccountingConfig.quantizeAt_idem (fillFigures_eq_ok.mp trace.figures_eq).1

theorem FillTrace.qty_size (trace : FillTrace account positions request config result) :
    config.qty result.position.size = .ok result.position.size := by
  rw [trace.sameValuation.size]
  exact (changePosition_cases trace.change_eq).qty_size trace.qty_fillQty

theorem SizesSettled.step (h : SizesSettled config positions)
    (h_fill : applyFill account positions request config = .ok result) :
    SizesSettled config result.positions := by
  obtain ⟨trace⟩ := applyFill_eq_ok h_fill
  intro symbol position h_open
  by_cases h_symbol : symbol = request.symbol
  · rw [h_symbol, trace.openPosition_self] at h_open
    split at h_open
    · cases h_open
      exact trace.qty_size
    · cases h_open
  · rw [trace.openPosition_other h_symbol] at h_open
    exact h symbol position h_open

end Step

/-! ## What a fill closes -/

/-- The quantity that a fill takes off the open position it meets. -/
def closedBy (side : PositionSide) (fillQty : ℚ) : Option Position → ℚ
  | none => 0
  | some position => if position.side = side then 0 else min fillQty position.size

/-- The fill is on the other side of the open position and smaller. -/
def ClosesPart (side : PositionSide) (fillQty : ℚ) (existing : Option Position) : Prop :=
  ∃ position ∈ existing, position.side ≠ side ∧ fillQty < position.size

instance (side : PositionSide) (fillQty : ℚ) (existing : Option Position) :
    Decidable (ClosesPart side fillQty existing) :=
  inferInstanceAs (Decidable (∃ position ∈ existing, position.side ≠ side ∧ fillQty < position.size))

/-- The realized profit on the trade that a fill closes. -/
def tradeRealized (trade : Option ClosedTrade) : ℚ := (trade.map ClosedTrade.realizedPnl).getD 0

def tradeQuantity (trade : Option ClosedTrade) : ℚ := (trade.map ClosedTrade.quantity).getD 0

/-- A fill that closes only part of a position closes no trade; every other fill accounts for
    what it closes on the trade it closes, if it closes any. -/
theorem PositionCase.closedTrade {config : AccountingConfig} {existing : Option Position}
    (h : PositionCase symbol side fillQty fillPrice fillFee config filledAt existing change)
    (h_pos : 0 < fillQty) (h_qty : config.qty fillQty = .ok fillQty)
    (h_size : ∀ position ∈ existing, config.qty position.size = .ok position.size) :
    if ClosesPart side fillQty existing then
      change.closedTrade = none ∧ 0 < closedBy side fillQty existing
    else
      tradeRealized change.closedTrade = change.realized ∧
        tradeQuantity change.closedTrade = closedBy side fillQty existing := by
  cases h with
  | opened h_new =>
    rw [if_neg (by simp [ClosesPart])]
    exact ⟨rfl, rfl⟩
  | added h_side _ _ h_new =>
    rw [if_neg (by simp [ClosesPart, h_side]), closedBy, if_pos h_side]
    exact ⟨rfl, rfl⟩
  | @reduced position newPosition realized remaining h_side h_le h_realized h_remaining h_new =>
    have h_closed : closedBy side fillQty (some position) = fillQty := by
      rw [closedBy, if_neg h_side, min_eq_left h_le]
    have h_exact : remaining = position.size - fillQty :=
      Context.quantize_sub_eq (AccountingConfig.quantizeAt_eq_ok (h_size position rfl))
        (AccountingConfig.quantizeAt_eq_ok h_qty) position.size_nonneg h_pos.le
        (AccountingConfig.quantizeAt_eq_ok h_remaining)
    rcases lt_or_eq_of_le h_le with h_part | h_whole
    · rw [if_pos ⟨position, rfl, h_side, h_part⟩, h_closed]
      refine ⟨if_neg ?_, h_pos⟩
      rw [h_exact]
      linarith
    · rw [if_neg (by simp [ClosesPart, h_whole]), h_closed]
      have h_zero : remaining = 0 := by linarith
      rw [if_pos h_zero]
      exact ⟨rfl, rfl⟩
  | reversed h_side h_lt _ _ h_new =>
    rw [if_neg (by simp [ClosesPart, h_lt.le]), closedBy, if_neg h_side, min_eq_right h_lt.le]
    exact ⟨rfl, rfl⟩

namespace FillRecord

variable (config : AccountingConfig) (record : FillRecord)

/-- The position that the fill met. -/
def existing : Option Position := openPosition record.positions record.request.symbol

/-- The quantity of the fill at the quantity precision. -/
def quantity : ℚ := (config.qty record.request.quantity).toOption.getD 0

def closed : ℚ := closedBy (sideForOrder record.request.side) (record.quantity config) record.existing

/-- The fill is a partial close. -/
def IsPartial : Prop :=
  ClosesPart (sideForOrder record.request.side) (record.quantity config) record.existing

instance : Decidable (record.IsPartial config) :=
  inferInstanceAs (Decidable (ClosesPart _ _ _))

/-- What a partial close realizes and closes; nothing, for any other fill. -/
def partialRealized : ℚ := if record.IsPartial config then record.result.realizedPnl else 0

def partialQuantity : ℚ := if record.IsPartial config then record.closed config else 0

end FillRecord

section Run

variable {config : AccountingConfig} {account account' : Account} {positions positions' : Book}
  {records : List FillRecord}

theorem closedTrade_of_applyFill {request : FillRequest} {result : FillResult}
    (h_sizes : SizesSettled config positions)
    (h_fill : applyFill account positions request config = .ok result) :
    let record : FillRecord := ⟨account, positions, request, result⟩
    tradeRealized result.closedTrade + record.partialRealized config = result.realizedPnl ∧
      tradeQuantity result.closedTrade + record.partialQuantity config = record.closed config ∧
      (record.IsPartial config → 0 < record.partialQuantity config) := by
  intro record
  obtain ⟨trace⟩ := applyFill_eq_ok h_fill
  obtain ⟨h_qty, _, _, _, h_pos, _⟩ := fillFigures_eq_ok.mp trace.figures_eq
  have h_quantity : record.quantity config = trace.figures.fillQty := by
    show (config.qty request.quantity).toOption.getD 0 = _
    rw [h_qty]
    rfl
  have h_step := (changePosition_cases trace.change_eq).closedTrade h_pos trace.qty_fillQty
    fun position h_open => h_sizes request.symbol position h_open
  rw [← h_quantity, ← trace.closedTrade_eq, ← trace.realizedPnl_eq] at h_step
  unfold FillRecord.partialRealized FillRecord.partialQuantity
  by_cases h_part : record.IsPartial config
  · obtain ⟨h_none, h_closed⟩ := (if_pos h_part).mp h_step
    rw [if_pos h_part, if_pos h_part, h_none]
    exact ⟨zero_add _, zero_add _, fun _ => h_closed⟩
  · obtain ⟨h_realized, h_closed⟩ := (if_neg h_part).mp h_step
    rw [if_neg h_part, if_neg h_part, h_realized, h_closed]
    exact ⟨add_zero _, add_zero _, fun h => absurd h h_part⟩

theorem FillRun.realizedPnl_eq (h : FillRun config account positions records account' positions')
    (h_grid : OnGrid config.minorUnitExponent account.realizedPnl)
    (h_fits : |account.realizedPnl| + (records.map fun record => |record.result.realizedPnl|).sum
      < 10 ^ ((accountingContext.prec : ℤ) - config.minorUnitExponent)) :
    account'.realizedPnl
      = account.realizedPnl + (records.map fun record => record.result.realizedPnl).sum := by
  induction h with
  | nil => simp
  | @cons account account' positions positions' request result records applied rest ih =>
    rw [List.map_cons, List.sum_cons] at h_fits ⊢
    obtain ⟨trace⟩ := applyFill_eq_ok applied
    have h_realized : OnGrid config.minorUnitExponent result.realizedPnl := by
      rw [trace.realizedPnl_eq]
      exact (changePosition_cases trace.change_eq).realized_onGrid
    have h_rest : 0 ≤ (records.map fun record => |record.result.realizedPnl|).sum :=
      List.sum_nonneg (by simp)
    have h_sum : result.account.realizedPnl = account.realizedPnl + result.realizedPnl := by
      rw [trace.realized_eq, trace.realizedPnl_eq]
      refine accountingContext.round_of_onGrid (h_grid.add (trace.realizedPnl_eq ▸ h_realized)) ?_
      have h_abs := abs_add_le account.realizedPnl trace.change.realized
      rw [trace.realizedPnl_eq] at h_fits
      linarith
    have h_abs := abs_add_le account.realizedPnl result.realizedPnl
    rw [ih (h_sum ▸ h_grid.add h_realized) (by rw [h_sum]; linarith), h_sum, add_assoc]

theorem FillRun.sums (h : FillRun config account positions records account' positions')
    (h_sizes : SizesSettled config positions) :
    (records.map fun record => tradeRealized record.result.closedTrade).sum
        + (records.map fun record => record.partialRealized config).sum
      = (records.map fun record => record.result.realizedPnl).sum ∧
    (records.map fun record => tradeQuantity record.result.closedTrade).sum
        + (records.map fun record => record.partialQuantity config).sum
      = (records.map fun record => record.closed config).sum ∧
    ∀ record ∈ records, record.IsPartial config → 0 < record.partialQuantity config := by
  induction h with
  | nil => simp
  | cons applied rest ih =>
    obtain ⟨h_realized, h_quantity, h_parts⟩ := closedTrade_of_applyFill h_sizes applied
    obtain ⟨ih_realized, ih_quantity, ih_parts⟩ := ih (h_sizes.step applied)
    simp only [List.map_cons, List.sum_cons, List.forall_mem_cons]
    exact ⟨by linarith, by linarith, h_parts, ih_parts⟩

/-- What the closed trades of a run account for.  A fill that takes the size to zero records
    what it closed and realized itself, and a partial close records no trade: the trades and
    the partial closes together make up the change of the account, and the trades alone do
    exactly when the run closes no position in parts. -/
theorem closedTrades_of_run (h_run : FillRun config account positions records account' positions')
    (h_flat : Flat positions) (h_grid : OnGrid config.minorUnitExponent account.realizedPnl)
    (h_fits : |account.realizedPnl| + (records.map fun record => |record.result.realizedPnl|).sum
      < 10 ^ ((accountingContext.prec : ℤ) - config.minorUnitExponent)) :
    (records.map fun record => tradeRealized record.result.closedTrade).sum
        + (records.map fun record => record.partialRealized config).sum
      = account'.realizedPnl - account.realizedPnl ∧
    (records.map fun record => tradeQuantity record.result.closedTrade).sum
        + (records.map fun record => record.partialQuantity config).sum
      = (records.map fun record => record.closed config).sum ∧
    (((records.map fun record => tradeRealized record.result.closedTrade).sum
          = account'.realizedPnl - account.realizedPnl ∧
        (records.map fun record => tradeQuantity record.result.closedTrade).sum
          = (records.map fun record => record.closed config).sum) ↔
      ∀ record ∈ records, ¬ record.IsPartial config) := by
  obtain ⟨h_realized, h_quantity, h_parts⟩ := h_run.sums (h_flat.sizesSettled config)
  have h_change := h_run.realizedPnl_eq h_grid h_fits
  refine ⟨by linarith, h_quantity, ?_⟩
  constructor
  · rintro ⟨_, h_trades⟩ record h_mem h_part
    -- The partial closes would add up to nothing, and one of them is positive.
    have h_nonneg : ∀ q ∈ records.map fun record => record.partialQuantity config, 0 ≤ q := by
      intro q h_q
      obtain ⟨other, h_other, rfl⟩ := List.mem_map.mp h_q
      by_cases h : other.IsPartial config
      · exact (h_parts other h_other h).le
      · exact (if_neg h).ge
    have h_le := List.single_le_sum h_nonneg _ (List.mem_map_of_mem h_mem)
    have h_pos := h_parts record h_mem h_part
    linarith
  · intro h_none
    have h_zero : (records.map fun record => record.partialRealized config).sum = 0 ∧
        (records.map fun record => record.partialQuantity config).sum = 0 := by
      refine ⟨List.sum_eq_zero ?_, List.sum_eq_zero ?_⟩
      · intro q h_q
        obtain ⟨record, h_mem, rfl⟩ := List.mem_map.mp h_q
        exact if_neg (h_none record h_mem)
      · intro q h_q
        obtain ⟨record, h_mem, rfl⟩ := List.mem_map.mp h_q
        exact if_neg (h_none record h_mem)
    exact ⟨by linarith, by linarith⟩

end Run

/-! ## A position closed in two parts -/

/-- The run of some requests, with the account and the book it leaves. -/
def fillAll (config : AccountingConfig) (account : Account) (positions : Book) :
    List FillRequest → Except AccountingError (List FillRecord × Account × Book)
  | [] => .ok ([], account, positions)
  | request :: rest => do
    let result ← applyFill account positions request config
    let (records, final) ← fillAll config result.account result.positions rest
    return (⟨account, positions, request, result⟩ :: records, final)

theorem fillRun_of_fillAll {config : AccountingConfig} {account account' : Account}
    {positions positions' : Book} {requests : List FillRequest} {records : List FillRecord}
    (h : fillAll config account positions requests = .ok (records, account', positions')) :
    FillRun config account positions records account' positions' := by
  induction requests generalizing account positions records with
  | nil =>
    cases h
    exact .nil
  | cons request rest ih =>
    simp only [fillAll, bind_eq_ok, pure_eq_ok] at h
    obtain ⟨result, h_result, ⟨records', account'', positions''⟩, h_rest, h_eq⟩ := h
    cases h_eq
    exact .cons h_result (ih h_rest)

/-- Cents, eight decimals of quantity, and no fee. -/
def freeConfig : AccountingConfig :=
  ⟨0, 0, .halfEven, .weightedAverage, 2, 8, 2, le_refl 0, le_refl 0⟩

def fundedAccount : Account := ⟨1000, 0, 0, 1000, "USD"⟩

def freeFill (side : OrderSide) (quantity price : ℚ) : FillRequest :=
  ⟨"BTC/USDT", side, quantity, price, 0, none, 0⟩

theorem flat_empty : Flat KeyedList.empty := fun _ => rfl

/-- Two are bought, and sold one by one. -/
def scaleOut : List FillRequest :=
  [freeFill .buy 2 100, freeFill .sell 1 110, freeFill .sell 1 120]

/-- The trade of a position sold in two parts carries its last part: thirty were realized on
    two, and the trade says twenty on one. -/
theorem scaleOut_trade :
    ∃ records account' positions',
      fillAll freeConfig fundedAccount KeyedList.empty scaleOut = .ok (records, account', positions') ∧
      openPosition positions' "BTC/USDT" = none ∧
      account'.realizedPnl - fundedAccount.realizedPnl = 30 ∧
      (records.map fun record => tradeRealized record.result.closedTrade).sum = 20 ∧
      (records.map fun record => record.closed freeConfig).sum = 2 ∧
      (records.map fun record => tradeQuantity record.result.closedTrade).sum = 1 := by
  have h_run : (fillAll freeConfig fundedAccount KeyedList.empty scaleOut).map (fun run =>
      (openPosition run.2.2 "BTC/USDT", run.2.1.realizedPnl - fundedAccount.realizedPnl,
        (run.1.map fun record => tradeRealized record.result.closedTrade).sum,
        (run.1.map fun record => record.closed freeConfig).sum,
        (run.1.map fun record => tradeQuantity record.result.closedTrade).sum))
      = .ok (none, 30, 20, 2, 1) := by decide +kernel
  cases h : fillAll freeConfig fundedAccount KeyedList.empty scaleOut with
  | error e =>
    rw [h] at h_run
    cases h_run
  | ok run =>
    rw [h] at h_run
    simp only [Except.map, Except.ok.injEq, Prod.mk.injEq] at h_run
    exact ⟨run.1, run.2.1, run.2.2, rfl, h_run⟩

/-- One is bought and sold. -/
theorem closedTrades_of_run_sample :
    ∃ records account' positions',
      FillRun freeConfig fundedAccount KeyedList.empty records account' positions' ∧
      (records.map fun record => tradeRealized record.result.closedTrade).sum
          + (records.map fun record => record.partialRealized freeConfig).sum
        = account'.realizedPnl - fundedAccount.realizedPnl := by
  have h_run : (fillAll freeConfig fundedAccount KeyedList.empty
      [freeFill .buy 1 100, freeFill .sell 1 110]).map (fun run =>
        decide (|fundedAccount.realizedPnl|
          + (run.1.map fun record => |record.result.realizedPnl|).sum
            < 10 ^ ((accountingContext.prec : ℤ) - freeConfig.minorUnitExponent)))
      = .ok true := by decide +kernel
  cases h : fillAll freeConfig fundedAccount KeyedList.empty
      [freeFill .buy 1 100, freeFill .sell 1 110] with
  | error e =>
    rw [h] at h_run
    cases h_run
  | ok run =>
    rw [h] at h_run
    simp only [Except.map, Except.ok.injEq, decide_eq_true_eq] at h_run
    exact ⟨run.1, run.2.1, run.2.2, fillRun_of_fillAll h,
      (closedTrades_of_run (fillRun_of_fillAll h) flat_empty (.zero _) h_run).1⟩

end VyomQuant.Paper.Accounting
