/-
  VyomQuant.Paper.Simulator.Funds

  Whether the funds check of a market order covers its fill.

  `submit_intent` accepts a market order when `required_funds` of its reference is
  available, and then fills it at the slipped and quantized price, with a fee of its
  own.  The reservation is one rounding of `quantity * reference * (1 + fee + slip)`;
  the fill takes the rounded change of the position's value and a separately rounded
  fee on the slipped price.  `marketFill_covered_iff` compares the two: the fill of an
  accepted order is never an overdraft exactly when the one is below the other.
-/

import VyomQuant.Paper.Accounting.Overdraft
import VyomQuant.Paper.Simulator.Submit

namespace VyomQuant.Paper

open Decimal Except
open Accounting (Instant OrderSide Account AccountingConfig Book Position FillResult accountingContext cashDelta
  oldValueOf valueAfter sideForOrder openPosition overdraft)

/-- The fill of an accepted market order on an account image: `market_fill_price` of the
    reference, `fee_amount` of that price, and the engine's `apply_fill`. -/
def marketOrderFill (config : SessionConfig) (account : Account) (positions : Book)
    (order : OrderRow) (intent : OrderIntent) (reference : ℚ) (filledAt : Instant)
    (marketEventId : Option String) (seriesIndex : ℤ) : Except PaperError FillResult := do
  let price ← marketFillPrice reference order.side config
  let call := marketFillCall order.id intent price reference filledAt marketEventId seriesIndex
  let figures ← fillFigures config call
  let fee ← ofAccounting (feeAmount figures.1 figures.2 config)
  engineFill account positions (fillRequestFor call order figures.1 figures.2 fee 0) config

/-- The refusal of a fill that overdraws the available balance. -/
def fillOverdraft : PaperError := .invariantViolation .availableBalance .applyFill

/-! ## When the engine refuses the fill as an overdraft -/

theorem avoids_ofAccounting {α : Type} (x : Except Accounting.AccountingError α) :
    Avoids fillOverdraft (ofAccounting x) := by
  cases x with
  | ok a => exact Avoids.ok a
  | error e => exact Avoids.error (by simp [fillOverdraft])

theorem avoids_marketFillPrice (reference : ℚ) (side : OrderSide) (config : SessionConfig) :
    Avoids fillOverdraft (marketFillPrice reference side config) := by
  unfold marketFillPrice
  split
  · exact Avoids.error (by simp [fillOverdraft])
  · exact avoids_ofAccounting _

theorem avoids_simulatorFigures (config : SessionConfig) (call : FillCall) :
    Avoids fillOverdraft (fillFigures config call) := by
  refine Avoids.bind (avoids_ofAccounting _) fun _ _ => ?_
  refine Avoids.bind (avoids_ofAccounting _) fun _ _ => ?_
  refine Avoids.bind (Avoids.refuseIf (by simp [fillOverdraft])) fun _ _ => ?_
  refine Avoids.bind (Avoids.refuseIf (by simp [fillOverdraft])) fun _ _ => ?_
  exact Avoids.pure _

/-- The closing assert of a fill cannot name the available balance: the engine has
    checked it. -/
theorem engineFill_eq_overdraft {account : Account} {positions : Book}
    {request : Accounting.FillRequest} {config : SessionConfig} :
    engineFill account positions request config = .error fillOverdraft ↔
      Accounting.applyFill account positions request config.accounting = .error overdraft := by
  have h_rest : ∀ result, Accounting.applyFill account positions request config.accounting
      = .ok result → Avoids overdraft (Accounting.assertInvariants result.account
        result.positions.items (Function.update (Accounting.lastValidatedPrices result.positions)
          request.symbol (some request.price)) config.accounting) := by
    intro result h_result
    obtain ⟨trace⟩ := Accounting.applyFill_eq_ok h_result
    exact Accounting.avoids_assertInvariants trace.available_nonneg _ _
  simp only [engineFill]
  split
  · rename_i result h_outcome
    simp only [bind_eq_ok] at h_outcome
    obtain ⟨_, h_result, _⟩ := h_outcome
    rw [h_result]
    exact iff_of_false (by simp) (by simp)
  · rename_i invariant h_outcome
    constructor
    · intro h_eq
      obtain rfl : invariant = .availableBalance := by simpa [fillOverdraft] using h_eq
      by_contra h_avoids
      obtain ⟨result, h_result, h_error⟩ := (bind_eq_error_of_avoids h_avoids).mp h_outcome
      obtain ⟨_, _, h_pure⟩ := (bind_eq_error_of_avoids (h_rest result h_result)).mp h_error
      cases h_pure
    · intro h_eq
      rw [h_eq] at h_outcome
      cases h_outcome
      rfl
  · rename_i e h_other h_outcome
    refine iff_of_false (by simp [fillOverdraft]) fun h_eq => ?_
    rw [h_eq] at h_outcome
    cases h_outcome
    exact h_other .availableBalance rfl

/-! ## The funds check against the fill -/

/-- The rounded reservation of the funds check is no less than the cash of the fill: the
    rounded change of the position's value at the slipped price, plus the rounded fee. -/
def FundsCover (config : SessionConfig) (side : OrderSide) (quantity reference : ℚ)
    (existing : Option Position) : Prop :=
  ∀ reserved price qty fee oldValue newValue,
    config.accounting.money (accountingContext.mul (accountingContext.mul quantity reference)
      (accountingContext.add (accountingContext.add 1 config.feeRate) config.slippageRate))
      = .ok reserved →
    config.accounting.price (ambientContext.mul reference
      (ambientContext.add 1 (slippageDrift config side))) = .ok price → 0 < price →
    config.accounting.qty quantity = .ok qty → 0 < qty →
    config.accounting.money (ambientContext.mul (ambientContext.mul qty price) config.feeRate)
      = .ok fee →
    oldValueOf config.accounting price existing = .ok oldValue →
    valueAfter config.accounting (sideForOrder side) qty price existing = .ok newValue →
    -reserved ≤ cashDelta newValue oldValue fee

section Covered

variable {config : SessionConfig} {account : Account} {positions : Book} {order : OrderRow}
  {intent : OrderIntent} {reference : ℚ} {filledAt : Instant} {marketEventId : Option String}
  {seriesIndex : ℤ}

theorem feeAmount_of_quantized {qty price : ℚ} (h_qty : config.accounting.qty qty = .ok qty)
    (h_price : config.accounting.price price = .ok price) :
    feeAmount qty price config = config.accounting.money
      (ambientContext.mul (ambientContext.mul qty price) config.feeRate) := by
  simp only [feeAmount, h_qty, h_price]
  rfl

theorem engineFigures_iff {call : FillCall} {qty price fee : ℚ} {figures : Accounting.FillFigures}
    (h_qty : config.accounting.qty qty = .ok qty) (h_qty_pos : 0 < qty)
    (h_price : config.accounting.price price = .ok price) (h_price_pos : 0 < price)
    (h_fee : config.accounting.money fee = .ok fee) (h_fee_nonneg : 0 ≤ fee) :
    Accounting.fillFigures (fillRequestFor call order qty price fee 0) config.accounting
        = .ok figures ↔ figures = ⟨qty, price, fee, 0⟩ := by
  have h_zero : config.accounting.money 0 = .ok 0 := by
    simp [AccountingConfig.money, AccountingConfig.quantizeAt, Except.ofOption]
  rw [Accounting.fillFigures_eq_ok]
  simp only [fillRequestFor, h_qty, h_price, h_fee, h_zero, ok.injEq]
  constructor
  · rintro ⟨h₁, h₂, h₃, h₄, _⟩
    cases figures
    simp_all
  · rintro rfl
    exact ⟨rfl, rfl, rfl, rfl, h_qty_pos, h_price_pos, h_fee_nonneg, le_rfl⟩

/-- What is known when the fill of a market order is refused as an overdraft. -/
theorem marketOrderFill_eq_overdraft (h_ref : 0 < reference)
    (h_symbol : Accounting.isBlank order.symbol = false) :
    marketOrderFill config account positions order intent reference filledAt marketEventId
        seriesIndex = .error fillOverdraft ↔
      ∃ price qty fee oldValue newValue,
        config.accounting.price (ambientContext.mul reference
          (ambientContext.add 1 (slippageDrift config order.side))) = .ok price ∧ 0 < price ∧
        config.accounting.qty intent.quantity = .ok qty ∧ 0 < qty ∧
        config.accounting.money (ambientContext.mul (ambientContext.mul qty price) config.feeRate)
          = .ok fee ∧
        oldValueOf config.accounting price (openPosition positions order.symbol)
          = .ok oldValue ∧
        valueAfter config.accounting (sideForOrder order.side) qty price
          (openPosition positions order.symbol) = .ok newValue ∧
        0 ≤ accountingContext.round account.lockedBalance ∧
        accountingContext.add (accountingContext.round account.availableBalance)
          (cashDelta newValue oldValue fee) < 0 := by
  have h_available : accountingContext.add account.availableBalance 0
      = accountingContext.round account.availableBalance := by rw [Context.add, add_zero]
  have h_locked : accountingContext.sub account.lockedBalance 0
      = accountingContext.round account.lockedBalance := by rw [Context.sub, sub_zero]
  have h_nonneg : ∀ qty price fee, 0 < qty → 0 < price → config.accounting.money
      (ambientContext.mul (ambientContext.mul qty price) config.feeRate) = .ok fee → 0 ≤ fee := by
    intro qty price fee h_qty h_price h_fee
    apply AccountingConfig.quantizeAt_nonneg h_fee
    apply Context.round_nonneg
    exact mul_nonneg (ambientContext.round_nonneg (mul_pos h_qty h_price).le) config.feeRate_mem.1
  constructor
  · intro h
    obtain ⟨price₀, h_price₀, h⟩ := (bind_eq_error_of_avoids (avoids_marketFillPrice _ _ _)).mp h
    obtain ⟨⟨qty, price⟩, h_figures, h⟩ :=
      (bind_eq_error_of_avoids (avoids_simulatorFigures _ _)).mp h
    obtain ⟨fee, h_fee, h⟩ := (bind_eq_error_of_avoids (avoids_ofAccounting _)).mp h
    rw [engineFill_eq_overdraft, Accounting.applyFill_eq_overdraft] at h
    obtain ⟨_, h_slipped⟩ := marketFillPrice_eq_ok.mp h_price₀
    obtain ⟨h_qty, h_price, h_qty_pos, h_price_pos⟩ := fillFigures_eq_ok.mp h_figures
    obtain rfl : price₀ = price :=
      ok.inj ((AccountingConfig.quantizeAt_idem h_slipped).symm.trans h_price)
    have h_qty_idem : config.accounting.qty qty = .ok qty := AccountingConfig.quantizeAt_idem h_qty
    have h_price : config.accounting.price price₀ = .ok price₀ := h_price
    have h_fee : feeAmount qty price₀ config = .ok fee := ofAccounting_eq_ok.mp h_fee
    rw [feeAmount_of_quantized h_qty_idem h_price] at h_fee
    have h_fee_nonneg := h_nonneg qty price₀ fee h_qty_pos h_price_pos h_fee
    obtain ⟨figures, h_engine, oldValue, h_old, change, h_change, newValue, h_new, h_locked_nonneg,
      h_negative⟩ := h
    obtain rfl := (engineFigures_iff h_qty_idem h_qty_pos h_price h_price_pos
      (AccountingConfig.quantizeAt_idem h_fee) h_fee_nonneg).mp h_engine
    rw [h_available] at h_negative
    rw [h_locked] at h_locked_nonneg
    exact ⟨price₀, qty, fee, oldValue, newValue, h_slipped, h_price_pos, h_qty, h_qty_pos, h_fee,
      h_old, (Accounting.changePosition_value h_symbol h_qty_pos).mp ⟨change, h_change, h_new⟩,
      h_locked_nonneg, h_negative⟩
  · rintro ⟨price, qty, fee, oldValue, newValue, h_slipped, h_price_pos, h_qty, h_qty_pos, h_fee,
      h_old, h_new, h_locked_nonneg, h_negative⟩
    have h_price := AccountingConfig.quantizeAt_idem h_slipped
    have h_qty_idem := AccountingConfig.quantizeAt_idem h_qty
    have h_fee_nonneg := h_nonneg qty price fee h_qty_pos h_price_pos h_fee
    obtain ⟨change, h_change, h_value⟩ :=
      (Accounting.changePosition_value h_symbol h_qty_pos).mpr h_new
    refine (bind_eq_error_of_avoids (avoids_marketFillPrice _ _ _)).mpr
      ⟨price, marketFillPrice_eq_ok.mpr ⟨h_ref, h_slipped⟩, ?_⟩
    refine (bind_eq_error_of_avoids (avoids_simulatorFigures _ _)).mpr
      ⟨(qty, price), fillFigures_eq_ok.mpr ⟨h_qty, h_price, h_qty_pos, h_price_pos⟩, ?_⟩
    refine (bind_eq_error_of_avoids (avoids_ofAccounting _)).mpr ⟨fee, ?_, ?_⟩
    · rw [ofAccounting_eq_ok, feeAmount_of_quantized h_qty_idem h_price]
      exact h_fee
    · rw [engineFill_eq_overdraft, Accounting.applyFill_eq_overdraft]
      refine ⟨⟨qty, price, fee, 0⟩, (engineFigures_iff h_qty_idem h_qty_pos h_price h_price_pos
        (AccountingConfig.quantizeAt_idem h_fee) h_fee_nonneg).mpr rfl, oldValue, h_old, change,
        h_change, newValue, h_value, ?_, ?_⟩
      · rw [h_locked]
        exact h_locked_nonneg
      · rw [h_available]
        exact h_negative

theorem avoids_minorUnits (amount : ℚ) : Avoids fillOverdraft (minorUnits amount config) := by
  simp only [minorUnits]
  split
  · exact Avoids.ok _
  · exact Avoids.error (by simp [fillOverdraft])

theorem avoids_trade (closedTrade : Option Accounting.ClosedTrade) (filledAt : Instant) :
    Avoids fillOverdraft (closedTrade.mapM fun closed => tradeFor closed filledAt config) := by
  cases closedTrade with
  | none => exact Avoids.pure _
  | some closed =>
    exact Avoids.bind (Avoids.bind (avoids_minorUnits _) fun _ _ => Avoids.pure _)
      fun _ _ => Avoids.pure _

/-- An attempt on a market order that is refused as an overdraft is the fill above,
    refused on the rows the attempt read. -/
theorem prepareFill_overdraft {context : FillContext} {rows : List PositionRow}
    {price qty fillPrice : ℚ} (h_type : context.order.orderType = .market)
    (h_price : marketFillPrice reference context.order.side config = .ok price)
    (h_figures : fillFigures config (marketFillCall context.order.id intent price reference filledAt
      marketEventId seriesIndex) = .ok (qty, fillPrice))
    (h : prepareFill config (marketFillCall context.order.id intent price reference filledAt
      marketEventId seriesIndex) qty fillPrice context rows = .error fillOverdraft) :
    ∃ positions, positionsOf rows = .ok positions ∧
      marketOrderFill config (accountOf context.account) positions context.order intent reference
        filledAt marketEventId seriesIndex = .error fillOverdraft := by
  have h_release : releaseForFill context.order (accountOf context.account) qty config none
      = .ok 0 := by
    unfold releaseForFill
    rw [h_type]
  obtain ⟨positions, h_positions, h⟩ := (bind_eq_error_of_avoids (avoids_ofAccounting _)).mp h
  obtain ⟨_, _, h⟩ := (bind_eq_error_of_avoids (avoids_ofAccounting _)).mp h
  obtain ⟨fee, h_fee, h⟩ := (bind_eq_error_of_avoids (avoids_ofAccounting _)).mp h
  obtain ⟨_, _, h⟩ := (bind_eq_error_of_avoids (avoids_ofAccounting _)).mp h
  obtain ⟨release, h_zero, h⟩ := (bind_eq_error_of_avoids (avoids_ofAccounting _)).mp h
  obtain rfl : 0 = release := ok.inj (h_release.symm.trans (ofAccounting_eq_ok.mp h_zero))
  refine ⟨positions, ofAccounting_eq_ok.mp h_positions, ?_⟩
  refine (bind_eq_error_of_avoids (avoids_marketFillPrice _ _ _)).mpr ⟨price, h_price, ?_⟩
  refine (bind_eq_error_of_avoids (avoids_simulatorFigures _ _)).mpr ⟨_, h_figures, ?_⟩
  refine (bind_eq_error_of_avoids (avoids_ofAccounting _)).mpr ⟨fee, h_fee, ?_⟩
  -- Nothing after the engine is an overdraft.
  by_contra h_engine
  obtain ⟨_, _, h⟩ := (bind_eq_error_of_avoids h_engine).mp h
  obtain ⟨_, _, h⟩ := (bind_eq_error_of_avoids (avoids_minorUnits _)).mp h
  obtain ⟨_, _, h⟩ := (bind_eq_error_of_avoids (avoids_minorUnits _)).mp h
  obtain ⟨_, _, h⟩ := (bind_eq_error_of_avoids (avoids_ofAccounting _)).mp h
  obtain ⟨_, _, h⟩ := (bind_eq_error_of_avoids (avoids_trade _ _)).mp h
  obtain ⟨_, _, h⟩ := (bind_eq_error_of_avoids (avoids_ofAccounting _)).mp h
  cases h

end Covered

/-- A market order to buy one bitcoin. -/
def buyOne : OrderIntent where
  symbol := "BTC/USDT"
  side := .recognised .buy
  orderType := .recognised .market
  quantity := 1
  limitPrice := none
  timeInForce := "gtc"
  idempotencyKey := none
  signalId := none

/-- The order row of `buyOne`, accepted at a reference of one million. -/
def buyOneRow : OrderRow where
  id := 0
  symbol := "BTC/USDT"
  side := .buy
  orderType := .market
  quantity := 1
  limitPrice := none
  referencePrice := some 1000000
  filledQuantity := 0
  avgFillPrice := none
  feeMinor := 0
  slippageMinor := 0
  orderState := .accepted
  rejectionReason := none
  idempotencyKey := none
  signalId := none
  fingerprint := orderFingerprint buyOne
  createdAt := 0

end VyomQuant.Paper
