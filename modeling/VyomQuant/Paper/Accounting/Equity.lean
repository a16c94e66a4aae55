/-
  VyomQuant.Paper.Accounting.Equity

  What a fill does to equity: at every price map that values the filled symbol at
  the fill price and the rest of the book at its recorded prices, total equity
  falls by the fee and the two cash deltas sum to the negated change of the
  market value minus the fee.  The proof never looks at the position cases: the
  quantized values of the old and the new position cancel against the cash
  residual, whatever the case, the side or the rounding of the entry price.

  The law is about figures that fit the 34-digit context; beyond it the sums of
  `total_equity` are rounded and the law fails (`equity_law_fails_on_large_figures`).
-/

import Mathlib.Algebra.Order.Ring.Star
import Mathlib.Data.Rat.Star
import VyomQuant.Paper.Accounting.Fill

namespace VyomQuant.Paper.Accounting

open Decimal Except

/-- The figures of a fill sum to less than a 34-digit number of `d` decimals: the
    balances, the released cash, the fee, the book at the prices of the fill and
    the position the fill leaves. -/
def FillFits (account : Account) (positions : Book) (release fee : ℚ) (prices : Prices)
    (config : AccountingConfig) (newPosition : Position) (d : ℕ) : Prop :=
  config.minorUnitExponent ≤ d ∧ OnGrid d account.availableBalance ∧
    OnGrid d account.lockedBalance ∧
    |account.availableBalance| + |account.lockedBalance| + |release| + |fee|
        + |exactValue prices config newPosition| + marketVolume positions.items prices config
      < 10 ^ ((accountingContext.prec : ℤ) - d)

instance (account : Account) (positions : Book) (release fee : ℚ) (prices : Prices)
    (config : AccountingConfig) (newPosition : Position) (d : ℕ) :
    Decidable (FillFits account positions release fee prices config newPosition d) :=
  inferInstanceAs (Decidable (_ ∧ _))

/-- A price map of a fill: its price for its symbol, the recorded price of every
    other open position. -/
structure PricesOfFill (positions : Book) (request : FillRequest) (config : AccountingConfig)
    (prices : Prices) : Prop where
  filled : ∃ fillPrice, config.price request.price = .ok fillPrice ∧
    prices request.symbol = some fillPrice
  others : ∀ p ∈ positions.items, p.isOpen → p.symbol ≠ request.symbol →
    prices p.symbol = p.currentPrice

section Fill

variable {account : Account} {positions : Book} {request : FillRequest}
  {config : AccountingConfig} {result : FillResult} {prices : Prices}

theorem FillTrace.newPosition_symbol
    (trace : FillTrace account positions request config result) :
    trace.change.newPosition.symbol = request.symbol :=
  (changePosition_cases trace.change_eq).symbol_eq fun _ h_open => openPosition_symbol h_open

theorem FillTrace.sameValuation (trace : FillTrace account positions request config result) :
    SameValuation result.position trace.change.newPosition := by
  constructor <;> rw [trace.position_eq]

theorem FillTrace.key_eq (trace : FillTrace account positions request config result) :
    result.position.key = request.symbol :=
  trace.sameValuation.symbol.trans trace.newPosition_symbol

theorem FillTrace.price_eq (trace : FillTrace account positions request config result)
    (h_prices : PricesOfFill positions request config prices) :
    prices request.symbol = some trace.figures.fillPrice := by
  obtain ⟨fillPrice, h_price, h_filled⟩ := h_prices.filled
  have h_figure := (fillFigures_eq_ok.mp trace.figures_eq).2.1
  rw [h_price] at h_figure
  rw [h_filled, ok.inj h_figure]

theorem FillTrace.newValue_of (trace : FillTrace account positions request config result)
    (h_prices : PricesOfFill positions request config prices) :
    quantizedValue prices config result.position = .ok trace.newValue := by
  have h_price := trace.price_eq h_prices
  have h_same : quantizedValue prices config result.position
      = quantizedValue prices config trace.change.newPosition :=
    trace.sameValuation.quantizedValue_eq fun _ => rfl
  rw [h_same]
  by_cases h_open : trace.change.newPosition.isOpen
  · rw [quantizedValue_of_price h_open (by rw [trace.newPosition_symbol]; exact h_price)]
    exact trace.newValue_eq
  · have h_value := trace.newValue_eq
    rw [positionValue_of_not_open h_open] at h_value
    rw [quantizedValue_of_not_open h_open]
    simpa [AccountingConfig.money, AccountingConfig.quantizeAt, ofOption] using h_value

theorem FillTrace.oldValue_of (trace : FillTrace account positions request config result)
    (h_prices : PricesOfFill positions request config prices) {position : Position}
    (h_get : positions.get? request.symbol = some position) :
    quantizedValue prices config position = .ok trace.oldValue := by
  have h_old := trace.oldValue_eq
  by_cases h_open : position.isOpen
  · have h_symbol : position.symbol = request.symbol := (KeyedList.mem_of_get? h_get).2
    rw [openPosition, h_get, Option.filter_some, if_pos (by simpa using h_open)] at h_old
    rw [quantizedValue_of_price h_open (by rw [h_symbol]; exact trace.price_eq h_prices)]
    exact h_old
  · rw [openPosition, h_get, Option.filter_some, if_neg (by simpa using h_open)] at h_old
    rw [quantizedValue_of_not_open h_open]
    exact h_old

theorem FillTrace.oldValue_eq_exact (trace : FillTrace account positions request config result)
    (h_prices : PricesOfFill positions request config prices) :
    trace.oldValue
      = ((positions.get? request.symbol).map (exactValue prices config)).getD 0 := by
  cases h_get : positions.get? request.symbol with
  | none =>
    have h_old := trace.oldValue_eq
    rw [openPosition, h_get] at h_old
    simpa [oldValueOf] using h_old.symm
  | some position =>
    simp [exactValue_eq (trace.oldValue_of h_prices h_get)]

/-- The book after a fill has a market value at the prices of the fill, and so has
    the book before it. -/
theorem FillTrace.exists_marketValues
    (trace : FillTrace account positions request config result)
    (h_prices : PricesOfFill positions request config prices) :
    (∃ before, positionMarketValue positions.items prices config = .ok before) ∧
      ∃ after, positionMarketValue result.positions.items prices config = .ok after := by
  have h_valued := exists_positionMarketValue_iff.mp ⟨_, trace.marketValue_eq⟩
  have h_other : ∀ p ∈ positions.items, p.symbol ≠ request.symbol →
      ∃ value, quantizedValue prices config p = .ok value := by
    intro p h_p h_ne
    have h_get : (positions.put trace.change.newPosition).get? p.symbol = some p := by
      rw [KeyedList.get?_put, if_neg (by rw [Position.key, trace.newPosition_symbol]; exact h_ne)]
      exact Book.get?_symbol h_p
    obtain ⟨value, h_value⟩ := h_valued p (KeyedList.mem_of_get? h_get).1
    refine ⟨value, ?_⟩
    rw [← h_value]
    refine (SameValuation.refl p).quantizedValue_eq fun h_open => ?_
    simp only [pricesAtFill, Function.update_of_ne h_ne, lastValidatedPrices, h_get,
      Option.bind_some, h_prices.others p h_p h_open h_ne]
  constructor
  · refine exists_positionMarketValue_iff.mpr fun p h_p => ?_
    by_cases h_symbol : p.symbol = request.symbol
    · have h_get := Book.get?_symbol h_p
      rw [h_symbol] at h_get
      exact ⟨_, trace.oldValue_of h_prices h_get⟩
    · exact h_other p h_p h_symbol
  · rw [trace.positions_eq]
    refine exists_positionMarketValue_iff.mpr fun p h_p => ?_
    rcases KeyedList.mem_put h_p with rfl | ⟨h_mem, h_ne⟩
    · exact ⟨_, trace.newValue_of h_prices⟩
    · exact h_other p h_mem fun h_eq => h_ne (h_eq.trans trace.key_eq.symm)

theorem FillTrace.exactMarketValue_after
    (trace : FillTrace account positions request config result)
    (h_prices : PricesOfFill positions request config prices) :
    exactMarketValue result.positions.items prices config
      = exactMarketValue positions.items prices config - trace.oldValue + trace.newValue := by
  rw [exactMarketValue, trace.positions_eq, KeyedList.sum_put, trace.key_eq,
    ← trace.oldValue_eq_exact h_prices, exactValue_eq (trace.newValue_of h_prices)]
  rfl

theorem FillTrace.marketVolume_after
    (trace : FillTrace account positions request config result)
    (h_prices : PricesOfFill positions request config prices) :
    marketVolume result.positions.items prices config
      = marketVolume positions.items prices config - |trace.oldValue| + |trace.newValue| := by
  have h_old : |trace.oldValue| = ((positions.get? request.symbol).map fun position =>
      |exactValue prices config position|).getD 0 := by
    rw [trace.oldValue_eq_exact h_prices]
    cases positions.get? request.symbol <;> simp
  rw [marketVolume, trace.positions_eq, KeyedList.sum_put, trace.key_eq, ← h_old,
    exactValue_eq (trace.newValue_of h_prices)]
  rfl

theorem FillTrace.abs_oldValue_le (trace : FillTrace account positions request config result)
    (h_prices : PricesOfFill positions request config prices) :
    |trace.oldValue| ≤ marketVolume positions.items prices config := by
  rw [trace.oldValue_eq_exact h_prices]
  cases h_get : positions.get? request.symbol with
  | none => simpa using marketVolume_nonneg positions.items
  | some position =>
    have h_mem : |exactValue prices config position| ∈ positions.items.map fun position =>
        |exactValue prices config position| :=
      List.mem_map_of_mem (f := fun position => |exactValue prices config position|)
        (KeyedList.mem_of_get? h_get).1
    exact List.single_le_sum (by
      intro x h_x
      obtain ⟨p, _, rfl⟩ := List.mem_map.mp h_x
      exact abs_nonneg _) _ h_mem

theorem FillTrace.oldValue_onGrid (trace : FillTrace account positions request config result)
    (h_prices : PricesOfFill positions request config prices) :
    OnGrid config.minorUnitExponent trace.oldValue := by
  rw [trace.oldValue_eq_exact h_prices]
  cases positions.get? request.symbol with
  | none => exact OnGrid.zero _
  | some position => exact exactValue_onGrid position

variable {d : ℕ}

/-- The balances after a fill whose cash figures are small, as exact sums. -/
theorem FillTrace.balances_of_small (trace : FillTrace account positions request config result)
    (h_d : config.minorUnitExponent ≤ d) (h_available : OnGrid d account.availableBalance)
    (h_locked : OnGrid d account.lockedBalance) (h_old : OnGrid d trace.oldValue)
    (h_small : |account.availableBalance| + |account.lockedBalance| + |trace.figures.release|
        + |trace.figures.fillFee| + |trace.newValue| + |trace.oldValue|
      < 10 ^ ((accountingContext.prec : ℤ) - d)) :
    result.account.availableBalance = account.availableBalance + trace.figures.release
        - (trace.newValue - trace.oldValue) - trace.figures.fillFee ∧
      result.account.lockedBalance = account.lockedBalance - trace.figures.release := by
  obtain ⟨_, _, h_fee, h_release, _⟩ := fillFigures_eq_ok.mp trace.figures_eq
  have a1 := abs_nonneg account.availableBalance
  have a2 := abs_nonneg account.lockedBalance
  have a3 := abs_nonneg trace.figures.release
  have a4 := abs_nonneg trace.figures.fillFee
  have a5 := abs_nonneg trace.newValue
  have a6 := abs_nonneg trace.oldValue
  have h_release_within : Within d _ trace.figures.release :=
    .self ((AccountingConfig.quantizeAt_onGrid h_release).mono h_d)
  have h_fee_within : Within d _ trace.figures.fillFee :=
    .self ((AccountingConfig.quantizeAt_onGrid h_fee).mono h_d)
  have h_new_within : Within d _ trace.newValue :=
    .self ((AccountingConfig.quantizeAt_onGrid trace.newValue_eq).mono h_d)
  have h_change := h_new_within.sub (Within.self h_old)
  have h_cash := h_change.neg.sub h_fee_within
  have h_freed := (Within.self h_available).add h_release_within
  have h_sub : accountingContext.sub trace.newValue trace.oldValue
      = trace.newValue - trace.oldValue :=
    Context.round_of_within h_change (by linarith)
  have h_neg : accountingContext.neg (trace.newValue - trace.oldValue)
      = -(trace.newValue - trace.oldValue) :=
    Context.round_of_within h_change.neg (by linarith)
  have h_delta : cashDelta trace.newValue trace.oldValue trace.figures.fillFee
      = -(trace.newValue - trace.oldValue) - trace.figures.fillFee := by
    rw [cashDelta, h_sub, h_neg]
    exact Context.round_of_within h_cash (by linarith)
  have h_add : accountingContext.add account.availableBalance trace.figures.release
      = account.availableBalance + trace.figures.release :=
    Context.round_of_within h_freed (by linarith)
  constructor
  · rw [trace.available_eq, h_delta, h_add]
    rw [show accountingContext.add _ _ = _ from
      Context.round_of_within (h_freed.add h_cash) (by linarith)]
    ring
  · rw [trace.locked_eq]
    exact Context.round_of_within ((Within.self h_locked).sub h_release_within) (by linarith)

theorem FillTrace.balances_exact (trace : FillTrace account positions request config result)
    (h_prices : PricesOfFill positions request config prices)
    (h_fits : FillFits account positions trace.figures.release trace.figures.fillFee prices
      config result.position d) :
    result.account.availableBalance = account.availableBalance + trace.figures.release
        - (trace.newValue - trace.oldValue) - trace.figures.fillFee ∧
      result.account.lockedBalance = account.lockedBalance - trace.figures.release := by
  obtain ⟨h_d, h_available, h_locked, h_small⟩ := h_fits
  rw [exactValue_eq (trace.newValue_of h_prices)] at h_small
  have h_old_le := trace.abs_oldValue_le h_prices
  exact trace.balances_of_small h_d h_available h_locked
    ((trace.oldValue_onGrid h_prices).mono h_d) (by linarith)

/-- Total equity falls by exactly the fee of a fill, and the cash deltas are the
    negated change of the market value minus the fee. -/
theorem applyFill_totalEquity {fee release : ℚ}
    (h : applyFill account positions request config = .ok result)
    (h_fee : config.money request.fee = .ok fee)
    (h_release : config.money request.releaseFromLocked = .ok release)
    (h_prices : PricesOfFill positions request config prices)
    (h_fits : FillFits account positions release fee prices config result.position d) :
    ∃ before after valueBefore valueAfter,
      totalEquity account positions.items prices config = .ok before ∧
      totalEquity result.account result.positions.items prices config = .ok after ∧
      positionMarketValue positions.items prices config = .ok valueBefore ∧
      positionMarketValue result.positions.items prices config = .ok valueAfter ∧
      after = before - fee ∧
      result.availableDelta + result.lockedDelta = -(valueAfter - valueBefore) - fee := by
  obtain ⟨trace⟩ := applyFill_eq_ok h
  obtain ⟨_, _, h_fee', h_release', _⟩ := fillFigures_eq_ok.mp trace.figures_eq
  obtain rfl : fee = trace.figures.fillFee := ok.inj (h_fee.symm.trans h_fee')
  obtain rfl : release = trace.figures.release := ok.inj (h_release.symm.trans h_release')
  obtain ⟨⟨valueBefore, h_before⟩, ⟨valueAfter, h_after⟩⟩ := trace.exists_marketValues h_prices
  obtain ⟨h_available, h_locked⟩ := trace.balances_exact h_prices h_fits
  obtain ⟨h_d, h_grid, h_grid', h_small⟩ := h_fits
  rw [exactValue_eq (trace.newValue_of h_prices)] at h_small
  have h_old_le := trace.abs_oldValue_le h_prices
  have h_volume := trace.marketVolume_after h_prices
  have a1 := abs_nonneg account.availableBalance
  have a2 := abs_nonneg account.lockedBalance
  have a3 := abs_nonneg trace.figures.release
  have a4 := abs_nonneg trace.figures.fillFee
  have a5 := abs_nonneg trace.newValue
  have a6 := abs_nonneg trace.oldValue
  have h_before_exact := positionMarketValue_eq_exact h_d h_before (by linarith)
  have h_after_exact := positionMarketValue_eq_exact h_d h_after (by linarith)
  have h_moved := trace.exactMarketValue_after h_prices
  rw [← h_before_exact, ← h_after_exact] at h_moved
  have h_fee_within : Within d _ trace.figures.fillFee :=
    .self ((AccountingConfig.quantizeAt_onGrid h_fee).mono h_d)
  have h_release_within : Within d _ trace.figures.release :=
    .self ((AccountingConfig.quantizeAt_onGrid h_release).mono h_d)
  have h_change := (Within.self ((AccountingConfig.quantizeAt_onGrid trace.newValue_eq).mono
    h_d)).sub (Within.self ((trace.oldValue_onGrid h_prices).mono h_d))
  have h_cash := (Within.self h_grid).add (Within.self h_grid')
  have h_value : Within d (marketVolume positions.items prices config)
      (exactMarketValue positions.items prices config) :=
    exactMarketValue_within h_d positions.items
  rw [← h_before_exact] at h_value
  -- The cash after the fill: the released amount cancels.
  have h_cash_after : result.account.availableBalance + result.account.lockedBalance
      = account.availableBalance + account.lockedBalance
        - (trace.newValue - trace.oldValue) - trace.figures.fillFee := by
    rw [h_available, h_locked]
    ring
  have h_cash_after_within := (h_cash.sub h_change).sub h_fee_within
  rw [← h_cash_after] at h_cash_after_within
  have h_equity_after : result.account.availableBalance + result.account.lockedBalance
      + valueAfter = account.availableBalance + account.lockedBalance + valueBefore
        - trace.figures.fillFee := by
    rw [h_cash_after, h_moved]
    ring
  have h_equity_after_within := (h_cash.add h_value).sub h_fee_within
  rw [← h_equity_after] at h_equity_after_within
  refine ⟨_, _, valueBefore, valueAfter, totalEquity_eq_ok.mpr ⟨valueBefore, h_before, rfl⟩,
    totalEquity_eq_ok.mpr ⟨valueAfter, h_after, rfl⟩, h_before, h_after, ?_, ?_⟩
  · rw [show accountingContext.add account.availableBalance account.lockedBalance = _ from
        Context.round_of_within h_cash (by linarith),
      show accountingContext.add _ valueBefore = _ from
        Context.round_of_within (h_cash.add h_value) (by linarith),
      show accountingContext.add result.account.availableBalance result.account.lockedBalance = _
        from Context.round_of_within h_cash_after_within (by linarith),
      show accountingContext.add _ valueAfter = _ from
        Context.round_of_within h_equity_after_within (by linarith)]
    exact h_equity_after
  · have h_available_delta := (h_release_within.sub h_change).sub h_fee_within
    have h_delta : result.account.availableBalance - account.availableBalance
        = trace.figures.release - (trace.newValue - trace.oldValue) - trace.figures.fillFee := by
      rw [h_available]
      ring
    have h_locked_delta : result.account.lockedBalance - account.lockedBalance
        = -trace.figures.release := by
      rw [h_locked]
      ring
    rw [trace.availableDelta_eq, trace.lockedDelta_eq, Context.sub, Context.sub, h_delta,
      h_locked_delta, Context.round_of_within h_available_delta (by linarith),
      Context.round_of_within h_release_within.neg (by linarith), h_moved]
    ring

end Fill

/-- The equity law on a reversal of a short through zero. -/
theorem applyFill_totalEquity_of_reversal :
    let config : AccountingConfig :=
      ⟨1 / 1000, 1 / 2000, .halfEven, .weightedAverage, 2, 8, 2, by norm_num, by norm_num⟩
    let account : Account := ⟨1000, 0, 0, 1040, "USD"⟩
    let positions : Book := KeyedList.empty.put
      ⟨⟨"BTC/USDT", .short, 1, 40, some 40, some 0, some 1, some 1, none⟩, by decide, by norm_num⟩
    let request : FillRequest := ⟨"BTC/USDT", .buy, 3 / 2, 381 / 10, 1 / 20, some 2, 0⟩
    let prices : Prices := fun _ => some (381 / 10)
    ∃ result before after, applyFill account positions request config = .ok result ∧
      totalEquity account positions.items prices config = .ok before ∧
      totalEquity result.account result.positions.items prices config = .ok after ∧
      after = before - 1 / 20 := by
  intro config account positions request prices
  have h_prices : PricesOfFill positions request config prices :=
    ⟨⟨381 / 10, by decide +kernel, rfl⟩, by decide +kernel⟩
  have h_fits : (match applyFill account positions request config with
      | .ok result => decide
          (FillFits account positions 0 (1 / 20) prices config result.position 2)
      | .error _ => false) = true := by decide +kernel
  cases h : applyFill account positions request config with
  | error e => simp [h] at h_fits
  | ok result =>
    rw [h] at h_fits
    obtain ⟨before, after, _, _, h_before, h_after, _, _, h_law, _⟩ :=
      applyFill_totalEquity h
        (show config.money request.fee = .ok (1 / 20) by decide +kernel)
        (by decide +kernel) h_prices (of_decide_eq_true h_fits)
    exact ⟨result, before, after, rfl, h_before, h_after, h_law⟩

/-- Beyond 34 digits the law fails: with two positions of value `9 * 10 ^ 33` a
    fill with fee `1` takes ten units off the rounded total equity. -/
theorem equity_law_fails_on_large_figures :
    ¬ ∀ (account : Account) (positions : Book) (request : FillRequest)
        (config : AccountingConfig) (result : FillResult) (prices : Prices) (fee : ℚ),
      applyFill account positions request config = .ok result →
      config.money request.fee = .ok fee → PricesOfFill positions request config prices →
      ∀ before after, totalEquity account positions.items prices config = .ok before →
        totalEquity result.account result.positions.items prices config = .ok after →
        after = before - fee := by
  intro h_law
  let config : AccountingConfig :=
    ⟨0, 0, .halfEven, .weightedAverage, 0, 0, 0, by norm_num, by norm_num⟩
  let account : Account := ⟨6, 0, 0, 18 * 10 ^ 33 + 10, "JPY"⟩
  let positions : Book :=
    (KeyedList.empty.put ⟨⟨"B", .long, 9 * 10 ^ 16, 10 ^ 17, some (10 ^ 17), some 0, none, none,
      none⟩, by decide, by norm_num⟩).put ⟨⟨"C", .long, 9 * 10 ^ 16, 10 ^ 17, some (10 ^ 17),
      some 0, none, none, none⟩, by decide, by norm_num⟩
  let request : FillRequest := ⟨"A", .buy, 1, 1, 1, none, 0⟩
  let prices : Prices := fun symbol => if symbol = "A" then some 1 else some (10 ^ 17)
  have h_prices : PricesOfFill positions request config prices :=
    ⟨⟨1, by decide +kernel, rfl⟩, by decide +kernel⟩
  have h_before : totalEquity account positions.items prices config = .ok (18 * 10 ^ 33 + 10) := by
    decide +kernel
  have h_after : (match applyFill account positions request config with
      | .ok result => decide (totalEquity result.account result.positions.items prices config
          = .ok (18 * 10 ^ 33))
      | .error _ => false) = true := by decide +kernel
  cases h : applyFill account positions request config with
  | error e => simp [h] at h_after
  | ok result =>
    rw [h] at h_after
    have h_eq := h_law account positions request config result prices 1 h (by decide +kernel)
      h_prices _ _ h_before (of_decide_eq_true h_after)
    norm_num at h_eq

end VyomQuant.Paper.Accounting
