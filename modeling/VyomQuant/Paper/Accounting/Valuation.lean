/-
  VyomQuant.Paper.Accounting.Valuation

  What a book is worth: `position_value`, `position_market_value`,
  `total_equity`, the invariant check and the funds movements `lock` and
  `unlock` of `paper_accounting.py`, as the code computes them in its 34-digit
  context.

  `exactMarketValue` is the exact counterpart of the running sum: on figures small
  enough for the context the code's market value is the plain sum of the quantized
  values of the open positions (`positionMarketValue_eq_exact`).
-/

import VyomQuant.Paper.Accounting.Types

namespace VyomQuant.Paper.Accounting

open Decimal Except

/-! ## Values of one position -/

/-- `_price_for`: the validated price of a symbol, never a substitute. -/
def priceFor (symbol : String) (prices : Prices) : Except AccountingError ℚ :=
  .ofOption (.stalePrice symbol) (prices symbol)

/-- `position_value`: a short is worth the cash it consumed plus its profit. -/
def positionValue (position : Position) (price : ℚ) : ℚ :=
  match position.side with
  | .long => accountingContext.mul position.size price
  | .short =>
    accountingContext.mul position.size
      (accountingContext.sub (accountingContext.mul 2 position.entryPrice) price)

/-- `position_unrealized_pnl`. -/
def positionUnrealizedPnl (position : Position) (price : ℚ) : ℚ :=
  match position.side with
  | .long =>
    accountingContext.mul (accountingContext.sub price position.entryPrice) position.size
  | .short =>
    accountingContext.mul (accountingContext.sub position.entryPrice price) position.size

/-! ## Values of a book -/

/-- One round of the loop of `position_market_value`. -/
def addMarketValue (prices : Prices) (config : AccountingConfig) (total : ℚ)
    (position : Position) : Except AccountingError ℚ :=
  if position.isOpen then do
    let price ← priceFor position.symbol prices
    let value ← config.money (positionValue position price)
    return accountingContext.add total value
  else
    return total

/-- `position_market_value` of the positions in iteration order. -/
def positionMarketValue (positions : List Position) (prices : Prices)
    (config : AccountingConfig) : Except AccountingError ℚ :=
  positions.foldlM (addMarketValue prices config) 0

/-- `total_equity`: available, locked and market value, summed in this order. -/
def totalEquity (account : Account) (positions : List Position) (prices : Prices)
    (config : AccountingConfig) : Except AccountingError ℚ := do
  let marketValue ← positionMarketValue positions prices config
  return accountingContext.add
    (accountingContext.add account.availableBalance account.lockedBalance) marketValue

/-- `violated_invariant`: the first breached invariant. -/
def violatedInvariant (account : Account) (positions : List Position) (prices : Prices)
    (config : AccountingConfig) : Except AccountingError (Option Invariant) :=
  if positions.any fun position => position.size < 0 then
    .ok (some .positionSize)
  else if account.availableBalance < 0 then
    .ok (some .availableBalance)
  else if account.lockedBalance < 0 then
    .ok (some .lockedBalance)
  else do
    let expected ← totalEquity account positions prices config
    return if account.totalEquity ≠ expected then some .totalEquity else none

/-- `invariants_hold`. -/
def invariantsHold (account : Account) (positions : List Position) (prices : Prices)
    (config : AccountingConfig) : Except AccountingError Bool := do
  let invariant ← violatedInvariant account positions prices config
  return invariant.isNone

/-- `assert_invariants`: raises the breach that `violated_invariant` names. -/
def assertInvariants (account : Account) (positions : List Position) (prices : Prices)
    (config : AccountingConfig) : Except AccountingError Unit := do
  match ← violatedInvariant account positions prices config with
  | none => return ()
  | some invariant => throw (.invariantViolation invariant)

/-- `last_validated_prices`: the prices recorded on the positions. -/
def lastValidatedPrices (positions : Book) : Prices := fun symbol =>
  (positions.get? symbol).bind fun position => position.currentPrice

/-- `latest_price_at`: the newest `price_at` among the positions. -/
def latestPriceAt (positions : List Position) : Option Instant :=
  (positions.filterMap fun position => position.priceAt).max?

/-! ## Funds -/

/-- `required_funds`: notional plus fee and slippage allowance, quantized once. -/
def requiredFunds (quantity referencePrice : ℚ) (config : AccountingConfig) :
    Except AccountingError ℚ :=
  let notional := accountingContext.mul quantity referencePrice
  let allowance :=
    accountingContext.add (accountingContext.add 1 config.feeRate) config.slippageRate
  config.money (accountingContext.mul notional allowance)

/-- `lock`: move an amount from the available to the locked balance. -/
def lock (account : Account) (amount : ℚ) (config : AccountingConfig) :
    Except AccountingError Account := do
  let quantized ← config.money amount
  refuseIf (quantized < 0) (.invalidQuantity .lockAmount)
  refuseIf (account.availableBalance < quantized) (.invariantViolation .availableBalance)
  return { account with
    availableBalance := accountingContext.sub account.availableBalance quantized
    lockedBalance := accountingContext.add account.lockedBalance quantized }

/-- `unlock`: move an amount from the locked balance back to the available one. -/
def unlock (account : Account) (amount : ℚ) (config : AccountingConfig) :
    Except AccountingError Account := do
  let quantized ← config.money amount
  refuseIf (quantized < 0) (.invalidQuantity .unlockAmount)
  refuseIf (account.lockedBalance < quantized) (.invariantViolation .lockedBalance)
  return { account with
    availableBalance := accountingContext.add account.availableBalance quantized
    lockedBalance := accountingContext.sub account.lockedBalance quantized }

/-! ## Reading the invariants -/

theorem any_size_neg (positions : List Position) :
    (positions.any fun position => decide (position.size < 0)) = false := by
  rw [List.any_eq_false]
  intro position _
  simpa using position.size_nonneg

variable {positions : List Position}

theorem invariantsHold_iff {account : Account} {prices : Prices} {config : AccountingConfig} :
    invariantsHold account positions prices config = .ok true ↔
      0 ≤ account.availableBalance ∧ 0 ≤ account.lockedBalance ∧
        totalEquity account positions prices config = .ok account.totalEquity := by
  simp only [invariantsHold, violatedInvariant, any_size_neg, Bool.false_eq_true, if_false]
  by_cases h_available : account.availableBalance < 0
  · simp [if_pos h_available, not_le.mpr h_available]
  · by_cases h_locked : account.lockedBalance < 0
    · simp [if_neg h_available, if_pos h_locked, not_le.mpr h_locked]
    · rw [if_neg h_available, if_neg h_locked]
      simp only [bind_eq_ok, pure_eq_ok, not_lt.mp h_available, not_lt.mp h_locked, true_and]
      constructor
      · rintro ⟨_, ⟨expected, h_expected, rfl⟩, h_none⟩
        by_cases h_eq : account.totalEquity = expected
        · rw [h_eq]
          exact h_expected
        · simp [h_eq] at h_none
      · intro h
        exact ⟨_, ⟨_, h, rfl⟩, by simp⟩

/-- `total_equity` returns the sum with the market value. -/
theorem totalEquity_eq_ok {account : Account} {prices : Prices} {config : AccountingConfig}
    {equity : ℚ} :
    totalEquity account positions prices config = .ok equity ↔
      ∃ marketValue, positionMarketValue positions prices config = .ok marketValue ∧
        accountingContext.add
          (accountingContext.add account.availableBalance account.lockedBalance) marketValue
          = equity := by
  simp only [totalEquity, bind_eq_ok, pure_eq_ok]

/-! ## One round of the market value loop -/

/-- The quantized value of a position, zero when it is closed. -/
def quantizedValue (prices : Prices) (config : AccountingConfig) (position : Position) :
    Except AccountingError ℚ :=
  if position.isOpen then do
    let price ← priceFor position.symbol prices
    config.money (positionValue position price)
  else
    .ok 0

section MarketValue

variable {prices prices' : Prices} {config : AccountingConfig} {position : Position}
  {total value : ℚ}

theorem addMarketValue_of_open (h_open : position.isOpen) :
    addMarketValue prices config total position
      = (quantizedValue prices config position >>= fun value =>
          pure (accountingContext.add total value)) := by
  simp only [addMarketValue, quantizedValue, if_pos h_open, bind_assoc]

theorem addMarketValue_of_not_open (h_open : ¬ position.isOpen) :
    addMarketValue prices config total position = .ok total := by
  simp only [addMarketValue, if_neg h_open]
  rfl

theorem quantizedValue_of_not_open (h_open : ¬ position.isOpen) :
    quantizedValue prices config position = .ok 0 := by
  simp only [quantizedValue, if_neg h_open]

theorem quantizedValue_of_price {price : ℚ} (h_open : position.isOpen)
    (h_price : prices position.symbol = some price) :
    quantizedValue prices config position = config.money (positionValue position price) := by
  simp only [quantizedValue, if_pos h_open, priceFor, h_price]
  rfl

theorem positionValue_of_not_open (h_open : ¬ position.isOpen) (price : ℚ) :
    positionValue position price = 0 := by
  have h_size : position.size = 0 := le_antisymm (not_lt.mp h_open) position.size_nonneg
  unfold positionValue
  cases position.side with
  | long => simp [Context.mul, h_size]
  | short => simp [Context.mul, h_size]

theorem quantizedValue_onGrid (h : quantizedValue prices config position = .ok value) :
    OnGrid config.minorUnitExponent value := by
  by_cases h_open : position.isOpen
  · simp only [quantizedValue, if_pos h_open, bind_eq_ok] at h
    obtain ⟨price, _, h_value⟩ := h
    exact AccountingConfig.quantizeAt_onGrid h_value
  · rw [quantizedValue_of_not_open h_open] at h
    cases h
    exact OnGrid.zero _

/-- The fields a valuation reads. -/
structure SameValuation (p q : Position) : Prop where
  symbol : p.symbol = q.symbol
  side : p.side = q.side
  size : p.size = q.size
  entryPrice : p.entryPrice = q.entryPrice

theorem SameValuation.refl (p : Position) : SameValuation p p := ⟨rfl, rfl, rfl, rfl⟩

theorem SameValuation.quantizedValue_eq {p q : Position} (h : SameValuation p q)
    (h_prices : p.isOpen → prices p.symbol = prices' p.symbol) :
    quantizedValue prices config p = quantizedValue prices' config q := by
  have h_value : ∀ price, positionValue p price = positionValue q price := by
    intro price
    simp only [positionValue, h.side, h.size, h.entryPrice]
  by_cases h_open : p.isOpen
  · have h_open' : q.isOpen := by
      rw [Position.isOpen, ← h.size]
      exact h_open
    have h_price := h_prices h_open
    rw [h.symbol] at h_price
    simp only [quantizedValue, if_pos h_open, if_pos h_open', priceFor, h.symbol, h_price,
      h_value]
  · have h_open' : ¬ q.isOpen := by
      rw [Position.isOpen, ← h.size]
      exact h_open
    rw [quantizedValue_of_not_open h_open, quantizedValue_of_not_open h_open']

theorem SameValuation.addMarketValue_eq {p q : Position} (h : SameValuation p q)
    (h_prices : p.isOpen → prices p.symbol = prices' p.symbol) :
    addMarketValue prices config total p = addMarketValue prices' config total q := by
  by_cases h_open : p.isOpen
  · have h_open' : q.isOpen := by
      rw [Position.isOpen, ← h.size]
      exact h_open
    rw [addMarketValue_of_open h_open, addMarketValue_of_open h_open',
      h.quantizedValue_eq h_prices]
  · have h_open' : ¬ q.isOpen := by
      rw [Position.isOpen, ← h.size]
      exact h_open
    rw [addMarketValue_of_not_open h_open, addMarketValue_of_not_open h_open']

theorem positionMarketValue_congr {l l' : List Position}
    (h : List.Forall₂ (fun p q => SameValuation p q ∧
      (p.isOpen → prices p.symbol = prices' p.symbol)) l l') :
    positionMarketValue l prices config = positionMarketValue l' prices' config := by
  unfold positionMarketValue
  generalize (0 : ℚ) = total
  induction h generalizing total with
  | nil => rfl
  | cons h_pq _ ih =>
    rw [List.foldlM_cons, List.foldlM_cons, h_pq.1.addMarketValue_eq h_pq.2]
    exact congrArg _ (funext ih)

/-! ## The exact market value -/

/-- The quantized value of a position as a number, zero when it has none. -/
def exactValue (prices : Prices) (config : AccountingConfig) (position : Position) : ℚ :=
  match quantizedValue prices config position with
  | .ok value => value
  | .error _ => 0

/-- The exact sum of the quantized values. -/
def exactMarketValue (positions : List Position) (prices : Prices) (config : AccountingConfig) :
    ℚ :=
  (positions.map (exactValue prices config)).sum

/-- The sum of the magnitudes of the quantized values. -/
def marketVolume (positions : List Position) (prices : Prices) (config : AccountingConfig) : ℚ :=
  (positions.map fun position => |exactValue prices config position|).sum

theorem exactValue_eq (h : quantizedValue prices config position = .ok value) :
    exactValue prices config position = value := by
  simp only [exactValue, h]

theorem exactValue_of_not_open (h_open : ¬ position.isOpen) :
    exactValue prices config position = 0 :=
  exactValue_eq (quantizedValue_of_not_open h_open)

theorem exactValue_onGrid (position : Position) :
    OnGrid config.minorUnitExponent (exactValue prices config position) := by
  unfold exactValue
  split
  · rename_i value h
    exact quantizedValue_onGrid h
  · exact OnGrid.zero _

theorem marketVolume_nonneg (positions : List Position) :
    0 ≤ marketVolume positions prices config :=
  List.sum_nonneg (by
    intro x h_x
    obtain ⟨position, _, rfl⟩ := List.mem_map.mp h_x
    exact abs_nonneg _)

theorem exactMarketValue_within {d : ℕ} (h_d : config.minorUnitExponent ≤ d)
    (positions : List Position) :
    Within d (marketVolume positions prices config)
      (exactMarketValue positions prices config) := by
  induction positions with
  | nil => exact ⟨OnGrid.zero d, by simp [exactMarketValue, marketVolume]⟩
  | cons p rest ih =>
    have h_p : Within d |exactValue prices config p| (exactValue prices config p) :=
      Within.self ((exactValue_onGrid p).mono h_d)
    exact h_p.add ih

/-- The loop from a running total, when everything fits the context. -/
theorem foldlM_addMarketValue_eq_exact {d : ℕ} (h_d : config.minorUnitExponent ≤ d) {result : ℚ}
    (h : positions.foldlM (addMarketValue prices config) total = .ok result)
    (h_total : OnGrid d total)
    (h_small : |total| + marketVolume positions prices config < 10 ^ ((accountingContext.prec : ℤ) - d)) :
    result = total + exactMarketValue positions prices config := by
  induction positions generalizing total with
  | nil =>
    rw [List.foldlM_nil, pure_eq_ok] at h
    simp [exactMarketValue, h]
  | cons p rest ih =>
    rw [List.foldlM_cons] at h
    have h_split : marketVolume (p :: rest) prices config
        = |exactValue prices config p| + marketVolume rest prices config := by
      simp only [marketVolume, List.map_cons, List.sum_cons]
    have h_sum : exactMarketValue (p :: rest) prices config
        = exactValue prices config p + exactMarketValue rest prices config := by
      simp only [exactMarketValue, List.map_cons, List.sum_cons]
    by_cases h_open : p.isOpen
    · rw [addMarketValue_of_open h_open, bind_assoc] at h
      obtain ⟨value, h_value, h⟩ := bind_eq_ok.mp h
      have h_exact := exactValue_eq h_value
      have h_within : Within d (|total| + |value|) (total + value) :=
        (Within.self h_total).add (Within.self ((quantizedValue_onGrid h_value).mono h_d))
      have h_rest : 0 ≤ marketVolume rest prices config := marketVolume_nonneg rest
      have h_add : accountingContext.add total value = total + value :=
        Context.round_of_within h_within (by rw [h_split, h_exact] at h_small; linarith)
      rw [pure_bind, h_add] at h
      have h_bound := h_within.bound
      rw [ih h h_within.grid (by rw [h_split, h_exact] at h_small; linarith), h_sum, h_exact]
      ring
    · have h_zero : exactValue prices config p = 0 := exactValue_of_not_open h_open
      rw [addMarketValue_of_not_open h_open] at h
      rw [ih h h_total (by rw [h_split, h_zero, abs_zero] at h_small; linarith), h_sum, h_zero]
      ring

theorem positionMarketValue_eq_exact {d : ℕ} (h_d : config.minorUnitExponent ≤ d) {result : ℚ}
    (h : positionMarketValue positions prices config = .ok result)
    (h_small : marketVolume positions prices config < 10 ^ ((accountingContext.prec : ℤ) - d)) :
    result = exactMarketValue positions prices config := by
  rw [foldlM_addMarketValue_eq_exact h_d h (OnGrid.zero d) (by simpa using h_small), zero_add]

theorem exists_foldlM_addMarketValue_iff :
    (∃ result, positions.foldlM (addMarketValue prices config) total = .ok result) ↔
      ∀ p ∈ positions, ∃ value, quantizedValue prices config p = .ok value := by
  induction positions generalizing total with
  | nil => simp [pure_eq_ok]
  | cons p rest ih =>
    rw [List.foldlM_cons, List.forall_mem_cons]
    by_cases h_open : p.isOpen
    · rw [addMarketValue_of_open h_open, bind_assoc]
      constructor
      · rintro ⟨result, h⟩
        obtain ⟨value, h_value, h⟩ := bind_eq_ok.mp h
        exact ⟨⟨value, h_value⟩, ih.mp ⟨result, h⟩⟩
      · rintro ⟨⟨value, h_value⟩, h_rest⟩
        obtain ⟨result, h⟩ := ih.mpr h_rest
        exact ⟨result, bind_eq_ok.mpr ⟨value, h_value, h⟩⟩
    · rw [addMarketValue_of_not_open h_open, quantizedValue_of_not_open h_open]
      constructor
      · rintro ⟨result, h⟩
        exact ⟨⟨0, rfl⟩, ih.mp ⟨result, h⟩⟩
      · rintro ⟨_, h_rest⟩
        exact ih.mpr h_rest

theorem exists_positionMarketValue_iff :
    (∃ result, positionMarketValue positions prices config = .ok result) ↔
      ∀ p ∈ positions, ∃ value, quantizedValue prices config p = .ok value :=
  exists_foldlM_addMarketValue_iff

end MarketValue

end VyomQuant.Paper.Accounting
