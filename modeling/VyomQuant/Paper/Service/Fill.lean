/-
  VyomQuant.Paper.Service.Fill

  What the default account's service (`paper_trading_service.py`) works out for an order
  before it writes anything: the figures of its one fill, the funds a resting buy reserves,
  and the account and the positions that the accounting engine makes of a fill.

  An order of the default account fills once and whole, at its reference price slipped in
  the adverse direction.  The service's own products round to the default 28 digits.
-/

import VyomQuant.Paper.Accounting.Fill
import VyomQuant.Paper.Simulator.Types

namespace VyomQuant.Paper.Service

open Except
open Accounting (AccountingConfig AccountingError Account Book Position OrderSide Instant FillRequest
  FillResult)

/-! ## Configuration -/

/-- The configuration of the service, from its fee and its slippage rate. -/
def serviceConfig (feeRate slippageRate : ℚ) (h_fee : 0 ≤ feeRate) (h_slippage : 0 ≤ slippageRate) :
    AccountingConfig where
  feeRate := feeRate
  slippageRate := slippageRate
  roundingMode := .halfEven
  costBasis := .weightedAverage
  pricePrecision := 8
  quantityPrecision := 8
  minorUnitExponent := 2
  feeRate_nonneg := h_fee
  slippageRate_nonneg := h_slippage

/-- The configuration with the defaults of the constructor. -/
def defaultConfig : AccountingConfig :=
  serviceConfig (1 / 1000) (5 / 10000) (by norm_num) (by norm_num)

/-! ## The figures of a fill -/

/-- `fill_qty`, `fill_price`, `fee` and `slippage_cost`. -/
structure Figures where
  quantity : ℚ
  price : ℚ
  fee : ℚ
  slippageCost : ℚ

/-- `drift`. -/
def drift (config : AccountingConfig) : OrderSide → ℚ
  | .buy => config.slippageRate
  | .sell => ambientContext.neg config.slippageRate

def figuresOf (config : AccountingConfig) (side : OrderSide) (quantity price : ℚ) :
    Except AccountingError Figures := do
  let fillQty ← config.qty quantity
  let reference ← config.price price
  let fillPrice ← config.price
    (ambientContext.mul reference (ambientContext.add 1 (drift config side)))
  let fee ← config.money
    (ambientContext.mul (ambientContext.mul fillQty fillPrice) config.feeRate)
  let slippageCost ← config.money
    (ambientContext.mul (ambientContext.round |ambientContext.sub fillPrice reference|) fillQty)
  return { quantity := fillQty, price := fillPrice, fee := fee, slippageCost := slippageCost }

/-- The funds a resting buy reserves: its notional at the limit and the fee on it. -/
def reservation (config : AccountingConfig) (quantity limitPrice : ℚ) : Except AccountingError ℚ :=
  config.money (ambientContext.mul (ambientContext.mul quantity limitPrice)
    (ambientContext.add 1 config.feeRate))

/-! ## The result of a fill -/

/-- What the engine makes of a fill of an order, its invariants asserted. -/
def planFill (config : AccountingConfig) (account : Account) (positions : Book) (symbol : String)
    (side : OrderSide) (figures : Figures) (release : ℚ) (filledAt : Instant) :
    Except AccountingError FillResult := do
  let result ← Accounting.applyFill account positions
    { symbol := symbol, side := side, quantity := figures.quantity, price := figures.price
      fee := figures.fee, filledAt := some filledAt, releaseFromLocked := release } config
  Accounting.assertInvariants result.account result.positions.items
    (Accounting.lastValidatedPrices result.positions) config
  return result

end VyomQuant.Paper.Service
