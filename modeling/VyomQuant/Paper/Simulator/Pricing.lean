/-
  VyomQuant.Paper.Simulator.Pricing

  The deterministic fill model of `paper_simulator.py`: which price an order is
  filled at, what the fee and the slippage of a fill are, when a resting limit order
  triggers and how much of it one event fills.

  A market order fills at its reference slipped in the adverse direction, a resting
  limit order at exactly its limit.  Products outside the accounting engine round to
  the ambient 28 digits, and every result is quantized by the session's quantizers.
-/

import VyomQuant.Paper.Simulator.Types

namespace VyomQuant.Paper

open Decimal Except
open Accounting (OrderSide AccountingError)

/-- A computation of the accounting engine, its exceptions passed through. -/
def ofAccounting {α : Type} : Except AccountingError α → Except PaperError α
  | .ok a => .ok a
  | .error e => .error (.accounting e)

theorem ofAccounting_eq_ok {α : Type} {x : Except AccountingError α} {a : α} :
    ofAccounting x = .ok a ↔ x = .ok a := by
  cases x with
  | ok b => simp [ofAccounting]
  | error e => simp [ofAccounting]

/-! ## Market orders -/

/-- `REFERENCE_FIELD_FOR_SIDE`: a buy lifts the ask, a sell hits the bid. -/
def quoteFor (event : MarketEvent) : OrderSide → Option ℚ
  | .buy => event.ask
  | .sell => event.bid

def positivePrice (candidate : Option ℚ) : Option ℚ :=
  candidate.filter fun price => 0 < price

/-- `reference_price`: the quote of the latest event, otherwise its close. -/
def referencePrice (event : Option MarketEvent) (side : OrderSide) : Option ℚ :=
  event.bind fun event => (positivePrice (quoteFor event side)).or (positivePrice event.close)

/-- `drift`: the recorded slippage rate, adverse to the side. -/
def slippageDrift (config : SessionConfig) : OrderSide → ℚ
  | .buy => config.slippageRate
  | .sell => ambientContext.neg config.slippageRate

/-- `market_fill_price`. -/
def marketFillPrice (reference : ℚ) (side : OrderSide) (config : SessionConfig) :
    Except PaperError ℚ :=
  if reference ≤ 0 then
    .error .invalidOrderIntent
  else
    ofAccounting (config.accounting.price (ambientContext.mul reference
      (ambientContext.add 1 (slippageDrift config side))))

/-- `slippage_amount`. -/
def slippageAmount (quantity fillPrice reference : ℚ) (config : SessionConfig) :
    Except AccountingError ℚ := do
  let qty ← config.accounting.qty quantity
  let price ← config.accounting.price fillPrice
  let ref ← config.accounting.price reference
  config.accounting.money
    (ambientContext.mul (ambientContext.round |ambientContext.sub price ref|) qty)

/-- `fee_amount`. -/
def feeAmount (quantity fillPrice : ℚ) (config : SessionConfig) : Except AccountingError ℚ := do
  let qty ← config.accounting.qty quantity
  let price ← config.accounting.price fillPrice
  config.accounting.money (ambientContext.mul (ambientContext.mul qty price) config.feeRate)

/-! ## Resting limit orders -/

/-- The first of some figures that the source supplied. -/
def firstSupplied (fields : List (Option ℚ)) : Option ℚ :=
  fields.findSome? id

/-- `limit_fill_triggered`: the low reaches a buy limit, the high a sell limit; the
    last trade and the close stand in for a missing extreme. -/
def limitFillTriggered (side : OrderSide) (limitPrice : Option ℚ) (event : MarketEvent) : Bool :=
  match limitPrice with
  | none => false
  | some limit =>
    if limit ≤ 0 then false
    else match side with
      | .buy => (firstSupplied [event.low, event.last, event.close]).any fun price => price ≤ limit
      | .sell =>
        (firstSupplied [event.high, event.last, event.close]).any fun price => limit ≤ price

/-- `limit_fill_price`. -/
def limitFillPrice (limitPrice : Option ℚ) (config : SessionConfig) : Except PaperError ℚ :=
  match limitPrice with
  | none => .error .invalidOrderIntent
  | some limit =>
    if limit ≤ 0 then .error .invalidOrderIntent
    else ofAccounting (config.accounting.price limit)

/-- `remaining_quantity`, floored at zero. -/
def remainingQuantity (quantity filledQuantity : ℚ) (config : SessionConfig) :
    Except AccountingError ℚ := do
  let ordered ← config.accounting.qty quantity
  let filled ← config.accounting.qty filledQuantity
  let remainder ← config.accounting.qty (ambientContext.sub ordered filled)
  return if 0 < remainder then remainder else 0

/-- `fillable_quantity`: the participation cap on the event's volume, if it has one. -/
def fillableQuantity (quantity filledQuantity : ℚ) (event : MarketEvent)
    (config : SessionConfig) : Except AccountingError ℚ := do
  let remaining ← remainingQuantity quantity filledQuantity config
  if remaining ≤ 0 then
    return 0
  else match event.volume with
    | none => return remaining
    | some volume =>
      if volume ≤ 0 ∨ config.participationRate ≤ 0 then
        return remaining
      else do
        let cap ← config.accounting.qty (ambientContext.mul volume config.participationRate)
        return if cap < remaining then cap else remaining

/-! ## Bounds of the fill model -/

theorem marketFillPrice_eq_ok {reference price : ℚ} {side : OrderSide} {config : SessionConfig} :
    marketFillPrice reference side config = .ok price ↔
      0 < reference ∧ config.accounting.price (ambientContext.mul reference
        (ambientContext.add 1 (slippageDrift config side))) = .ok price := by
  by_cases h_pos : reference ≤ 0
  · simp [marketFillPrice, h_pos]
  · simp [marketFillPrice, h_pos, ofAccounting_eq_ok, not_le.mp h_pos]

end VyomQuant.Paper
