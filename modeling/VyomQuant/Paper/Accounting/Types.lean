/-
  VyomQuant.Paper.Accounting.Types

  The data model of `paper_accounting.py`: the frozen session configuration with
  its three quantizers, positions, the account image, closed trades and the
  refusals the engine raises.

  Figures are rational numbers; every rounding the engine performs is explicit.
  `accountingContext` is the 34-digit context the module opens around each
  computation, and `config.money`, `config.qty` and `config.price` rescale to the
  session's recorded precisions under its recorded mode, refusing a coefficient
  that does not fit (`decimal.InvalidOperation`).

  A `Position` cannot be built with a blank symbol or a negative size, and a
  `Book` (the `{symbol: Position}` mapping) has one entry per symbol, under the
  position's own symbol.
-/

import VyomQuant.Lib.DecimalContext
import VyomQuant.Lib.KeyedList

namespace VyomQuant.Paper.Accounting

open Decimal

/-- An instant of the recorded clock. -/
abbrev Instant := ℤ

/-- `DECIMAL_PRECISION`. -/
def decimalPrecision : ℕ := 34

/-- The context every computation of the engine runs in. -/
def accountingContext : Context := ⟨decimalPrecision, by decide⟩

/-- `SIDES`: the direction of a position. -/
inductive PositionSide where
  | long
  | short
deriving DecidableEq

/-- `BUY` and `SELL`: the side of an order. -/
inductive OrderSide where
  | buy
  | sell
deriving DecidableEq

/-- `COST_BASES`: the one convention that is implemented. -/
inductive CostBasis where
  | weightedAverage

/-! ## Refusals -/

/-- The invariants an `InvariantViolation` names.  `position_side` is missing: a
    side outside `SIDES` has no value in `PositionSide`. -/
inductive Invariant where
  | totalEquity
  | availableBalance
  | lockedBalance
  | positionSize
deriving DecidableEq

/-- What an `InvalidQuantity` was raised about. -/
inductive QuantityRefusal where
  | positionSymbol
  | fillQuantity
  | fillPrice
  | fillFee
  | releaseFromLocked
  | resultingSize
  | lockAmount
  | unlockAmount
deriving DecidableEq

/-- The exceptions of the engine, `InvalidOperation` being the one raised by a
    `quantize` whose result has too many digits. -/
inductive AccountingError where
  | stalePrice (symbol : String)
  | invariantViolation (invariant : Invariant)
  | invalidQuantity (what : QuantityRefusal)
  | invalidOperation
deriving DecidableEq

/-! ## The session configuration -/

/-- `AccountingConfig`, with the constructor's checks as fields. -/
structure AccountingConfig where
  feeRate : ℚ
  slippageRate : ℚ
  roundingMode : RoundingMode
  costBasis : CostBasis
  pricePrecision : ℕ
  quantityPrecision : ℕ
  minorUnitExponent : ℕ
  feeRate_nonneg : 0 ≤ feeRate
  slippageRate_nonneg : 0 ≤ slippageRate

namespace AccountingConfig

/-- `quantize_money` and `quantize_qty` at `places` decimals. -/
def quantizeAt (config : AccountingConfig) (places : ℕ) (value : ℚ) :
    Except AccountingError ℚ :=
  .ofOption .invalidOperation (accountingContext.quantize config.roundingMode places value)

/-- A monetary amount at the currency's minor-unit scale. -/
def money (config : AccountingConfig) (value : ℚ) : Except AccountingError ℚ :=
  config.quantizeAt config.minorUnitExponent value

/-- A quantity at the symbol's quantity precision. -/
def qty (config : AccountingConfig) (value : ℚ) : Except AccountingError ℚ :=
  config.quantizeAt config.quantityPrecision value

/-- A price at the session's price precision. -/
def price (config : AccountingConfig) (value : ℚ) : Except AccountingError ℚ :=
  config.quantizeAt config.pricePrecision value

variable {config : AccountingConfig} {places : ℕ} {value result : ℚ}

theorem quantizeAt_eq_ok (h : config.quantizeAt places value = .ok result) :
    accountingContext.quantize config.roundingMode places value = some result :=
  Except.ofOption_eq_ok.mp h

@[simp] theorem qty_zero (config : AccountingConfig) : config.qty 0 = .ok 0 := by
  simp [qty, quantizeAt, Except.ofOption]

theorem quantizeAt_nonneg (h : config.quantizeAt places value = .ok result)
    (h_value : 0 ≤ value) : 0 ≤ result :=
  Context.quantize_nonneg (quantizeAt_eq_ok h) h_value

theorem quantizeAt_idem (h : config.quantizeAt places value = .ok result) :
    config.quantizeAt places result = .ok result :=
  Except.ofOption_eq_ok.mpr (Context.quantize_idem (quantizeAt_eq_ok h))

theorem quantizeAt_onGrid (h : config.quantizeAt places value = .ok result) :
    OnGrid places result :=
  Context.quantize_onGrid (quantizeAt_eq_ok h)

theorem quantizeAt_eq_self_iff : config.quantizeAt places value = .ok value ↔
    OnGrid places value ∧ |value| < 10 ^ ((accountingContext.prec : ℤ) - places) :=
  Except.ofOption_eq_ok.trans Context.quantize_eq_self_iff

end AccountingConfig

/-! ## Positions -/

/-- White space as `str.strip` removes it. -/
def isSpace (c : Char) : Bool :=
  c.toNat ∈ [0x09, 0x0a, 0x0b, 0x0c, 0x0d, 0x1c, 0x1d, 0x1e, 0x1f, 0x20, 0x85, 0xa0, 0x1680,
    0x2000, 0x2001, 0x2002, 0x2003, 0x2004, 0x2005, 0x2006, 0x2007, 0x2008, 0x2009, 0x200a,
    0x2028, 0x2029, 0x202f, 0x205f, 0x3000]

/-- `not symbol.strip()`. -/
def isBlank (symbol : String) : Bool :=
  symbol.toList.all isSpace

/-- The fields of a position, before the constructor's checks. -/
structure PositionFields where
  symbol : String
  side : PositionSide
  size : ℚ
  entryPrice : ℚ
  currentPrice : Option ℚ
  unrealizedPnl : Option ℚ
  priceAt : Option Instant
  openedAt : Option Instant
  closedAt : Option Instant
deriving DecidableEq

/-- `Position`: the constructor refuses a blank symbol and a negative size. -/
structure Position extends PositionFields where
  symbol_nonblank : isBlank symbol = false
  size_nonneg : 0 ≤ size

namespace Position

/-- `Position.__post_init__`, which `dataclasses.replace` runs as well. -/
def make (fields : PositionFields) : Except AccountingError Position :=
  if h_symbol : isBlank fields.symbol then
    .error (.invalidQuantity .positionSymbol)
  else if h_size : fields.size < 0 then
    .error (.invariantViolation .positionSize)
  else
    .ok ⟨fields, by simpa using h_symbol, not_lt.mp h_size⟩

theorem make_eq_ok {fields : PositionFields} {position : Position}
    (h : make fields = .ok position) : position.toPositionFields = fields := by
  unfold make at h
  split at h
  · cases h
  · split at h
    · cases h
    · cases h
      rfl

theorem make_of_wellFormed {fields : PositionFields} (h_symbol : isBlank fields.symbol = false)
    (h_size : 0 ≤ fields.size) : make fields = .ok ⟨fields, h_symbol, h_size⟩ := by
  unfold make
  rw [dif_neg (by simp [h_symbol]), dif_neg (not_lt.mpr h_size)]

theorem ext_fields {p q : Position} (h : p.toPositionFields = q.toPositionFields) : p = q := by
  cases p
  cases q
  cases h
  rfl

instance : DecidableEq Position := fun p q =>
  decidable_of_iff (p.toPositionFields = q.toPositionFields)
    ⟨ext_fields, fun h => h ▸ rfl⟩

/-- Whether the position holds quantity. -/
def isOpen (position : Position) : Prop := 0 < position.size

instance (position : Position) : Decidable position.isOpen :=
  inferInstanceAs (Decidable (0 < position.size))

end Position

/-- The symbol a position is stored under. -/
def Position.key (position : Position) : String := position.symbol

/-- `{symbol: Position}`, closed positions included. -/
abbrev Book := KeyedList Position.key

theorem Book.get?_symbol {positions : Book} {position : Position}
    (h : position ∈ positions.items) : positions.get? position.symbol = some position :=
  KeyedList.get?_key_of_mem h

/-- `{symbol: Decimal}`: the latest validated price of each symbol that has one. -/
abbrev Prices := String → Option ℚ

/-! ## The account and the results of a fill -/

/-- `Account`: one row of `paper_accounts`. -/
structure Account where
  availableBalance : ℚ
  lockedBalance : ℚ
  realizedPnl : ℚ
  totalEquity : ℚ
  currency : String

/-- `ClosedTrade`: a round trip whose position reached zero. -/
structure ClosedTrade where
  symbol : String
  side : PositionSide
  quantity : ℚ
  entryPrice : ℚ
  exitPrice : ℚ
  realizedPnl : ℚ
  fee : ℚ
  openedAt : Option Instant
  closedAt : Option Instant

/-- `FillResult`: the state after a fill and the deltas written beside it. -/
structure FillResult where
  account : Account
  positions : Book
  position : Position
  realizedPnl : ℚ
  fee : ℚ
  availableDelta : ℚ
  lockedDelta : ℚ
  realizedDelta : ℚ
  totalEquityDelta : ℚ
  positionMarketValue : ℚ
  closedTrade : Option ClosedTrade

/-- `Valuation`: the state after a revaluation. -/
structure Valuation where
  account : Account
  positions : Book
  positionMarketValue : ℚ
  unrealizedPnl : ℚ
  priceAt : Option Instant

end VyomQuant.Paper.Accounting
