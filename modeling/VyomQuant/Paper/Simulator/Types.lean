/-
  VyomQuant.Paper.Simulator.Types

  What the simulator is given: the frozen session configuration, order intents and
  validated market events, with the refusals of the paper package.

  `SessionConfig` carries its constructor's checks as fields, so a configuration
  outside them cannot be built; `config.accounting` is the accounting engine's view
  of it.  An `OrderIntent` is coerced, not validated: its side and order type are
  texts that may be unrecognised, and `staticRejectionReason` decides.
-/

import VyomQuant.Paper.OrderState
import VyomQuant.Paper.Accounting.Fill
import VyomQuant.Lib.DecimalText

namespace VyomQuant.Paper

open Decimal
open Accounting (Instant OrderSide CostBasis AccountingConfig AccountingError Invariant)

/-- `ORDER_TYPES`. -/
inductive OrderType where
  | market
  | limit
deriving DecidableEq

/-! ## Refusals -/

/-- `REJECTION_REASONS`: what a rejected order carries. -/
inductive RejectionReason where
  | quantityNotPositive
  | quantityAboveMax
  | quantityPrecision
  | symbolNotValidated
  | orderTypeUnsupported
  | sideUnsupported
  | limitPriceNotPositive
  | limitPricePrecision
  | noValidatedPrice
  | insufficientFunds
deriving DecidableEq

/-- The `validation` a `PaperOrderInvalid` names. -/
inductive Validation where
  | rejected (reason : RejectionReason)
  | idempotencyKeyLength
  | illegalTransition (current target : OrderState)
deriving DecidableEq

/-- The operations that run under `with_retries`. -/
inductive RetriedOperation where
  | submitIntent
  | submitIntentLock
  | applyFill
deriving DecidableEq

/-- The `phase` of a refusal. -/
inductive Phase where
  | applyFill
  | orderLock
  | afterAccountUpdate
  | revaluation
deriving DecidableEq

/-- What the paper package raises.  A `PaperPersistenceError` is two cases, as only
    the transaction-rollback class is retried. -/
inductive PaperError where
  | concurrencyConflict
  | serializationFailure
  | persistence
  | duplicateFill
  | invalidOrderIntent
  | orderInvalid (validation : Validation)
  | overFill
  | invariantViolation (invariant : Invariant) (phase : Phase)
  | accounting (error : AccountingError)
  | feedNotHealthy
  | idempotencyConflict
  | concurrencyExhausted (operation : RetriedOperation) (phase : Option Phase)
      (partialWrite : Bool)
  | valueError
deriving DecidableEq

/-- `_is_retryable`: a version-guarded statement that matched no row, and a
    transaction rollback.  Nothing else is run again. -/
def isRetryable : PaperError → Bool
  | .concurrencyConflict => true
  | .serializationFailure => true
  | _ => false

/-! ## The session configuration -/

/-- `MAX_RECORDED_PRECISION`: the decimals of `NUMERIC(28,10)`. -/
def maxRecordedPrecision : ℕ := 10

/-- `SessionConfig`, with the constructor's checks as fields. -/
structure SessionConfig where
  feeRate : ℚ
  slippageRate : ℚ
  participationRate : ℚ
  roundingMode : RoundingMode
  costBasis : CostBasis
  pricePrecision : ℕ
  quantityPrecision : ℕ
  minorUnitExponent : ℕ
  maxOrderQuantity : ℚ
  supportedOrderTypes : List OrderType
  supportedSides : List OrderSide
  validatedSymbols : List String
  feeRate_mem : 0 ≤ feeRate ∧ feeRate ≤ 1
  slippageRate_mem : 0 ≤ slippageRate ∧ slippageRate ≤ 1
  participationRate_mem : 0 ≤ participationRate ∧ participationRate ≤ 1
  pricePrecision_le : pricePrecision ≤ maxRecordedPrecision
  quantityPrecision_le : quantityPrecision ≤ maxRecordedPrecision
  minorUnitExponent_le : minorUnitExponent ≤ maxRecordedPrecision
  maxOrderQuantity_pos : 0 < maxOrderQuantity
  supportedOrderTypes_valid : supportedOrderTypes ≠ [] ∧ supportedOrderTypes.Nodup
  supportedSides_valid : supportedSides ≠ [] ∧ supportedSides.Nodup
  validatedSymbols_valid : validatedSymbols ≠ [] ∧ validatedSymbols.Nodup
  validatedSymbols_nonblank : ∀ symbol ∈ validatedSymbols, Accounting.isBlank symbol = false

/-- `SessionConfig.accounting`. -/
def SessionConfig.accounting (config : SessionConfig) : AccountingConfig where
  feeRate := config.feeRate
  slippageRate := config.slippageRate
  roundingMode := config.roundingMode
  costBasis := config.costBasis
  pricePrecision := config.pricePrecision
  quantityPrecision := config.quantityPrecision
  minorUnitExponent := config.minorUnitExponent
  feeRate_nonneg := config.feeRate_mem.1
  slippageRate_nonneg := config.slippageRate_mem.1

/-- A spot session: cents, eight decimals of quantity, one tenth of a percent fee and
    half of that slippage. -/
def spotConfig : SessionConfig where
  feeRate := 1 / 1000
  slippageRate := 1 / 2000
  participationRate := 1
  roundingMode := .halfEven
  costBasis := .weightedAverage
  pricePrecision := 2
  quantityPrecision := 8
  minorUnitExponent := 2
  maxOrderQuantity := 1000
  supportedOrderTypes := [.market, .limit]
  supportedSides := [.buy, .sell]
  validatedSymbols := ["BTC/USDT"]
  feeRate_mem := by norm_num
  slippageRate_mem := by norm_num
  participationRate_mem := by norm_num
  pricePrecision_le := by decide
  quantityPrecision_le := by decide
  minorUnitExponent_le := by decide
  maxOrderQuantity_pos := by norm_num
  supportedOrderTypes_valid := by decide
  supportedSides_valid := by decide
  validatedSymbols_valid := by decide
  validatedSymbols_nonblank := by decide

/-! ## Market events -/

/-- A validated market event.  A figure the source did not supply is absent. -/
structure MarketEvent where
  sourceEventId : String
  symbol : String
  eventTimestamp : Instant
  high : Option ℚ
  low : Option ℚ
  close : Option ℚ
  volume : Option ℚ
  ask : Option ℚ
  bid : Option ℚ
  last : Option ℚ

/-! ## Order intents -/

/-- A lower-cased text: one of a vocabulary, or something else. -/
inductive Spelled (α : Type) where
  | recognised (value : α)
  | unrecognised (text : String)
deriving DecidableEq

/-- `OrderIntent`. -/
structure OrderIntent where
  symbol : String
  side : Spelled OrderSide
  orderType : Spelled OrderType
  quantity : ℚ
  limitPrice : Option ℚ
  timeInForce : String
  idempotencyKey : Option String
  signalId : Option String

/-- `order_fingerprint`, as the canonical fields its digest is taken over. -/
structure OrderFingerprint where
  symbol : String
  side : Spelled OrderSide
  orderType : Spelled OrderType
  quantity : ℚ
  limitPrice : Option ℚ
  timeInForce : String
deriving DecidableEq

/-- `order_fingerprint`. -/
def orderFingerprint (intent : OrderIntent) : OrderFingerprint where
  symbol := intent.symbol
  side := intent.side
  orderType := intent.orderType
  quantity := intent.quantity
  limitPrice := intent.limitPrice
  timeInForce := intent.timeInForce

/-- `IDEMPOTENCY_KEY_MAX_CHARS`. -/
def idempotencyKeyMaxChars : ℕ := 128

/-- `validate_idempotency_key`; the intent's constructor has stripped the key and
    dropped a blank one. -/
def validateIdempotencyKey : Option String → Except PaperError (Option String)
  | none => .ok none
  | some key =>
    if idempotencyKeyMaxChars < key.length then
      .error (.orderInvalid .idempotencyKeyLength)
    else
      .ok (some key)

namespace Spelled

/-- Membership of a text in a list of recognised values. -/
def isIn {α : Type} [DecidableEq α] (values : List α) : Spelled α → Bool
  | recognised value => value ∈ values
  | unrecognised _ => false

end Spelled

/-- The default decimal context, which arithmetic outside the accounting engine runs in. -/
def ambientContext : Context := ⟨28, Context.default.prec_pos⟩

theorem ambient_round_of_recorded {places : ℕ} {value : ℚ} (h_places : places ≤ maxRecordedPrecision)
    (h_grid : OnGrid places value) (h_lt : |value| < 10 ^ 18) :
    ambientContext.round value = value :=
  ambientContext.round_of_onGrid (h_grid.mono h_places)
    (by simpa [ambientContext, maxRecordedPrecision] using h_lt)

theorem quantizeAt_of_recorded (config : AccountingConfig) {places : ℕ} {value : ℚ}
    (h_places : places ≤ maxRecordedPrecision) (h_grid : OnGrid places value)
    (h_lt : |value| < 10 ^ 18) : config.quantizeAt places value = .ok value := by
  have h_pow : (10 : ℚ) ^ (18 : ℤ) ≤ 10 ^ ((34 : ℤ) - places) := by
    apply zpow_le_zpow_right₀ (by norm_num)
    unfold maxRecordedPrecision at h_places
    omega
  rw [AccountingConfig.quantizeAt, Except.ofOption_eq_ok]
  exact Context.quantize_of_onGrid h_grid (lt_of_lt_of_le (by exact_mod_cast h_lt) h_pow)

/-- The exponents of the default context. -/
def ambientRange : ExponentRange := ⟨-999999, 999999⟩

/-- `Decimal.normalize` in the default context; `none` is the `Overflow` it raises. -/
def normalize (value : ℚ) : Option ℚ := ambientContext.normalize ambientRange value

/-- `decimal_places(value) <= places`: `normalize` rounds to the ambient precision
    before it strips the trailing zeros.  An `Overflow` admits no order either. -/
def HasDecimalPlaces (places : ℕ) (value : ℚ) : Prop :=
  ∃ normal ∈ normalize value, decimalPlaces normal ≤ places

instance (places : ℕ) (value : ℚ) : Decidable (HasDecimalPlaces places value) :=
  inferInstanceAs (Decidable (∃ normal ∈ normalize value, decimalPlaces normal ≤ places))

/-- `static_rejection_reason`: the first check the intent fails. -/
def staticRejectionReason (intent : OrderIntent) (config : SessionConfig) :
    Option RejectionReason :=
  if intent.quantity ≤ 0 then some .quantityNotPositive
  else if config.maxOrderQuantity < intent.quantity then some .quantityAboveMax
  else if ¬ HasDecimalPlaces config.quantityPrecision intent.quantity then some .quantityPrecision
  else if intent.symbol ∉ config.validatedSymbols then some .symbolNotValidated
  else if intent.orderType.isIn config.supportedOrderTypes = false then
    some .orderTypeUnsupported
  else if intent.side.isIn config.supportedSides = false then some .sideUnsupported
  else match intent.limitPrice with
    | none => none
    | some limit =>
      if limit ≤ 0 then some .limitPriceNotPositive
      else if ¬ HasDecimalPlaces config.pricePrecision limit then some .limitPricePrecision
      else none

/-- `unrepresentable_order_constraint`: whether the intent's own values break a
    column constraint, so that not even a rejected order can be stored. -/
def unrepresentableOrderConstraint (intent : OrderIntent) : Bool :=
  if intent.quantity ≤ 0 then true
  else if intent.limitPrice.any fun limit => limit ≤ 0 then true
  else if intent.orderType.isIn [.market, .limit] = false then true
  else intent.side.isIn [.buy, .sell] = false

/-- What an intent that passes the static checks satisfies. -/
structure StaticallyValid (intent : OrderIntent) (config : SessionConfig) : Prop where
  quantity_pos : 0 < intent.quantity
  quantity_le : intent.quantity ≤ config.maxOrderQuantity
  quantity_places : HasDecimalPlaces config.quantityPrecision intent.quantity
  symbol_mem : intent.symbol ∈ config.validatedSymbols
  orderType_mem : ∃ orderType ∈ config.supportedOrderTypes,
    intent.orderType = .recognised orderType
  side_mem : ∃ side ∈ config.supportedSides, intent.side = .recognised side
  limitPrice_pos : ∀ limit ∈ intent.limitPrice, 0 < limit
  limitPrice_places : ∀ limit ∈ intent.limitPrice, HasDecimalPlaces config.pricePrecision limit

theorem Spelled.isIn_eq_true {α : Type} [DecidableEq α] {values : List α} {text : Spelled α} :
    text.isIn values = true ↔ ∃ value ∈ values, text = .recognised value := by
  cases text with
  | recognised value => simp [isIn]
  | unrecognised text => simp [isIn]

theorem staticRejectionReason_eq_none {intent : OrderIntent} {config : SessionConfig} :
    staticRejectionReason intent config = none ↔ StaticallyValid intent config := by
  constructor
  · intro h
    unfold staticRejectionReason at h
    split_ifs at h with h_pos h_max h_grid h_symbol h_type h_side
    rw [Bool.not_eq_false, Spelled.isIn_eq_true] at h_type h_side
    have h_limit : ∀ limit ∈ intent.limitPrice,
        0 < limit ∧ HasDecimalPlaces config.pricePrecision limit := by
      intro limit h_mem
      rw [Option.mem_def] at h_mem
      rw [h_mem] at h
      simp only at h
      split_ifs at h with h_limit_pos h_limit_grid
      exact ⟨not_le.mp h_limit_pos, h_limit_grid⟩
    exact ⟨not_le.mp h_pos, not_lt.mp h_max, h_grid, h_symbol, h_type,
      h_side, fun limit h_mem => (h_limit limit h_mem).1,
      fun limit h_mem => (h_limit limit h_mem).2⟩
  · intro h
    have h_type := Spelled.isIn_eq_true.mpr h.orderType_mem
    have h_side := Spelled.isIn_eq_true.mpr h.side_mem
    unfold staticRejectionReason
    rw [if_neg (not_le.mpr h.quantity_pos), if_neg (not_lt.mpr h.quantity_le),
      if_neg (not_not.mpr h.quantity_places), if_neg (not_not.mpr h.symbol_mem),
      if_neg (by simp [h_type]), if_neg (by simp [h_side])]
    cases h_limit : intent.limitPrice with
    | none => rfl
    | some limit =>
      simp only
      rw [if_neg (not_le.mpr (h.limitPrice_pos limit h_limit)),
        if_neg (not_not.mpr (h.limitPrice_places limit h_limit))]

end VyomQuant.Paper
