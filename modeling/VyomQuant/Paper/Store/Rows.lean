/-
  VyomQuant.Paper.Store.Rows

  The rows of one paper account and its session, and the columns' own rules.

  Every statement of the simulator is scoped to one user, one session and one
  account, so the store holds that scope only.  `numeric` is the cast to
  `NUMERIC(28,10)`: it rounds half away from zero to ten decimals and refuses a
  number of more than eighteen integer digits; `bigint` refuses what 64 bits do not
  hold.  A row's `legacy_status` is not stored: every writer derives it from the
  order state it writes beside it.

  The clock of the store stands for the database's own: it draws the identity and
  the creation instant of a row, and moves with every row it draws.
-/

import VyomQuant.Paper.Simulator.Types

namespace VyomQuant.Paper

open Decimal Except
open Accounting (Instant OrderSide PositionSide Account)

/-! ## Column types -/

/-- The decimals of `NUMERIC(28,10)`. -/
def numericScale : ℕ := 10

/-- The cast to `NUMERIC(28,10)`. -/
def numeric (value : ℚ) : Except PaperError ℚ :=
  let coefficient := RoundingMode.halfUp.toInt (value * 10 ^ numericScale)
  if coefficient.natAbs < 10 ^ 28 then .ok (coefficient / 10 ^ numericScale)
  else .error .persistence

/-- A nullable `NUMERIC(28,10)` column. -/
def optionalNumeric : Option ℚ → Except PaperError (Option ℚ)
  | none => .ok none
  | some value => do
    let stored ← numeric value
    return some stored

/-- A `BIGINT` column. -/
def bigint (value : ℤ) : Except PaperError ℤ :=
  if -2 ^ 63 ≤ value ∧ value < 2 ^ 63 then .ok value else .error .persistence

/-- What a `NUMERIC(28,10)` column holds. -/
def IsNumeric (value : ℚ) : Prop :=
  OnGrid numericScale value ∧ |value| < 10 ^ 18

theorem numeric_isNumeric {value stored : ℚ} (h : numeric value = .ok stored) :
    IsNumeric stored := by
  simp only [numeric] at h
  split at h
  · rename_i h_fits
    cases h
    refine ⟨⟨_, rfl⟩, ?_⟩
    have h_abs : |((RoundingMode.halfUp.toInt (value * 10 ^ numericScale) : ℤ) : ℚ)|
        < 10 ^ 28 := by
      rw [← Int.cast_abs, Int.abs_eq_natAbs]
      exact_mod_cast h_fits
    rw [abs_div, abs_of_pos (show (0 : ℚ) < 10 ^ numericScale by positivity),
      div_lt_iff₀ (by positivity)]
    exact h_abs.trans_eq (by norm_num [numericScale])
  · cases h

theorem numeric_of_isNumeric {value : ℚ} (h : IsNumeric value) : numeric value = .ok value := by
  obtain ⟨⟨n, rfl⟩, h_lt⟩ := h
  have h_pos : (0 : ℚ) < 10 ^ numericScale := by positivity
  have h_scaled : (n : ℚ) / 10 ^ numericScale * 10 ^ numericScale = n :=
    div_mul_cancel₀ _ h_pos.ne'
  have h_fits : n.natAbs < 10 ^ 28 := by
    rw [abs_div, abs_of_pos h_pos, div_lt_iff₀ h_pos] at h_lt
    have h_abs : ((n.natAbs : ℕ) : ℚ) < ((10 ^ 28 : ℕ) : ℚ) := by
      rw [Nat.cast_natAbs, Int.cast_abs]
      exact h_lt.trans_eq (by norm_num [numericScale])
    exact_mod_cast h_abs
  simp only [numeric, h_scaled, RoundingMode.toInt_intCast, if_pos h_fits]

theorem numeric_eq_of_onGrid {places : ℕ} {value stored : ℚ} (h : numeric value = .ok stored)
    (h_places : places ≤ maxRecordedPrecision) (h_grid : OnGrid places value) :
    stored = value := by
  obtain ⟨n, rfl⟩ : OnGrid numericScale value := h_grid.mono h_places
  have h_pos : (0 : ℚ) < 10 ^ numericScale := by positivity
  have h_scaled : (n : ℚ) / 10 ^ numericScale * 10 ^ numericScale = n :=
    div_mul_cancel₀ _ h_pos.ne'
  simp only [numeric, h_scaled, RoundingMode.toInt_intCast] at h
  split at h
  · exact (Except.ok.inj h).symm
  · cases h

theorem isNumeric_of_onGrid {places : ℕ} {value stored : ℚ} (h : numeric value = .ok stored)
    (h_places : places ≤ maxRecordedPrecision) (h_grid : OnGrid places value) :
    stored = value ∧ IsNumeric value := by
  have h_eq := numeric_eq_of_onGrid h h_places h_grid
  exact ⟨h_eq, h_eq ▸ numeric_isNumeric h⟩

namespace IsNumeric

variable {x y : ℚ}

theorem zero : IsNumeric 0 := ⟨.zero _, by norm_num⟩

theorem neg (h : IsNumeric x) : IsNumeric (-x) := ⟨h.1.neg, by rw [abs_neg]; exact h.2⟩

theorem sub (hx : IsNumeric x) (hy : IsNumeric y) (hx_nonneg : 0 ≤ x) (hy_nonneg : 0 ≤ y) :
    IsNumeric (x - y) := by
  refine ⟨hx.1.sub hy.1, ?_⟩
  have h_x := (abs_lt.mp hx.2).2
  have h_y := (abs_lt.mp hy.2).2
  rw [abs_lt]
  constructor <;> linarith

end IsNumeric

/-! ## Identities and vocabularies -/

/-- `fill_event_id`.  The two shapes the simulator derives itself are told apart by
    construction; the second stands for the digest of the order and the event. -/
inductive FillEventId where
  | market (orderId : ℕ)
  | limit (orderId : ℕ) (sourceEventId : String)
  | named (text : String)
deriving DecidableEq

/-- `market_fill_event_id`. -/
def marketFillEventId (orderId : ℕ) : FillEventId := .market orderId

/-- `resting_fill_event_id`. -/
def restingFillEventId (orderId : ℕ) (event : MarketEvent) : FillEventId :=
  .limit orderId event.sourceEventId

/-- `paper_sessions.feed_state`. -/
inductive FeedState where
  | pending
  | healthy
  | fallbackRest
  | transportUnknown
  | degraded
deriving DecidableEq

/-- `paper_sessions.session_state`. -/
inductive SessionState where
  | created
  | running
  | paused
  | stopped
  | abandoned
deriving DecidableEq

/-- `BALANCE_EVENT_CAUSES`. -/
inductive BalanceEventCause where
  | orderLock
  | orderUnlock
  | fill
  | fee
  | reset
deriving DecidableEq

/-- `EQUITY_SNAPSHOT_CAUSES`. -/
inductive SnapshotCause where
  | sessionStart
  | fill
  | fee
  | revaluation
  | sessionStop

/-! ## Rows -/

/-- A row of `paper_accounts`. -/
structure AccountRow where
  availableBalance : ℚ
  lockedBalance : ℚ
  realizedPnl : ℚ
  totalEquity : ℚ
  currency : String
  version : ℕ
  lastPriceAt : Option Instant
  stale : Bool
  updatedAt : Instant
deriving DecidableEq

/-- A row of `paper_sessions`. -/
structure SessionRow where
  feedState : FeedState
  sessionState : SessionState
  initialCapitalMinor : ℤ

/-- A row of `paper_orders`. -/
structure OrderRow where
  id : ℕ
  symbol : String
  side : OrderSide
  orderType : OrderType
  quantity : ℚ
  limitPrice : Option ℚ
  referencePrice : Option ℚ
  filledQuantity : ℚ
  avgFillPrice : Option ℚ
  feeMinor : ℤ
  slippageMinor : ℤ
  orderState : OrderState
  rejectionReason : Option RejectionReason
  idempotencyKey : Option String
  signalId : Option String
  fingerprint : OrderFingerprint
  createdAt : Instant

/-- A row of `paper_fills`. -/
structure FillRow where
  id : ℕ
  orderId : ℕ
  fillEventId : FillEventId
  quantity : ℚ
  price : ℚ
  feeMinor : ℤ
  slippageMinor : ℤ
  marketEventId : Option String
  filledAt : Instant

/-- A row of `paper_positions`. -/
structure PositionRow where
  id : ℕ
  symbol : String
  side : PositionSide
  size : ℚ
  entryPrice : ℚ
  currentPrice : Option ℚ
  unrealizedPnl : Option ℚ
  priceAt : Option Instant
  openedAt : Instant
  closedAt : Option Instant
  version : ℕ
deriving DecidableEq

/-- A row of `paper_balance_events`. -/
structure BalanceEventRow where
  cause : BalanceEventCause
  availableDelta : ℚ
  lockedDelta : ℚ
  realizedDelta : ℚ
  availableAfter : ℚ
  lockedAfter : ℚ
  realizedAfter : ℚ
  fillId : Option ℕ
  occurredAt : Instant

/-- A row of `paper_trades`. -/
structure TradeRow where
  symbol : String
  side : PositionSide
  quantity : ℚ
  entryPrice : ℚ
  exitPrice : ℚ
  realizedPnl : ℚ
  feeMinor : ℤ
  openedAt : Instant
  closedAt : Instant

/-- A row of `paper_equity_snapshots`. -/
structure SnapshotRow where
  seriesIndex : ℤ
  totalEquity : ℚ
  availableBalance : ℚ
  lockedBalance : ℚ
  positionMarketValue : ℚ
  stale : Bool
  cause : SnapshotCause
  takenAt : Instant

/-- The rows of one account and its session. -/
structure Store where
  account : AccountRow
  session : SessionRow
  orders : List OrderRow
  fills : List FillRow
  positions : List PositionRow
  balanceEvents : List BalanceEventRow
  trades : List TradeRow
  snapshots : List SnapshotRow
  clock : ℕ

/-- The rows of a session that has just started with its capital. -/
def Store.started (capital : ℚ) : Store where
  account := {
    availableBalance := capital, lockedBalance := 0, realizedPnl := 0, totalEquity := capital
    currency := "USD", version := 1, lastPriceAt := none, stale := false, updatedAt := 0 }
  session := {
    feedState := .healthy, sessionState := .running
    initialCapitalMinor := ⌊capital * 100⌋ }
  orders := []
  fills := []
  positions := []
  balanceEvents := []
  trades := []
  snapshots := []
  clock := 0

/-- The `legacy_status` written beside an order state. -/
def OrderRow.legacyStatus (order : OrderRow) : LegacyStatus := order.orderState.legacyStatus

/-- Whether a position row is covered by the partial index `uq_paper_position_open`. -/
def PositionRow.isOpenFor (row : PositionRow) (symbol : String) : Bool :=
  row.symbol = symbol ∧ row.closedAt = none

/-- `account_of`. -/
def accountOf (row : AccountRow) : Account where
  availableBalance := row.availableBalance
  lockedBalance := row.lockedBalance
  realizedPnl := row.realizedPnl
  totalEquity := row.totalEquity
  currency := row.currency

end VyomQuant.Paper
