/-
  VyomQuant.Paper.Simulator.ClosingOrders

  Whether an open position can be closed by a market order.

  The funds check of `submit_intent` does not look at the side: an order that returns cash
  needs its `required_funds` available like one that spends it.  So a position is closed when
  that much of the capital is still uncommitted, at whatever price (`openPosition_exits_iff`),
  and one that was opened with all of it is not closed at all.
-/

import VyomQuant.Paper.Accounting.Closing
import VyomQuant.Paper.Simulator.Funds

namespace VyomQuant.Paper

open Decimal Except
open Accounting (Instant OrderSide PositionSide Account Book Position FillRecord Flat Sound
  RealizedFits ClosingRequest accountingContext openPosition sideForOrder)

/-! ## From a signal to an intent -/

/-- The decisions of a signal; `_normalise_decision` produces the first four. -/
inductive Decision where
  | buy
  | sell
  | exit
  | close
  | other (text : String)
deriving DecidableEq

/-- What `signal_to_intent` reads of a `PaperSignal`. -/
structure PaperSignal where
  signalId : String
  decision : Decision
  symbol : String
  side : Option OrderSide
  quantity : Option ℚ
  orderType : OrderType
  limitPrice : Option ℚ

/-- `is_exit`: the decision is one of `EXIT_DECISIONS`. -/
def PaperSignal.isExit (signal : PaperSignal) : Bool :=
  signal.decision = .exit ∨ signal.decision = .close

/-- `SIDE_FOR_DECISION`. -/
def sideForDecision : Decision → Option OrderSide
  | .buy => some .buy
  | .sell => some .sell
  | _ => none

/-- `CLOSING_SIDE_FOR_POSITION`. -/
def closingSideForPosition : PositionSide → OrderSide
  | .long => .sell
  | .short => .buy

/-- `NO_INTENT_REASONS`. -/
inductive NoIntentReason where
  | signalStatesNoSide
  | signalStatesNoQuantity
  | signalQuantityNotPositive
  | noOpenPositionToClose
  | limitSignalStatesNoLimitPrice

/-- `DEFAULT_TIME_IN_FORCE`. -/
def defaultTimeInForce : String := "GTC"

/-- The side of the intent: the signal's own, or the one that closes the open position. -/
def intentSide (signal : PaperSignal) (position : Option Position) :
    Except NoIntentReason OrderSide :=
  match signal.side.or (sideForDecision signal.decision) with
  | some side => .ok side
  | none =>
    if signal.isExit then
      match position with
      | none => .error .noOpenPositionToClose
      | some position => .ok (closingSideForPosition position.side)
    else .error .signalStatesNoSide

/-- The quantity of the intent: the signal's own, or the size of the open position. -/
def intentQuantity (signal : PaperSignal) (position : Option Position) : Except NoIntentReason ℚ :=
  match signal.quantity with
  | some quantity => .ok quantity
  | none =>
    if signal.isExit then
      match position with
      | none => .error .noOpenPositionToClose
      | some position => .ok position.size
    else .error .signalStatesNoQuantity

/-- `signal_to_intent`. -/
def signalToIntent (signal : PaperSignal) (positions : Book) (idempotencyKey : Option String) :
    Except NoIntentReason OrderIntent := do
  let position := openPosition positions signal.symbol
  let side ← intentSide signal position
  let quantity ← intentQuantity signal position
  Except.refuseIf (quantity ≤ 0) .signalQuantityNotPositive
  Except.refuseIf (signal.orderType = .limit ∧ signal.limitPrice = none)
    .limitSignalStatesNoLimitPrice
  return {
    symbol := signal.symbol, side := .recognised side
    orderType := .recognised signal.orderType, quantity, limitPrice := signal.limitPrice
    timeInForce := defaultTimeInForce, idempotencyKey, signalId := some signal.signalId }

/-! ## Closing intents -/

/-- A market intent for the whole position, on the side that closes it. -/
structure ClosingIntent (position : Position) (intent : OrderIntent) : Prop where
  symbol : intent.symbol = position.symbol
  side : intent.side = .recognised (closingSideForPosition position.side)
  orderType : intent.orderType = .recognised .market
  quantity : intent.quantity = position.size

/-- The intent of an exit signal that leaves its side and its size to the open position. -/
def PaperSignal.closing (signal : PaperSignal) (position : Position)
    (idempotencyKey : Option String) : OrderIntent where
  symbol := signal.symbol
  side := .recognised (closingSideForPosition position.side)
  orderType := .recognised signal.orderType
  quantity := position.size
  limitPrice := signal.limitPrice
  timeInForce := defaultTimeInForce
  idempotencyKey := idempotencyKey
  signalId := some signal.signalId

section ExitSignals

variable {signal : PaperSignal} {positions : Book} {position : Position} {key : Option String}

theorem sideForDecision_of_isExit (h_exit : signal.isExit = true) :
    sideForDecision signal.decision = none := by
  rcases of_decide_eq_true h_exit with h | h
  · rw [h]
    rfl
  · rw [h]
    rfl

theorem intentSide_closing (h_exit : signal.isExit = true) (h_side : signal.side = none) :
    intentSide signal (some position) = .ok (closingSideForPosition position.side) := by
  unfold intentSide
  rw [h_side, sideForDecision_of_isExit h_exit, h_exit]
  rfl

theorem intentQuantity_closing (h_exit : signal.isExit = true) (h_quantity : signal.quantity = none) :
    intentQuantity signal (some position) = .ok position.size := by
  unfold intentQuantity
  rw [h_quantity, h_exit]
  rfl

/-- An exit at the market that leaves its side and its size to the open position is built as
    the intent that closes it. -/
theorem signalToIntent_closing (h_exit : signal.isExit = true) (h_side : signal.side = none)
    (h_quantity : signal.quantity = none) (h_market : signal.orderType = .market)
    (h_open : openPosition positions signal.symbol = some position) :
    signalToIntent signal positions key = .ok (signal.closing position key) := by
  have h_pos : 0 < position.size := by
    unfold openPosition at h_open
    have h_isOpen := (Option.filter_eq_some_iff.mp h_open).2
    exact of_decide_eq_true h_isOpen
  have h_limit : ¬ (signal.orderType = .limit ∧ signal.limitPrice = none) := by
    rw [h_market]
    rintro ⟨h, _⟩
    cases h
  unfold signalToIntent
  rw [h_open]
  refine bind_eq_ok.mpr ⟨_, intentSide_closing h_exit h_side, ?_⟩
  refine bind_eq_ok.mpr ⟨_, intentQuantity_closing h_exit h_quantity, ?_⟩
  refine bind_eq_ok.mpr ⟨(), refuseIf_eq_ok.mpr (not_le.mpr h_pos), ?_⟩
  exact bind_eq_ok.mpr ⟨(), refuseIf_eq_ok.mpr h_limit, rfl⟩

theorem closingIntent_closing (h_market : signal.orderType = .market)
    (h_symbol : position.symbol = signal.symbol) :
    ClosingIntent position (signal.closing position key) where
  symbol := h_symbol.symm
  side := rfl
  orderType := by
    show Spelled.recognised signal.orderType = .recognised .market
    rw [h_market]
  quantity := rfl

end ExitSignals

/-! ## The funds check of a closing intent -/

section Closing

variable {config : SessionConfig} {account : Account} {positions : Book} {position : Position}
  {submission : Submission} {order : OrderRow} {reference price fee value : ℚ}

theorem staticRejectionReason_ne_funds (intent : OrderIntent) (config : SessionConfig) :
    staticRejectionReason intent config ≠ some .insufficientFunds := by
  intro h
  unfold staticRejectionReason at h
  split_ifs at h
  all_goals try cases h
  split at h
  · cases h
  · split_ifs at h
    all_goals cases h

/-- A reference at the price precision, and positive, is decided by the funds alone. -/
theorem assess_closing {available : ℚ} (h_intent : ClosingIntent position submission.intent)
    (h_static : staticRejectionReason submission.intent config = none)
    (h_reference : resolveReference config submission (closingSideForPosition position.side)
      = .ok (some reference)) (h_pos : 0 < reference) :
    assess config submission available
      = (ofAccounting (Accounting.requiredFunds position.size reference config.accounting)).map
          fun required =>
            if available < required then
              .rejected .insufficientFunds (some reference) (some required)
            else .accepted reference required := by
  have h_side : oneOf submission.intent.side = .ok (closingSideForPosition position.side) := by
    rw [h_intent.side]
    rfl
  unfold assess
  rw [h_static]
  dsimp only
  rw [h_side]
  show (ofAccounting (resolveReference config submission _) >>= _) = _
  rw [h_reference]
  show (if reference ≤ 0 then _ else _) = _
  rw [if_neg (not_le.mpr h_pos), h_intent.quantity]
  cases Accounting.requiredFunds position.size reference config.accounting with
  | error e => rfl
  | ok required =>
    by_cases h_funds : available < required
    · show (if available < required then pure _ else pure _) = Except.ok (if _ then _ else _)
      rw [if_pos h_funds, if_pos h_funds]
      rfl
    · show (if available < required then pure _ else pure _) = Except.ok (if _ then _ else _)
      rw [if_neg h_funds, if_neg h_funds]
      rfl

/-! ## The fill of a closing intent -/

/-- The closing assert of the simulator holds of what the engine returns. -/
theorem engineFill_of_applyFill {request : Accounting.FillRequest} {result : Accounting.FillResult}
    (h_fill : Accounting.applyFill account positions request config.accounting = .ok result)
    (h_price : config.accounting.price request.price = .ok request.price) :
    engineFill account positions request config = .ok result := by
  obtain ⟨trace⟩ := Accounting.applyFill_eq_ok h_fill
  obtain ⟨_, h_figure, _⟩ := Accounting.fillFigures_eq_ok.mp trace.figures_eq
  have h_fillPrice : request.price = trace.figures.fillPrice :=
    ok.inj (h_price.symm.trans h_figure)
  have h_current : result.position.currentPrice = some trace.figures.fillPrice := by
    rw [trace.position_eq]
    exact (Accounting.changePosition_cases trace.change_eq).currentPrice_eq
  have h_recorded : Accounting.lastValidatedPrices result.positions request.symbol
      = some request.price := by
    unfold Accounting.lastValidatedPrices
    rw [trace.positions_eq, ← trace.key_eq, KeyedList.get?_put_self, h_fillPrice]
    exact h_current
  have h_prices : Function.update (Accounting.lastValidatedPrices result.positions) request.symbol
      (some request.price) = Accounting.lastValidatedPrices result.positions := by
    rw [← h_recorded, Function.update_eq_self]
  have h_holds : Accounting.invariantsHold result.account result.positions.items
      (Accounting.lastValidatedPrices result.positions) config.accounting = .ok true :=
    @Accounting.Ledger.applyFill_holds config.accounting ⟨account, positions⟩ request result h_fill
  have h_assert : Accounting.assertInvariants result.account result.positions.items
      (Accounting.lastValidatedPrices result.positions) config.accounting = .ok () := by
    simp only [Accounting.invariantsHold, bind_eq_ok, pure_eq_ok] at h_holds
    obtain ⟨invariant, h_violated, h_none⟩ := h_holds
    rw [Option.isNone_iff_eq_none] at h_none
    subst h_none
    exact bind_eq_ok.mpr ⟨none, h_violated, rfl⟩
  have h_outcome : (do
      let result ← Accounting.applyFill account positions request config.accounting
      Accounting.assertInvariants result.account result.positions.items
        (Function.update (Accounting.lastValidatedPrices result.positions) request.symbol
          (some request.price)) config.accounting
      return result) = Except.ok result := by
    refine bind_eq_ok.mpr ⟨result, h_fill, bind_eq_ok.mpr ⟨(), ?_, rfl⟩⟩
    rw [h_prices]
    exact h_assert
  unfold engineFill
  rw [h_outcome]

theorem side_ne_closing (side : PositionSide) :
    side ≠ sideForOrder (closingSideForPosition side) := by
  cases side with
  | long => decide
  | short => decide

theorem feeAmount_nonneg (h_quantity : 0 ≤ position.size) (h_price : 0 ≤ price)
    (h_fee : feeAmount position.size price config = .ok fee) : 0 ≤ fee := by
  unfold feeAmount at h_fee
  obtain ⟨qty, h_qty, h_fee⟩ := bind_eq_ok.mp h_fee
  obtain ⟨figure, h_figure, h_fee⟩ := bind_eq_ok.mp h_fee
  have h_qty_nonneg := Accounting.AccountingConfig.quantizeAt_nonneg h_qty h_quantity
  have h_figure_nonneg := Accounting.AccountingConfig.quantizeAt_nonneg h_figure h_price
  apply Accounting.AccountingConfig.quantizeAt_nonneg h_fee
  apply Context.round_nonneg
  apply mul_nonneg _ config.feeRate_mem.1
  apply Context.round_nonneg
  exact mul_nonneg h_qty_nonneg h_figure_nonneg

theorem money_feeAmount (h_fee : feeAmount position.size price config = .ok fee) :
    config.accounting.money fee = .ok fee := by
  unfold feeAmount at h_fee
  obtain ⟨qty, _, h_fee⟩ := bind_eq_ok.mp h_fee
  obtain ⟨figure, _, h_fee⟩ := bind_eq_ok.mp h_fee
  exact Accounting.AccountingConfig.quantizeAt_idem h_fee

/-- The fill of a closing intent is applied exactly when its price is above zero and its
    realized profit fits. -/
theorem marketOrderFill_closing_iff {intent : OrderIntent} {filledAt : Instant}
    {marketEventId : Option String} {seriesIndex : ℤ}
    (h_sound : Sound config.accounting account positions)
    (h_open : openPosition positions order.symbol = some position)
    (h_quantity : intent.quantity = position.size)
    (h_side : order.side = closingSideForPosition position.side)
    (h_price : marketFillPrice reference order.side config = .ok price)
    (h_fee : feeAmount position.size price config = .ok fee)
    (h_value : config.accounting.money (Accounting.positionValue position price) = .ok value)
    (h_covers : fee ≤ value) :
    (∃ result, marketOrderFill config account positions order intent reference filledAt marketEventId
        seriesIndex = .ok result) ↔
      0 < price ∧ RealizedFits config.accounting position price := by
  have h_size := h_sound.sizes order.symbol position h_open
  have h_quantized : config.accounting.price price = .ok price :=
    Accounting.AccountingConfig.quantizeAt_idem (marketFillPrice_eq_ok.mp h_price).2
  let call := marketFillCall order.id intent price reference filledAt marketEventId seriesIndex
  let request := fillRequestFor call order position.size price fee 0
  have h_request : 0 < price → ClosingRequest config.accounting position request := fun h_pos => {
    side := by
      show position.side ≠ sideForOrder order.side
      rw [h_side]
      exact side_ne_closing position.side
    quantity := rfl
    price := h_quantized
    fee := money_feeAmount h_fee
    fee_nonneg := feeAmount_nonneg position.size_nonneg h_pos.le h_fee
    release := rfl }
  have h_engine : 0 < price →
      ((∃ result, Accounting.applyFill account positions request config.accounting = .ok result) ↔
        RealizedFits config.accounting position price) := fun h_pos =>
    Accounting.applyFill_closing_iff h_sound h_open (h_request h_pos) h_pos h_value h_covers
  constructor
  · rintro ⟨result, h_fill⟩
    obtain ⟨_, h_slipped, h_fill⟩ := bind_eq_ok.mp h_fill
    obtain rfl := ok.inj (h_price.symm.trans h_slipped)
    obtain ⟨⟨qty, figure⟩, h_figures, h_fill⟩ := bind_eq_ok.mp h_fill
    obtain ⟨h_qty, h_figure, _, h_pos⟩ := fillFigures_eq_ok.mp h_figures
    obtain rfl : price = figure := ok.inj (h_quantized.symm.trans h_figure)
    obtain rfl : position.size = qty := by
      have h_own : config.accounting.qty intent.quantity = .ok qty := h_qty
      rw [h_quantity, h_size] at h_own
      exact ok.inj h_own
    obtain ⟨_, h_charged, h_fill⟩ := bind_eq_ok.mp h_fill
    obtain rfl := ok.inj (h_fee.symm.trans (ofAccounting_eq_ok.mp h_charged))
    exact ⟨h_pos, (h_engine h_pos).mp ⟨result, engineFill_eq_ok h_fill⟩⟩
  · rintro ⟨h_pos, h_fits⟩
    obtain ⟨result, h_fill⟩ := (h_engine h_pos).mpr h_fits
    have h_isOpen : 0 < position.size := by
      unfold openPosition at h_open
      exact of_decide_eq_true (Option.filter_eq_some_iff.mp h_open).2
    have h_figures : fillFigures config call = .ok (position.size, price) := by
      refine fillFigures_eq_ok.mpr ⟨?_, h_quantized, h_isOpen, h_pos⟩
      show config.accounting.qty intent.quantity = .ok position.size
      rw [h_quantity]
      exact h_size
    refine ⟨result, bind_eq_ok.mpr ⟨price, h_price, bind_eq_ok.mpr ⟨_, h_figures, ?_⟩⟩⟩
    refine bind_eq_ok.mpr ⟨fee, ofAccounting_eq_ok.mpr h_fee, ?_⟩
    exact engineFill_of_applyFill h_fill h_quantized

/-! ## Exits -/

/-- The market order is not rejected for its funds, and its fill is not refused. -/
structure Exits (config : SessionConfig) (account : Account) (positions : Book) (order : OrderRow)
    (submission : Submission) (filledAt : Instant) : Prop where
  not_rejected : ∀ ref required, assess config submission account.availableBalance
    ≠ .ok (.rejected .insufficientFunds ref required)
  not_refused : ∀ ref required,
    assess config submission account.availableBalance = .ok (.accepted ref required) →
      ∃ result, marketOrderFill config account positions order submission.intent ref filledAt
        (submission.latestEvent.map MarketEvent.sourceEventId) submission.seriesIndex = .ok result

/-- An intent that the static checks let through finds its funds available, and its slipped
    price is above zero with a realized profit that fits. -/
def CanExit (config : SessionConfig) (account : Account) (position : Position) (intent : OrderIntent)
    (reference price : ℚ) : Prop :=
  staticRejectionReason intent config = none →
    ∀ required, Accounting.requiredFunds position.size reference config.accounting = .ok required →
      required ≤ account.availableBalance ∧ 0 < price ∧
        RealizedFits config.accounting position price

/-- An open position whose proceeds at the slipped price cover the fee is closed by a market
    order exactly when the funds check, which does not look at the side, finds the whole
    reservation available, and the slipped price and the realized profit can be written. -/
theorem openPosition_exits_iff {account₀ : Account} {positions₀ : Book} {records : List FillRecord}
    {filledAt : Instant}
    (h_run : Accounting.FillRun config.accounting account₀ positions₀ records account positions)
    (h_flat : Flat positions₀) (h_available : 0 ≤ account₀.availableBalance)
    (h_locked : 0 ≤ account₀.lockedBalance)
    (h_open : openPosition positions order.symbol = some position)
    (h_intent : ClosingIntent position submission.intent)
    (h_side : order.side = closingSideForPosition position.side)
    (h_reference : resolveReference config submission (closingSideForPosition position.side)
      = .ok (some reference)) (h_pos : 0 < reference)
    (h_price : marketFillPrice reference order.side config = .ok price)
    (h_fee : feeAmount position.size price config = .ok fee)
    (h_value : config.accounting.money (Accounting.positionValue position price) = .ok value)
    (h_covers : fee ≤ value) :
    Exits config account positions order submission filledAt ↔
      CanExit config account position submission.intent reference price := by
  have h_sound : Sound config.accounting account positions :=
    h_run.sound (.of_flat h_flat h_available h_locked)
  have h_filled : (∃ result, marketOrderFill config account positions order submission.intent
        reference filledAt (submission.latestEvent.map MarketEvent.sourceEventId)
        submission.seriesIndex = .ok result) ↔
      0 < price ∧ RealizedFits config.accounting position price :=
    marketOrderFill_closing_iff h_sound h_open h_intent.quantity h_side h_price h_fee h_value h_covers
  cases h_static : staticRejectionReason submission.intent config with
  | some reason =>
    -- Rejected before the funds are looked at, and never filled.
    have h_assess : assess config submission account.availableBalance
        = .ok (.rejected reason none none) := by
      unfold assess
      rw [h_static]
    refine iff_of_true ⟨fun ref required h => ?_, fun ref required h => ?_⟩ fun h => ?_
    · rw [h_assess] at h
      cases h
      exact staticRejectionReason_ne_funds _ _ h_static
    · rw [h_assess] at h
      cases h
    · rw [h_static] at h
      cases h
  | none =>
    have h_assess := @assess_closing config position submission reference account.availableBalance
      h_intent h_static h_reference h_pos
    cases h_required : Accounting.requiredFunds position.size reference config.accounting with
    | error e =>
      rw [h_required] at h_assess
      refine iff_of_true ⟨fun ref required h => ?_, fun ref required h => ?_⟩ fun _ required h => ?_
      · rw [h_assess] at h
        cases h
      · rw [h_assess] at h
        cases h
      · rw [h_required] at h
        cases h
    | ok required =>
      rw [h_required] at h_assess
      by_cases h_funds : account.availableBalance < required
      · have h_rejected : assess config submission account.availableBalance
            = .ok (.rejected .insufficientFunds (some reference) (some required)) := by
          rw [h_assess]
          exact congrArg Except.ok (if_pos h_funds)
        refine iff_of_false (fun h => h.not_rejected _ _ h_rejected) fun h => ?_
        exact absurd (h h_static required h_required).1 (not_le.mpr h_funds)
      · have h_accepted : assess config submission account.availableBalance
            = .ok (.accepted reference required) := by
          rw [h_assess]
          exact congrArg Except.ok (if_neg h_funds)
        constructor
        · intro h _ required' h_required'
          obtain rfl := ok.inj (h_required.symm.trans h_required')
          exact ⟨not_lt.mp h_funds, h_filled.mp (h.not_refused _ _ h_accepted)⟩
        · intro h
          refine ⟨fun ref required h_eq => ?_, fun ref required h_eq => ?_⟩
          · rw [h_accepted] at h_eq
            cases h_eq
          · rw [h_accepted] at h_eq
            cases h_eq
            exact h_filled.mpr (h h_static _ h_required).2

end Closing

/-! ## A position that took the whole capital -/

/-- The fill of a market order to buy ten at 100.00. -/
def buyTenFill : Accounting.FillRequest := ⟨"BTC/USDT", .buy, 10, 10005 / 100, 1, some 1, 0⟩

def boughtTen (capital : ℚ) :
    Except Accounting.AccountingError (List FillRecord × Account × Book) :=
  Accounting.fillAll spotConfig.accounting ⟨capital, 0, 0, capital, "USD"⟩ KeyedList.empty
    [buyTenFill]

/-- The validated event of a close, which carries no quote. -/
def closeEvent (close : ℚ) : MarketEvent where
  sourceEventId := "close"
  symbol := "BTC/USDT"
  eventTimestamp := 1
  high := none
  low := none
  close := some close
  volume := none
  ask := none
  bid := none
  last := none

/-- An exit that states neither a side nor a quantity. -/
def exitSignal : PaperSignal := ⟨"exit", .exit, "BTC/USDT", none, none, .market, none⟩

def sellTen : OrderIntent where
  symbol := "BTC/USDT"
  side := .recognised .sell
  orderType := .recognised .market
  quantity := 10
  limitPrice := none
  timeInForce := "GTC"
  idempotencyKey := none
  signalId := some "exit"

def sellTenRow : OrderRow :=
  { buyOneRow with side := .sell, quantity := 10, fingerprint := orderFingerprint sellTen }

theorem exitSignal_closing {position : Position} (h_side : position.side = .long)
    (h_size : position.size = 10) : exitSignal.closing position none = sellTen := by
  unfold PaperSignal.closing
  rw [h_side, h_size]
  rfl

def exitSubmission : Submission where
  intent := sellTen
  latestEvent := some (closeEvent 100)

def enterSubmission : Submission where
  intent := { buyOne with quantity := 10 }
  latestEvent := some (closeEvent 100)

theorem boughtTen_position {capital left : ℚ}
    (h : (boughtTen capital).map (fun run => (run.2.1.availableBalance,
        (openPosition run.2.2 "BTC/USDT").map fun position =>
          (position.symbol, position.side, position.size, position.entryPrice)))
      = .ok (left, some ("BTC/USDT", .long, 10, 10005 / 100))) :
    ∃ records account positions position,
      Accounting.FillRun spotConfig.accounting ⟨capital, 0, 0, capital, "USD"⟩ KeyedList.empty
        records account positions ∧
      account.availableBalance = left ∧ openPosition positions "BTC/USDT" = some position ∧
      position.symbol = "BTC/USDT" ∧ position.side = .long ∧ position.size = 10 ∧
      position.entryPrice = 10005 / 100 := by
  cases h_run : boughtTen capital with
  | error e =>
    rw [h_run] at h
    cases h
  | ok run =>
    rw [h_run] at h
    simp only [Except.map, Except.ok.injEq, Prod.mk.injEq, Option.map_eq_some_iff] at h
    obtain ⟨h_left, position, h_open, h_symbol, h_side, h_size, h_entry⟩ := h
    exact ⟨run.1, run.2.1, run.2.2, position, Accounting.fillRun_of_fillAll h_run, h_left, h_open,
      h_symbol, h_side, h_size, h_entry⟩

theorem sellTen_proceeds {position : Position} (h_side : position.side = .long)
    (h_size : position.size = 10) :
    marketFillPrice 100 .sell spotConfig = .ok (9995 / 100) ∧
      feeAmount position.size (9995 / 100) spotConfig = .ok 1 ∧
      spotConfig.accounting.money (Accounting.positionValue position (9995 / 100))
        = .ok (9995 / 10) := by
  have h_worth : Accounting.positionValue position (9995 / 100)
      = accountingContext.mul 10 (9995 / 100) := by
    unfold Accounting.positionValue
    rw [h_side, h_size]
  rw [h_worth, h_size]
  decide +kernel

/-- Ten are bought with 1001.50, which the funds check asks for and the fill takes.  Selling them
    at the same price would bring 998.50, and is rejected for want of 1001.50. -/
theorem committed_position_cannot_exit :
    assess spotConfig enterSubmission (2003 / 2) = .ok (.accepted 100 (2003 / 2)) ∧
    ∃ records account positions position,
      Accounting.FillRun spotConfig.accounting ⟨2003 / 2, 0, 0, 2003 / 2, "USD"⟩ KeyedList.empty
        records account positions ∧
      openPosition positions "BTC/USDT" = some position ∧
      position.size ≤ spotConfig.maxOrderQuantity ∧
      signalToIntent exitSignal positions none = .ok exitSubmission.intent ∧
      ClosingIntent position exitSubmission.intent ∧
      resolveReference spotConfig exitSubmission .sell = .ok (some 100) ∧
      100 ≤ 2 * position.entryPrice ∧
      (∃ price fee value, marketFillPrice 100 .sell spotConfig = .ok price ∧
        feeAmount position.size price spotConfig = .ok fee ∧
        spotConfig.accounting.money (Accounting.positionValue position price) = .ok value ∧
        fee ≤ value) ∧
      assess spotConfig exitSubmission account.availableBalance
        = .ok (.rejected .insufficientFunds (some 100) (some (2003 / 2))) := by
  refine ⟨by decide +kernel, ?_⟩
  obtain ⟨records, account, positions, position, h_run, h_left, h_open, h_symbol, h_side, h_size,
    h_entry⟩ := @boughtTen_position (2003 / 2) 0 (by decide +kernel)
  obtain ⟨h_price, h_fee, h_value⟩ := sellTen_proceeds h_side h_size
  have h_closing := exitSignal_closing h_side h_size
  have h_signal : signalToIntent exitSignal positions none = .ok (exitSignal.closing position none) :=
    signalToIntent_closing rfl rfl rfl rfl h_open
  have h_intent := @closingIntent_closing exitSignal position none rfl h_symbol
  rw [h_closing] at h_signal h_intent
  refine ⟨records, account, positions, position, h_run, h_open, ?_, h_signal, h_intent,
    by decide +kernel, ?_, ⟨_, _, _, h_price, h_fee, h_value, by norm_num⟩, ?_⟩
  · rw [h_size]
    decide +kernel
  · rw [h_entry]
    norm_num
  · rw [h_left]
    decide +kernel

/-- Bought with 3000, the same ten are sold. -/
theorem openPosition_exits_iff_sample :
    ∃ records account positions,
      Accounting.FillRun spotConfig.accounting ⟨3000, 0, 0, 3000, "USD"⟩ KeyedList.empty
        records account positions ∧
      Exits spotConfig account positions sellTenRow exitSubmission 1 := by
  obtain ⟨records, account, positions, position, h_run, h_left, h_open, h_symbol, h_side, h_size,
    h_entry⟩ := @boughtTen_position 3000 (3997 / 2) (by decide +kernel)
  obtain ⟨h_price, h_fee, h_value⟩ := sellTen_proceeds h_side h_size
  have h_intent := @closingIntent_closing exitSignal position none rfl h_symbol
  rw [exitSignal_closing h_side h_size] at h_intent
  have h_closing : closingSideForPosition position.side = .sell := by
    rw [h_side]
    rfl
  have h_reference : resolveReference spotConfig exitSubmission
      (closingSideForPosition position.side) = .ok (some 100) := by
    rw [h_closing]
    decide +kernel
  have h_fits : RealizedFits spotConfig.accounting position (9995 / 100) := by
    refine ⟨-1, ?_⟩
    rw [h_side, h_size, h_entry]
    decide +kernel
  have h_required : Accounting.requiredFunds position.size 100 spotConfig.accounting
      = .ok (2003 / 2) := by
    rw [h_size]
    decide +kernel
  have h_can : CanExit spotConfig account position exitSubmission.intent 100 (9995 / 100) := by
    intro _ required h
    obtain rfl := ok.inj (h_required.symm.trans h)
    refine ⟨?_, by norm_num, h_fits⟩
    rw [h_left]
    norm_num
  have h_covers : (1 : ℚ) ≤ 9995 / 10 := by norm_num
  have h_capital : (0 : ℚ) ≤ 3000 := by norm_num
  have h_hundred : (0 : ℚ) < 100 := by norm_num
  have h_row_open : openPosition positions sellTenRow.symbol = some position := h_open
  have h_row_side : sellTenRow.side = closingSideForPosition position.side := h_closing.symm
  have h_row_price : marketFillPrice 100 sellTenRow.side spotConfig = .ok (9995 / 100) := h_price
  have h_exits : Exits spotConfig account positions sellTenRow exitSubmission 1 :=
    (openPosition_exits_iff h_run Accounting.flat_empty h_capital (le_refl (0 : ℚ)) h_row_open
      h_intent h_row_side h_reference h_hundred h_row_price h_fee h_value h_covers).mpr h_can
  exact ⟨records, account, positions, h_run, h_exits⟩

end VyomQuant.Paper
