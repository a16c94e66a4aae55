/-
  VyomQuant.Paper.Accounting.Ledger

  The accounting engine as a state machine: an account with its book, and the
  four operations `lock`, `unlock`, `apply_fill` and `recalculate` on them.

  `Ledger.Holds` is `invariants_hold` at the prices recorded on the positions.
  Each operation preserves it (`lock_holds`, `unlock_holds`, `applyFill_holds`,
  `recalculate_holds`), a fill and a revaluation because they recompute the sum
  they store, a lock and an unlock because they move an exact amount between the
  two balances; `equityIdentity_of_run` carries it over every run.
-/

import VyomQuant.Lib.Run
import VyomQuant.Paper.Accounting.Fill

namespace VyomQuant.Paper.Accounting

open Decimal Except

/-- An account and its positions. -/
structure Ledger where
  account : Account
  positions : Book

/-- The operations of the engine that return a new state. -/
inductive LedgerOp where
  | lock (amount : ℚ)
  | unlock (amount : ℚ)
  | applyFill (request : FillRequest)
  | recalculate (prices : Prices) (priceAt : Option Instant)

namespace Ledger

/-- One operation. -/
def step (config : AccountingConfig) (ledger : Ledger) : LedgerOp → Except AccountingError Ledger
  | .lock amount => do
    let account ← lock ledger.account amount config
    return { ledger with account }
  | .unlock amount => do
    let account ← unlock ledger.account amount config
    return { ledger with account }
  | .applyFill request => do
    let result ← applyFill ledger.account ledger.positions request config
    return { account := result.account, positions := result.positions }
  | .recalculate prices priceAt => do
    let valuation ← recalculate ledger.account ledger.positions prices config priceAt
    return { account := valuation.account, positions := valuation.positions }

/-- The state after a sequence of operations, those that raise changing nothing. -/
def run (config : AccountingConfig) (ledger : Ledger) (ops : List LedgerOp) : Ledger :=
  Run.final (step config) ledger ops

def prices (ledger : Ledger) : Prices := lastValidatedPrices ledger.positions

/-- `invariants_hold` at the recorded prices. -/
def Holds (config : AccountingConfig) (ledger : Ledger) : Prop :=
  invariantsHold ledger.account ledger.positions.items ledger.prices config = .ok true

instance (config : AccountingConfig) (ledger : Ledger) : Decidable (ledger.Holds config) :=
  inferInstanceAs (Decidable (_ = _))

/-- The balances have at most `d` decimals and the figures of the ledger sum to
    less than a 34-digit number of `d` decimals. -/
def FiguresFit (config : AccountingConfig) (d : ℕ) (ledger : Ledger) : Prop :=
  config.minorUnitExponent ≤ d ∧ OnGrid d ledger.account.availableBalance ∧
    OnGrid d ledger.account.lockedBalance ∧
    |ledger.account.availableBalance| + |ledger.account.lockedBalance|
        + marketVolume ledger.positions.items ledger.prices config
      < 10 ^ ((accountingContext.prec : ℤ) - d)

instance (config : AccountingConfig) (d : ℕ) (ledger : Ledger) :
    Decidable (ledger.FiguresFit config d) :=
  inferInstanceAs (Decidable (_ ∧ _))

/-- The figures of the ledger are small enough that their 34-digit sums are exact. -/
def SmallFigures (config : AccountingConfig) (ledger : Ledger) : Prop :=
  ∃ d, ledger.FiguresFit config d

variable {config : AccountingConfig} {ledger : Ledger}

theorem holds_of_moved {available locked : ℚ} (h : ledger.Holds config)
    (h_available : 0 ≤ available) (h_locked : 0 ≤ locked)
    (h_sum : accountingContext.add available locked
      = accountingContext.add ledger.account.availableBalance ledger.account.lockedBalance) :
    Holds config { ledger with
      account := { ledger.account with
        availableBalance := available
        lockedBalance := locked } } := by
  obtain ⟨_, _, h_equity⟩ := invariantsHold_iff.mp h
  obtain ⟨marketValue, h_market, h_total⟩ := totalEquity_eq_ok.mp h_equity
  refine invariantsHold_iff.mpr ⟨h_available, h_locked, totalEquity_eq_ok.mpr
    ⟨marketValue, h_market, ?_⟩⟩
  show accountingContext.add (accountingContext.add available locked) marketValue = _
  rw [h_sum]
  exact h_total

/-! ## Locking and unlocking -/

/-- Moving `amount` between two balances that fit the context is exact. -/
theorem moved_exact {d : ℕ} {source target amount : ℚ} (h_source : OnGrid d source)
    (h_target : OnGrid d target) (h_amount : OnGrid d amount) (h_nonneg : 0 ≤ amount)
    (h_le : amount ≤ source) (h_target_nonneg : 0 ≤ target)
    (h_small : |source| + |target| < 10 ^ ((accountingContext.prec : ℤ) - d)) :
    accountingContext.sub source amount = source - amount ∧
      accountingContext.add target amount = target + amount := by
  rw [abs_of_nonneg (h_nonneg.trans h_le), abs_of_nonneg h_target_nonneg] at h_small
  constructor
  · refine Context.round_of_onGrid _ (h_source.sub h_amount) ?_
    rw [abs_of_nonneg (by linarith)]
    linarith
  · refine Context.round_of_onGrid _ (h_target.add h_amount) ?_
    rw [abs_of_nonneg (by linarith)]
    linarith

theorem balances_small (h : ledger.SmallFigures config) :
    ∃ d, config.minorUnitExponent ≤ d ∧ OnGrid d ledger.account.availableBalance ∧
      OnGrid d ledger.account.lockedBalance ∧
      |ledger.account.availableBalance| + |ledger.account.lockedBalance|
        < 10 ^ ((accountingContext.prec : ℤ) - d) := by
  obtain ⟨d, h_d, h_available, h_locked, h_small⟩ := h
  have h_volume : 0 ≤ marketVolume ledger.positions.items ledger.prices config :=
    marketVolume_nonneg ledger.positions.items
  exact ⟨d, h_d, h_available, h_locked, by linarith⟩

theorem lock_holds {amount : ℚ} {account : Account} (h : ledger.Holds config)
    (h_small : ledger.SmallFigures config)
    (h_lock : lock ledger.account amount config = .ok account) :
    Holds config { ledger with account } := by
  obtain ⟨h_available, h_locked, _⟩ := invariantsHold_iff.mp h
  obtain ⟨d, h_d, h_grid, h_grid', h_fits⟩ := balances_small h_small
  simp only [lock, bind_eq_ok, refuseIf_eq_ok, pure_eq_ok, not_lt] at h_lock
  obtain ⟨quantized, h_money, _, h_nonneg, _, h_le, rfl⟩ := h_lock
  have h_amount : OnGrid d quantized := (AccountingConfig.quantizeAt_onGrid h_money).mono h_d
  obtain ⟨h_sub, h_add⟩ :=
    moved_exact h_grid h_grid' h_amount h_nonneg h_le h_locked h_fits
  rw [h_sub, h_add]
  refine holds_of_moved h (by linarith) (by linarith) ?_
  show accountingContext.round _ = accountingContext.round _
  congr 1
  ring

theorem unlock_holds {amount : ℚ} {account : Account} (h : ledger.Holds config)
    (h_small : ledger.SmallFigures config)
    (h_unlock : unlock ledger.account amount config = .ok account) :
    Holds config { ledger with account } := by
  obtain ⟨h_available, h_locked, _⟩ := invariantsHold_iff.mp h
  obtain ⟨d, h_d, h_grid, h_grid', h_fits⟩ := balances_small h_small
  simp only [unlock, bind_eq_ok, refuseIf_eq_ok, pure_eq_ok, not_lt] at h_unlock
  obtain ⟨quantized, h_money, _, h_nonneg, _, h_le, rfl⟩ := h_unlock
  have h_amount : OnGrid d quantized := (AccountingConfig.quantizeAt_onGrid h_money).mono h_d
  rw [add_comm] at h_fits
  obtain ⟨h_sub, h_add⟩ :=
    moved_exact h_grid' h_grid h_amount h_nonneg h_le h_available h_fits
  rw [h_sub, h_add]
  refine holds_of_moved h (by linarith) (by linarith) ?_
  show accountingContext.round _ = accountingContext.round _
  congr 1
  ring

/-! ## Fills -/

theorem lastValidatedPrices_put {positions : Book} {position position' : Position}
    {symbol : String} {fillPrice : ℚ} (h_symbol : position.symbol = symbol)
    (h_symbol' : position'.symbol = symbol) (h_price : position.currentPrice = some fillPrice) :
    lastValidatedPrices (positions.put position)
      = pricesAtFill (positions.put position') symbol fillPrice := by
  funext s
  by_cases h_s : s = symbol
  · subst h_s
    simp [lastValidatedPrices, pricesAtFill, KeyedList.get?_put, Position.key, h_symbol, h_price]
  · simp [lastValidatedPrices, pricesAtFill, KeyedList.get?_put, Position.key, h_symbol,
      h_symbol', h_s]

theorem applyFill_holds {request : FillRequest} {result : FillResult}
    (h : applyFill ledger.account ledger.positions request config = .ok result) :
    Holds config { account := result.account, positions := result.positions } := by
  obtain ⟨trace⟩ := applyFill_eq_ok h
  have h_case := changePosition_cases trace.change_eq
  have h_symbol : trace.change.newPosition.symbol = request.symbol :=
    h_case.symbol_eq fun _ h_open => openPosition_symbol h_open
  have h_same : SameValuation result.position trace.change.newPosition := by
    constructor <;> rw [trace.position_eq]
  have h_price : result.position.currentPrice = some trace.figures.fillPrice := by
    rw [trace.position_eq]
    exact h_case.currentPrice_eq
  refine invariantsHold_iff.mpr ⟨trace.available_nonneg, trace.locked_nonneg,
    totalEquity_eq_ok.mpr ⟨result.positionMarketValue, ?_, trace.totalEquity_eq.symm⟩⟩
  show positionMarketValue result.positions.items (lastValidatedPrices result.positions) config
    = _
  rw [← trace.marketValue_eq, trace.positions_eq,
    lastValidatedPrices_put (h_same.symbol.trans h_symbol) h_symbol h_price]
  exact positionMarketValue_congr (KeyedList.forall₂_putItem h_same.symbol
    (fun p _ => ⟨SameValuation.refl p, fun _ => rfl⟩) ⟨h_same, fun _ => rfl⟩)

/-! ## Revaluations -/

/-- A position as a revaluation leaves it: only the price, its time and the
    unrealized profit can differ. -/
structure Restated (p q : Position) : Prop where
  symbol : q.symbol = p.symbol
  side : q.side = p.side
  size : q.size = p.size
  entryPrice : q.entryPrice = p.entryPrice
  openedAt : q.openedAt = p.openedAt
  closedAt : q.closedAt = p.closedAt

variable {prices : Prices} {priceAt : Option Instant}

theorem revaluePosition_eq_ok {state state' : Revaluation} {position : Position}
    (h : revaluePosition prices config priceAt state position = .ok state') :
    ∃ revalued, Restated position revalued ∧
      state'.revalued = state.revalued.put revalued ∧
      ∀ prices' : Prices, (revalued.isOpen → prices' revalued.symbol = revalued.currentPrice) →
        addMarketValue prices' config state.marketValue revalued = .ok state'.marketValue := by
  by_cases h_open : position.isOpen
  · simp only [revaluePosition, if_pos h_open, bind_eq_ok, pure_eq_ok] at h
    obtain ⟨current, h_price, value, h_value, pnl, h_pnl, revalued, h_make, rfl⟩ := h
    have h_fields := Position.make_eq_ok h_make
    have h_same : SameValuation revalued position := by
      constructor <;> rw [h_fields]
    have h_open' : revalued.isOpen := by
      rw [Position.isOpen, h_same.size]
      exact h_open
    have h_restated : Restated position revalued := by
      constructor <;> rw [h_fields]
    refine ⟨revalued, h_restated, rfl, ?_⟩
    intro prices' h_prices'
    have h_current : revalued.currentPrice = some current := by rw [h_fields]
    have h_quantized : quantizedValue prices' config revalued = .ok value := by
      rw [quantizedValue_of_price h_open' ((h_prices' h_open').trans h_current), ← h_value]
      simp only [positionValue, h_same.side, h_same.size, h_same.entryPrice]
    rw [addMarketValue_of_open h_open', h_quantized]
    rfl
  · simp only [revaluePosition, if_neg h_open, bind_eq_ok, pure_eq_ok] at h
    obtain ⟨revalued, h_make, rfl⟩ := h
    have h_fields := Position.make_eq_ok h_make
    have h_closed : ¬ revalued.isOpen := by
      rw [Position.isOpen, h_fields]
      exact h_open
    have h_restated : Restated position revalued := by
      constructor <;> rw [h_fields]
    refine ⟨revalued, h_restated, rfl, ?_⟩
    intro prices' _
    exact addMarketValue_of_not_open h_closed

/-- The whole loop of `recalculate`: the positions are restated in order, and the
    market value is the one their own prices give. -/
theorem foldlM_revaluePosition_eq_ok {positions : List Position} {state final : Revaluation}
    (h : positions.foldlM (revaluePosition prices config priceAt) state = .ok final)
    (h_nodup : (positions.map Position.key).Nodup)
    (h_fresh : ∀ p ∈ state.revalued.items, ∀ q ∈ positions, p.key ≠ q.key) :
    ∃ restated, List.Forall₂ Restated positions restated ∧
      final.revalued.items = state.revalued.items ++ restated ∧
      ∀ prices' : Prices, (∀ q ∈ restated, q.isOpen → prices' q.symbol = q.currentPrice) →
        restated.foldlM (addMarketValue prices' config) state.marketValue
          = .ok final.marketValue := by
  induction positions generalizing state with
  | nil =>
    rw [List.foldlM_nil, pure_eq_ok] at h
    subst h
    exact ⟨[], .nil, by simp, fun _ _ => rfl⟩
  | cons p rest ih =>
    rw [List.foldlM_cons] at h
    obtain ⟨state', h_head, h_tail⟩ := bind_eq_ok.mp h
    obtain ⟨q, h_restated, h_put, h_value⟩ := revaluePosition_eq_ok h_head
    rw [List.map_cons, List.nodup_cons] at h_nodup
    have h_key : q.key = p.key := h_restated.symbol
    have h_items : state'.revalued.items = state.revalued.items ++ [q] := by
      rw [h_put]
      exact KeyedList.items_put_of_fresh fun a h_a => by
        rw [h_key]
        exact h_fresh a h_a p List.mem_cons_self
    have h_fresh' : ∀ a ∈ state'.revalued.items, ∀ b ∈ rest, a.key ≠ b.key := by
      intro a h_a b h_b
      rw [h_items, List.mem_append, List.mem_singleton] at h_a
      rcases h_a with h_a | rfl
      · exact h_fresh a h_a b (List.mem_cons_of_mem p h_b)
      · rw [h_key]
        exact fun h_eq => h_nodup.1 (h_eq ▸ List.mem_map_of_mem h_b)
    obtain ⟨restated, h_rel, h_final, h_market⟩ := ih h_tail h_nodup.2 h_fresh'
    refine ⟨q :: restated, .cons h_restated h_rel, ?_, ?_⟩
    · rw [h_final, h_items, List.append_assoc, List.singleton_append]
    · intro prices' h_prices'
      rw [List.forall_mem_cons] at h_prices'
      rw [List.foldlM_cons, h_value prices' h_prices'.1]
      exact h_market prices' h_prices'.2

theorem recalculate_holds {valuation : Valuation} (h_holds : ledger.Holds config)
    (h : recalculate ledger.account ledger.positions prices config priceAt = .ok valuation) :
    Holds config { account := valuation.account, positions := valuation.positions } := by
  obtain ⟨h_available, h_locked, _⟩ := invariantsHold_iff.mp h_holds
  simp only [recalculate, bind_eq_ok, pure_eq_ok] at h
  obtain ⟨final, h_loop, rfl⟩ := h
  obtain ⟨restated, _, h_items, h_market⟩ := foldlM_revaluePosition_eq_ok h_loop
    ledger.positions.nodup (by simp [KeyedList.empty])
  rw [KeyedList.empty, List.nil_append] at h_items
  refine invariantsHold_iff.mpr ⟨h_available, h_locked, totalEquity_eq_ok.mpr
    ⟨final.marketValue, ?_, rfl⟩⟩
  show positionMarketValue final.revalued.items (lastValidatedPrices final.revalued) config = _
  rw [h_items]
  refine h_market _ fun q h_q _ => ?_
  have h_get : final.revalued.get? q.symbol = some q :=
    Book.get?_symbol (by rw [h_items]; exact h_q)
  simp only [lastValidatedPrices, h_get, Option.bind_some]

/-! ## Runs -/

theorem step_holds {op : LedgerOp} {ledger' : Ledger} (h : ledger.Holds config)
    (h_small : ledger.SmallFigures config) (h_step : step config ledger op = .ok ledger') :
    ledger'.Holds config := by
  cases op with
  | lock amount =>
    simp only [step, bind_eq_ok, pure_eq_ok] at h_step
    obtain ⟨account, h_lock, rfl⟩ := h_step
    exact lock_holds h h_small h_lock
  | unlock amount =>
    simp only [step, bind_eq_ok, pure_eq_ok] at h_step
    obtain ⟨account, h_unlock, rfl⟩ := h_step
    exact unlock_holds h h_small h_unlock
  | applyFill request =>
    simp only [step, bind_eq_ok, pure_eq_ok] at h_step
    obtain ⟨result, h_fill, rfl⟩ := h_step
    exact applyFill_holds h_fill
  | recalculate prices priceAt =>
    simp only [step, bind_eq_ok, pure_eq_ok] at h_step
    obtain ⟨valuation, h_recalculate, rfl⟩ := h_step
    exact recalculate_holds h h_recalculate

theorem Holds.totalEquity_eq (h : ledger.Holds config) (h_small : ledger.SmallFigures config) :
    ledger.account.totalEquity
      = ledger.account.availableBalance + ledger.account.lockedBalance
        + exactMarketValue ledger.positions.items ledger.prices config := by
  obtain ⟨_, _, h_equity⟩ := invariantsHold_iff.mp h
  obtain ⟨marketValue, h_market, h_total⟩ := totalEquity_eq_ok.mp h_equity
  obtain ⟨d, h_d, h_grid, h_grid', h_fits⟩ := h_small
  have h_volume : 0 ≤ marketVolume ledger.positions.items ledger.prices config :=
    marketVolume_nonneg ledger.positions.items
  have h_abs := abs_nonneg ledger.account.availableBalance
  have h_abs' := abs_nonneg ledger.account.lockedBalance
  have h_cash := (Within.self h_grid).add (Within.self h_grid')
  have h_market_within : Within d (marketVolume ledger.positions.items ledger.prices config)
      (exactMarketValue ledger.positions.items ledger.prices config) :=
    exactMarketValue_within h_d ledger.positions.items
  have h_all := h_cash.add h_market_within
  rw [← h_total, positionMarketValue_eq_exact h_d h_market (by linarith)]
  rw [show accountingContext.add ledger.account.availableBalance ledger.account.lockedBalance
    = _ from Context.round_of_within h_cash (by linarith)]
  exact Context.round_of_within h_all h_fits

/-- The equity identity over whole runs: from a ledger on which the invariants
    hold, every sequence of operations ends in one on which they hold, with the
    stored equity the exact sum of the balances and the market value. -/
theorem equityIdentity_of_run (config : AccountingConfig) (ledger : Ledger)
    (ops : List LedgerOp) (h : ledger.Holds config)
    (h_small : ∀ pre, pre <+: ops → (ledger.run config pre).SmallFigures config) :
    (ledger.run config ops).Holds config ∧
      (ledger.run config ops).account.totalEquity
        = (ledger.run config ops).account.availableBalance
          + (ledger.run config ops).account.lockedBalance
          + exactMarketValue (ledger.run config ops).positions.items
              (ledger.run config ops).prices config ∧
      0 ≤ (ledger.run config ops).account.availableBalance ∧
      0 ≤ (ledger.run config ops).account.lockedBalance ∧
      ∀ position ∈ (ledger.run config ops).positions.items, 0 ≤ position.size := by
  have h_final : (ledger.run config ops).Holds config :=
    Run.final_invariant (I := fun l => Holds config l) (P := fun l => SmallFigures config l)
      (fun _ _ _ h_I h_P h_step => step_holds h_I h_P h_step) h h_small
  obtain ⟨h_available, h_locked, _⟩ := invariantsHold_iff.mp h_final
  exact ⟨h_final, h_final.totalEquity_eq (h_small ops (List.prefix_refl ops)), h_available,
    h_locked, fun position _ => position.size_nonneg⟩

/-- A lock, a short opened with half of the locked cash released, and a revaluation. -/
theorem equityIdentity_of_lock_fill_revalue :
    let config : AccountingConfig :=
      ⟨1 / 1000, 1 / 2000, .halfEven, .weightedAverage, 2, 8, 2, by norm_num, by norm_num⟩
    let ledger : Ledger := ⟨⟨1000, 0, 0, 1000, "USD"⟩, KeyedList.empty⟩
    let ops : List LedgerOp := [.lock 100,
      .applyFill ⟨"BTC/USDT", .sell, 1 / 2, 301 / 7, 1 / 50, some 3, 50⟩,
      .recalculate (fun _ => some 40) (some 4)]
    (ledger.run config ops).Holds config ∧
      (ledger.run config ops).account.lockedBalance = 50 ∧
      (ledger.run config ops).account.totalEquity = 100148 / 100 := by
  intro config ledger ops
  have h_fit : ∀ pre ∈ ops.inits, (ledger.run config pre).FiguresFit config 2 := by
    decide +kernel
  refine ⟨(equityIdentity_of_run config ledger ops (by decide +kernel) ?_).1, by decide +kernel,
    by decide +kernel⟩
  exact fun pre h_pre => ⟨2, h_fit pre ((List.mem_inits pre ops).mpr h_pre)⟩

end Ledger

end VyomQuant.Paper.Accounting
