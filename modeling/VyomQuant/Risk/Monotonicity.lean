/-
  VyomQuant.Risk.Monotonicity

  Whether a request that risks less than one that passes does pass.  Three gates are not
  monotone.  A request that reports no open trade is judged by the manager's own count; a
  lower drawdown may fall into a tier with a lower cap; and cluster exposures count only
  where some are given.  All others are, so the lesser request passes exactly when these
  three let it (`passes_of_lessRisk_iff`).
-/

import VyomQuant.Risk.Manager

namespace VyomQuant.Risk

variable {α : Type} [Figure α] {m : Manager α} {s : Throttle} {now : ℚ}
  {settings : Option (UserSettings α)} {limits : EffectiveLimits α} {r r' : TradeRequest α}

def Passes (m : Manager α) (s : Throttle) (settings : Option (UserSettings α)) (now : ℚ)
    (r : TradeRequest α) : Prop :=
  (validateTradeRequest m s { request := r, settings := settings, now := now }).2 = some .PASS

/-- `r'` is `r` with no more risk. -/
structure LessRisk (r' r : TradeRequest α) : Prop where
  userId : r'.userId = r.userId
  userTier : r'.userTier = r.userTier
  symbol : r'.symbol = r.symbol
  side : r'.side = r.side
  currentPrice : r'.currentPrice = r.currentPrice
  isReduceOnly : r'.isReduceOnly = r.isReduceOnly
  strategyId : r'.strategyId = r.strategyId
  recentPrices : r'.recentPrices = r.recentPrices
  price_pos : 0 < r.currentPrice
  amount_pos : 0 < r'.amount
  amount : r'.amount ≤ r.amount
  leverage : r'.leverage ≤ r.leverage
  currentExposure : r'.currentExposure ≤ r.currentExposure
  strategyExposure : r'.strategyExposure ≤ r.strategyExposure
  clusterExposure : ∀ cluster, r'.clusterExposure cluster ≤ r.clusterExposure cluster
  currentDrawdownPct : r'.currentDrawdownPct ≤ r.currentDrawdownPct
  openTradesCount : r'.openTradesCount ≤ r.openTradesCount
  dailyPnlPct : r.dailyPnlPct ≤ r'.dailyPnlPct
  weeklyPnlPct : r.weeklyPnlPct ≤ r'.weeklyPnlPct
  monthlyPnlPct : r.monthlyPnlPct ≤ r'.monthlyPnlPct

/-- The gates that need not be monotone let a request through: its open trades, as they are
    counted, its leverage at its drawdown, and its cluster. -/
structure Cleared (m : Manager α) (limits : EffectiveLimits α) (r : TradeRequest α) : Prop where
  openTrades : effectiveOpen m r < limits.maxPositions
  leverage : r.leverage ≤ leverageCap m.thresholds limits r.currentDrawdownPct
  cluster : ∀ cluster, clusterOf r.symbol = some cluster → r.clusterExposures ≠ [] →
    r.clusterExposure cluster + r.notional ≤ m.thresholds.clusterLimit

theorem clusterGate_eq_none_iff :
    clusterGate m r = none ↔ ∀ cluster, clusterOf r.symbol = some cluster →
      r.clusterExposures ≠ [] → r.clusterExposure cluster + r.notional ≤ m.thresholds.clusterLimit := by
  unfold clusterGate
  cases clusterOf r.symbol with
  | none => exact iff_of_true rfl nofun
  | some cluster =>
    rw [refuseWhen_eq_none, not_and]
    constructor
    · rintro h _ ⟨⟩ h_given
      exact not_lt.mp (h h_given)
    · intro h h_given
      exact not_lt.mpr (h cluster rfl h_given)

namespace LessRisk

variable (h : LessRisk r' r)
include h

theorem notional_le : r'.notional ≤ r.notional := by
  unfold TradeRequest.notional
  rw [h.currentPrice]
  exact Figure.mul_mono h.price_pos.le h.amount

theorem add_notional_le {x y : α} (h_le : x ≤ y) : x + r'.notional ≤ y + r.notional :=
  Figure.add_mono h_le h.notional_le

theorem signature_eq : r'.signature = r.signature := by
  unfold TradeRequest.signature
  rw [h.userId, h.symbol, h.side]

theorem throttleRefusal_eq :
    throttleRefusal m s { request := r', settings := settings, now := now }
      = throttleRefusal m s { request := r, settings := settings, now := now } := by
  unfold throttleRefusal Throttle.isDuplicate
  dsimp only
  rw [h.signature_eq, h.userId]

theorem flashCrashGate_eq : flashCrashGate m r' = flashCrashGate m r := by
  unfold flashCrashGate
  rw [h.recentPrices, h.currentPrice]

theorem allocatorGate_eq_none (h_gate : allocatorGate m r = none) : allocatorGate m r' = none := by
  unfold allocatorGate at h_gate ⊢
  rw [h.strategyId]
  cases h_id : r.strategyId with
  | none => rfl
  | some strategyId =>
    rw [h_id] at h_gate
    dsimp only at h_gate ⊢
    cases h_allocated : m.strategyAllocations strategyId with
    | none =>
      rw [h_allocated] at h_gate
      cases h_gate
    | some allocated =>
      rw [h_allocated] at h_gate
      dsimp only at h_gate ⊢
      rw [refuseWhen_eq_none, not_lt] at h_gate ⊢
      exact (h.add_notional_le h.strategyExposure).trans h_gate

/-- Where the greater risk gets through the later gates, the lesser does exactly when it is
    cleared, or reduce-only. -/
theorem laterGates_iff (h_gates : ∀ gate ∈ laterGates m limits r, gate = none) :
    (∀ gate ∈ laterGates m limits r', gate = none) ↔
      (r'.isReduceOnly = false → Cleared m limits r') := by
  have h_reduce : ∀ {p p' : Prop}, (r.isReduceOnly = true ∨ p) → (p → p') →
      (r'.isReduceOnly = true ∨ p') := fun h_or h_imp => by
    rw [h.isReduceOnly]
    exact h_or.imp_right h_imp
  simp only [laterGates, List.forall_mem_cons, unlessReducing_eq_none, refuseWhen_eq_none, not_lt,
    not_le] at h_gates ⊢
  obtain ⟨h_flash, h_drawdown, h_daily, h_weekly, h_monthly, -, -, h_position, h_notional, h_tier,
    h_exposure, h_allocator, -, h_strategy, -⟩ := h_gates
  rw [clusterGate_eq_none_iff]
  constructor
  · rintro ⟨-, -, -, -, -, h_open, h_leverage, -, -, -, -, -, h_cluster, -, -⟩ h_opens
    have h_not : ¬ r'.isReduceOnly = true := Bool.eq_false_iff.mp h_opens
    exact ⟨h_open.resolve_left h_not, h_leverage.resolve_left h_not, h_cluster.resolve_left h_not⟩
  · intro h_cleared
    have h_clear : ∀ {p : Prop}, (Cleared m limits r' → p) → r'.isReduceOnly = true ∨ p := by
      intro p h_p
      cases h_opens : r'.isReduceOnly with
      | true => exact .inl rfl
      | false => exact .inr (h_p (h_cleared h_opens))
    refine ⟨h.flashCrashGate_eq.trans h_flash, h_reduce h_drawdown h.currentDrawdownPct.trans,
      h_reduce h_daily fun h_le => h_le.trans h.dailyPnlPct,
      h_reduce h_weekly fun h_le => h_le.trans h.weeklyPnlPct,
      h_reduce h_monthly fun h_le => h_le.trans h.monthlyPnlPct, h_clear Cleared.openTrades,
      h_clear Cleared.leverage, h.notional_le.trans h_position, h.notional_le.trans h_notional, ?_,
      ?_, h_reduce h_allocator h.allocatorGate_eq_none, h_clear Cleared.cluster,
      h_reduce h_strategy (h.add_notional_le h.strategyExposure).trans, List.forall_mem_nil _⟩
    · rw [h.userTier]
      exact h.notional_le.trans h_tier
    · rw [h.userTier]
      exact h_reduce h_exposure (h.add_notional_le h.currentExposure).trans

end LessRisk

/-! ## Settings -/

theorem tightened_le {platform x : α} {setting : Setting α} (h : tightened platform setting = some x) :
    x ≤ platform := by
  unfold tightened at h
  split at h
  · cases h
  · rw [← Option.some.inj h]
  · rw [← Option.some.inj h]
    exact min_le_left _ _

/-- The limits of a user are no wider than those of the platform. -/
structure Within (limits platform : EffectiveLimits α) : Prop where
  maxDailyLoss : limits.maxDailyLoss ≤ platform.maxDailyLoss
  maxPositions : limits.maxPositions ≤ platform.maxPositions
  maxLeverage : limits.maxLeverage ≤ platform.maxLeverage

theorem within_of_effectiveLimits (h : m.effectiveLimits settings = some limits) :
    ∃ platform, m.effectiveLimits none = some platform ∧ Within limits platform := by
  refine ⟨_, rfl, ?_⟩
  cases settings with
  | none =>
    rw [← Option.some.inj h]
    exact ⟨le_rfl, le_rfl, le_rfl⟩
  | some settings =>
    obtain ⟨maxDailyLoss, h_daily, h_rest⟩ := Option.bind_eq_some_iff.mp h
    obtain ⟨maxPositions, -, h_rest⟩ := Option.bind_eq_some_iff.mp h_rest
    obtain ⟨maxLeverage, h_leverage, h_limits⟩ := Option.bind_eq_some_iff.mp h_rest
    rw [← Option.some.inj h_limits]
    refine ⟨?_, min_le_left _ _, tightened_le h_leverage⟩
    unfold Manager.effectiveDailyLoss at h_daily
    split_ifs at h_daily
    · exact tightened_le h_daily
    · rw [← Option.some.inj h_daily]

theorem leverageCap_mono {platform : EffectiveLimits α} (h : Within limits platform)
    (t : RiskThresholds α) (drawdown : α) :
    leverageCap t limits drawdown ≤ leverageCap t platform drawdown := by
  unfold leverageCap
  split_ifs
  · exact min_le_min_left _ h.maxLeverage
  · exact min_le_min_left _ h.maxLeverage
  · exact min_le_min_left _ h.maxLeverage
  · exact h.maxLeverage

theorem Within.laterGates {platform : EffectiveLimits α} (h : Within limits platform)
    (h_gates : ∀ gate ∈ laterGates m limits r, gate = none) :
    ∀ gate ∈ laterGates m platform r, gate = none := by
  simp only [Risk.laterGates, List.forall_mem_cons, unlessReducing_eq_none, refuseWhen_eq_none,
    not_lt, not_le] at h_gates ⊢
  obtain ⟨h_flash, h_drawdown, h_daily, h_weekly, h_monthly, h_open, h_leverage, h_rest⟩ := h_gates
  exact ⟨h_flash, h_drawdown, h_daily.imp_right (Figure.neg_anti h.maxDailyLoss).trans, h_weekly,
    h_monthly, h_open.imp_right fun h_lt => h_lt.trans_le h.maxPositions,
    h_leverage.imp_right fun h_le => h_le.trans (leverageCap_mono h _ _), h_rest⟩

/-- Of two requests of which the first passes, the one with less risk passes exactly when the
    gates that are not monotone clear it; and the first passes without the user's settings. -/
theorem passes_of_lessRisk_iff (h : LessRisk r' r) (h_pass : Passes m s settings now r) :
    (Passes m s settings now r' ↔ ∀ limits, m.effectiveLimits settings = some limits →
        r'.isReduceOnly = false → Cleared m limits r') ∧
      Passes m s none now r := by
  obtain ⟨limits, h_limits, h_throttle, h_gates⟩ := validateTradeRequest_pass_iff.mp h_pass
  dsimp only at h_limits h_gates
  constructor
  · unfold Passes
    rw [validateTradeRequest_pass_iff]
    dsimp only
    rw [h.throttleRefusal_eq]
    constructor
    · rintro ⟨found, h_found, -, h_gates'⟩ limits' h_limits' h_opens
      cases h_limits.symm.trans h_found
      cases h_limits.symm.trans h_limits'
      exact (h.laterGates_iff h_gates).mp h_gates' h_opens
    · intro h_cleared
      exact ⟨limits, h_limits, h_throttle, (h.laterGates_iff h_gates).mpr (h_cleared limits h_limits)⟩
  · obtain ⟨platform, h_platform, h_within⟩ := within_of_effectiveLimits h_limits
    exact validateTradeRequest_pass_iff.mpr ⟨platform, h_platform, h_throttle, h_within.laterGates h_gates⟩

/-! ### No open trade, and one -/

/-- A manager that counts five open trades. -/
def fiveOpen : Manager ℚ :=
  { thresholds := .default, totalCapital := 100000, strategyAllocations := fun _ => none
    openTradesCount := 5 }

/-- A small order of an account with so many open trades. -/
def smallOrder (openTradesCount : ℤ) : TradeRequest ℚ :=
  { userId := "u", userTier := "pro", symbol := "BTC/USDT", side := "buy", amount := 1 / 10
    currentPrice := 50000, currentExposure := 0, currentDrawdownPct := 0, dailyPnlPct := 0
    isReduceOnly := false, strategyId := none, strategyExposure := 0, weeklyPnlPct := 0
    monthlyPnlPct := 0, leverage := 1, clusterExposures := [], recentPrices := []
    openTradesCount := openTradesCount }

theorem smallOrder_lessRisk : LessRisk (smallOrder 0) (smallOrder 1) := by
  constructor <;> first | rfl | exact fun _ => le_rfl | exact le_rfl | decide +kernel

theorem passes_smallOrder : Passes fiveOpen .start none 1700000000 (smallOrder 1) := by
  unfold Passes
  decide +kernel

theorem smallOrder_iff :
    (Passes fiveOpen .start none 1700000000 (smallOrder 0) ↔
        ∀ limits, fiveOpen.effectiveLimits none = some limits →
          (smallOrder 0).isReduceOnly = false → Cleared fiveOpen limits (smallOrder 0)) ∧
      Passes fiveOpen .start none 1700000000 (smallOrder 1) :=
  passes_of_lessRisk_iff smallOrder_lessRisk passes_smallOrder

/-- The order passes with one open trade, and the same order with none does not. -/
theorem smallOrder_refused :
    LessRisk (smallOrder 0) (smallOrder 1) ∧ Passes fiveOpen .start none 1700000000 (smallOrder 1) ∧
      ¬ Passes fiveOpen .start none 1700000000 (smallOrder 0) := by
  refine ⟨smallOrder_lessRisk, passes_smallOrder, fun h_pass => ?_⟩
  have h_refused : (validateTradeRequest fiveOpen .start
      { request := smallOrder 0, settings := none, now := 1700000000 }).2
        = some .REJECT_MAX_OPEN_TRADES := by decide +kernel
  rw [Passes, h_refused] at h_pass
  cases h_pass

end VyomQuant.Risk
