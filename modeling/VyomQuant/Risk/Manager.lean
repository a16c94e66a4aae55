/-
  VyomQuant.Risk.Manager

  The pre-trade check of the institutional risk manager (`core/risk_manager.py`): eleven
  gates in a row, of which the first that refuses decides.

  The first two gates look at when earlier requests passed, and only a request that passes
  all of them is recorded.  The others look at the request and at the manager's figures.

  Figures are any type with the operations of the source whose sums and products are
  monotone, so that doubles without NaN are an instance as well as exact numbers.  The
  clock is exact: a double in seconds loses nothing when seconds are taken off it.
-/

import VyomQuant.Lib.SlidingWindow
import VyomQuant.StrategyDag.Schema

namespace VyomQuant.Risk

open SlidingWindow (evict)
open StrategyDag (strip)

/-! ## Figures -/

/-- The arithmetic of the gates. -/
class Figure (α : Type) extends LinearOrder α, Zero α, Neg α, Add α, Sub α, Mul α, Div α,
    NatCast α where
  add_mono {a b c d : α} : a ≤ b → c ≤ d → a + c ≤ b + d
  mul_mono {a b c : α} : 0 ≤ c → a ≤ b → a * c ≤ b * c
  neg_anti {a b : α} : a ≤ b → -b ≤ -a

attribute [instance (low)] Figure.toZero

instance : Figure ℚ where
  add_mono := add_le_add
  mul_mono h_c h := mul_le_mul_of_nonneg_right h h_c
  neg_anti := neg_le_neg

variable {α : Type} [Figure α]

/-- `abs(x)`. -/
def distance (x : α) : α := max x (-x)

/-! ## Requests and limits -/

structure TradeRequest (α : Type) where
  userId : String
  userTier : String
  symbol : String
  side : String
  amount : α
  currentPrice : α
  currentExposure : α
  currentDrawdownPct : α
  dailyPnlPct : α
  isReduceOnly : Bool
  strategyId : Option String
  strategyExposure : α
  weeklyPnlPct : α
  monthlyPnlPct : α
  leverage : α
  /-- Empty where none were given. -/
  clusterExposures : List (String × α)
  /-- Empty where none were given. -/
  recentPrices : List α
  openTradesCount : ℤ

structure RiskThresholds (α : Type) where
  globalMaxNotionalPerTrade : α
  maxGlobalOrdersPerSecond : ℤ
  maxUserOrdersPerSecond : ℤ
  duplicateOrderCooldown : ℚ
  maxDrawdown : α
  maxDailyLossPct : α
  weeklyLossLimit : α
  monthlyLossLimit : α
  maxPositionSizePct : α
  maxOpenTrades : ℤ
  clusterLimit : α
  flashCrashPriceDeviationPct : α
  drawdownTier1Pct : α
  drawdownTier1MaxLeverage : α
  drawdownTier2Pct : α
  drawdownTier2MaxLeverage : α
  drawdownTier3Pct : α
  drawdownTier3MaxLeverage : α
  baseMaxLeverage : α
  maxStrategyExposurePct : α

def RiskThresholds.default : RiskThresholds ℚ where
  globalMaxNotionalPerTrade := 100000
  maxGlobalOrdersPerSecond := 45
  maxUserOrdersPerSecond := 5
  duplicateOrderCooldown := 2
  maxDrawdown := 15 / 100
  maxDailyLossPct := 5 / 100
  weeklyLossLimit := 10 / 100
  monthlyLossLimit := 20 / 100
  maxPositionSizePct := 10 / 100
  maxOpenTrades := 5
  clusterLimit := 50000
  flashCrashPriceDeviationPct := 10 / 100
  drawdownTier1Pct := 15 / 100
  drawdownTier1MaxLeverage := 1
  drawdownTier2Pct := 10 / 100
  drawdownTier2MaxLeverage := 2
  drawdownTier3Pct := 5 / 100
  drawdownTier3MaxLeverage := 5
  baseMaxLeverage := 10
  maxStrategyExposurePct := 30 / 100

inductive RiskVerdict where
  | PASS
  | REJECT_GLOBAL_RATE_LIMIT
  | REJECT_USER_RATE_LIMIT
  | REJECT_MAX_NOTIONAL
  | REJECT_TIER_LIMIT
  | REJECT_DRAWDOWN
  | REJECT_DAILY_LOSS
  | REJECT_WEEKLY_LOSS
  | REJECT_MONTHLY_LOSS
  | REJECT_OVER_EXPOSURE
  | REJECT_DUPLICATE_SPAM
  | REJECT_MAX_POSITION_SIZE
  | REJECT_MAX_STRATEGY_EXPOSURE
  | REJECT_CORRELATION_CLUSTER
  | REJECT_CAPITAL_ALLOCATOR_LIMIT
  | REJECT_LEVERAGE_SCALING
  | REJECT_FLASH_CRASH
  | REJECT_MAX_OPEN_TRADES
deriving DecidableEq

structure TierLimit (α : Type) where
  maxTrade : α
  maxExposure : α

/-- `tier_limits`. -/
def tierLimits (tier : String) : Option (TierLimit α) :=
  if tier = "free" then some ⟨(1000 : ℕ), (5000 : ℕ)⟩
  else if tier ∈ ["starter", "starter_499", "basic"] then some ⟨(10000 : ℕ), (25000 : ℕ)⟩
  else if tier ∈ ["pro", "pro_999", "professional"] then some ⟨(50000 : ℕ), (200000 : ℕ)⟩
  else if tier ∈ ["enterprise", "elite", "elite_1999"] then some ⟨(500000 : ℕ), (2000000 : ℕ)⟩
  else none

/-- The limits of a tier as it is written, the free ones where there is none. -/
def tierOf (userTier : String) : TierLimit α :=
  (tierLimits (strip (if userTier = "" then "free" else userTier).toLower)).getD
    ⟨(1000 : ℕ), (5000 : ℕ)⟩

/-- `correlation_clusters`. -/
def correlationClusters (baseAsset : String) : Option String :=
  if baseAsset = "BTC" ∨ baseAsset = "ETH" then some "crypto_major"
  else if baseAsset = "SOL" then some "crypto_alt"
  else none

/-- The text before the first `separator`. -/
def beforeFirst (separator : Char) (text : String) : String :=
  String.ofList (text.toList.takeWhile fun c => c ≠ separator)

def clusterOf (symbol : String) : Option String :=
  if symbol = "" then none
  else correlationClusters (beforeFirst '-' (beforeFirst '/' symbol)).toUpper

/-- The manager's figures.  Only the check itself changes what is in `Throttle`. -/
structure Manager (α : Type) where
  thresholds : RiskThresholds α
  totalCapital : α
  strategyAllocations : String → Option α
  openTradesCount : ℤ

/-! ## The user's own limits -/

/-- What `float` makes of a stored setting. -/
inductive Setting (α : Type) where
  | unreadable
  | nan
  | number (x : α)

/-- `risk_settings` of a user, `max_positions` as `int` reads it. -/
structure UserSettings (α : Type) where
  maxDailyLoss : Setting α
  maxPositions : Option ℤ
  maxLeverage : Setting α

/-- `min(platform, float(setting))`, which keeps the first where the second is NaN. -/
def tightened (platform : α) : Setting α → Option α
  | .unreadable => none
  | .nan => some platform
  | .number x => some (min platform x)

/-- `float(setting) / capital`. -/
def Setting.dividedBy (capital : α) : Setting α → Setting α
  | .number x => .number (x / capital)
  | setting => setting

structure EffectiveLimits (α : Type) where
  maxDailyLoss : α
  maxPositions : ℤ
  maxLeverage : α

/-- The daily limit as a share of the capital, if there is any. -/
def Manager.effectiveDailyLoss (m : Manager α) (setting : Setting α) : Option α :=
  if 0 < m.totalCapital then
    tightened m.thresholds.maxDailyLossPct (setting.dividedBy m.totalCapital)
  else some m.thresholds.maxDailyLossPct

/-- The limits in force, unless a setting cannot be read. -/
def Manager.effectiveLimits (m : Manager α) :
    Option (UserSettings α) → Option (EffectiveLimits α)
  | none => some
      { maxDailyLoss := m.thresholds.maxDailyLossPct, maxPositions := m.thresholds.maxOpenTrades
        maxLeverage := m.thresholds.baseMaxLeverage }
  | some settings => do
    let maxDailyLoss ← m.effectiveDailyLoss settings.maxDailyLoss
    let maxPositions ← settings.maxPositions
    let maxLeverage ← tightened m.thresholds.baseMaxLeverage settings.maxLeverage
    some { maxDailyLoss := maxDailyLoss, maxPositions := min m.thresholds.maxOpenTrades maxPositions
           maxLeverage := maxLeverage }

/-! ## The later gates -/

def TradeRequest.notional (r : TradeRequest α) : α := r.amount * r.currentPrice

def refuseWhen (c : Prop) [Decidable c] (verdict : RiskVerdict) : Option RiskVerdict :=
  if c then some verdict else none

/-- A gate that a reduce-only request does not go through. -/
def unlessReducing (r : TradeRequest α) (gate : Option RiskVerdict) : Option RiskVerdict :=
  if r.isReduceOnly then none else gate

/-- The average of the recent prices, and how far the price is from it. -/
def flashCrashGate (m : Manager α) (r : TradeRequest α) : Option RiskVerdict :=
  match r.recentPrices with
  | [] => none
  | prices =>
    let sma := prices.foldl (· + ·) 0 / (prices.length : α)
    refuseWhen (0 < sma ∧ m.thresholds.flashCrashPriceDeviationPct < distance (r.currentPrice - sma) / sma)
      .REJECT_FLASH_CRASH

/-- `request.open_trades_count or self._open_trades_count`. -/
def effectiveOpen (m : Manager α) (r : TradeRequest α) : ℤ :=
  if r.openTradesCount ≠ 0 then r.openTradesCount else m.openTradesCount

def leverageCap (t : RiskThresholds α) (limits : EffectiveLimits α) (drawdown : α) : α :=
  if t.drawdownTier1Pct ≤ drawdown then min t.drawdownTier1MaxLeverage limits.maxLeverage
  else if t.drawdownTier2Pct ≤ drawdown then min t.drawdownTier2MaxLeverage limits.maxLeverage
  else if t.drawdownTier3Pct ≤ drawdown then min t.drawdownTier3MaxLeverage limits.maxLeverage
  else limits.maxLeverage

def allocatorGate (m : Manager α) (r : TradeRequest α) : Option RiskVerdict :=
  match r.strategyId with
  | none => none
  | some strategyId =>
    match m.strategyAllocations strategyId with
    | none => some .REJECT_CAPITAL_ALLOCATOR_LIMIT
    | some allocated =>
      refuseWhen (allocated < r.strategyExposure + r.notional) .REJECT_CAPITAL_ALLOCATOR_LIMIT

def TradeRequest.clusterExposure (r : TradeRequest α) (cluster : String) : α :=
  (r.clusterExposures.lookup cluster).getD 0

def clusterGate (m : Manager α) (r : TradeRequest α) : Option RiskVerdict :=
  match clusterOf r.symbol with
  | none => none
  | some cluster =>
    refuseWhen (r.clusterExposures ≠ [] ∧
      m.thresholds.clusterLimit < r.clusterExposure cluster + r.notional) .REJECT_CORRELATION_CLUSTER

def laterGates (m : Manager α) (limits : EffectiveLimits α) (r : TradeRequest α) :
    List (Option RiskVerdict) :=
  let t := m.thresholds
  [flashCrashGate m r,
    unlessReducing r (refuseWhen (t.maxDrawdown < r.currentDrawdownPct) .REJECT_DRAWDOWN),
    unlessReducing r (refuseWhen (r.dailyPnlPct < -limits.maxDailyLoss) .REJECT_DAILY_LOSS),
    unlessReducing r (refuseWhen (r.weeklyPnlPct < -t.weeklyLossLimit) .REJECT_WEEKLY_LOSS),
    unlessReducing r (refuseWhen (r.monthlyPnlPct < -t.monthlyLossLimit) .REJECT_MONTHLY_LOSS),
    unlessReducing r (refuseWhen (limits.maxPositions ≤ effectiveOpen m r) .REJECT_MAX_OPEN_TRADES),
    unlessReducing r (refuseWhen (leverageCap t limits r.currentDrawdownPct < r.leverage)
      .REJECT_LEVERAGE_SCALING),
    refuseWhen (t.maxPositionSizePct * m.totalCapital < r.notional) .REJECT_MAX_POSITION_SIZE,
    refuseWhen (t.globalMaxNotionalPerTrade < r.notional) .REJECT_MAX_NOTIONAL,
    refuseWhen ((tierOf r.userTier).maxTrade < r.notional) .REJECT_TIER_LIMIT,
    unlessReducing r (refuseWhen ((tierOf r.userTier).maxExposure < r.currentExposure + r.notional)
      .REJECT_OVER_EXPOSURE),
    unlessReducing r (allocatorGate m r),
    unlessReducing r (clusterGate m r),
    unlessReducing r (refuseWhen (t.maxStrategyExposurePct * m.totalCapital
      < r.strategyExposure + r.notional) .REJECT_MAX_STRATEGY_EXPOSURE)]

/-- The first of the later gates that refuses. -/
def laterRefusal (m : Manager α) (limits : EffectiveLimits α) (r : TradeRequest α) :
    Option RiskVerdict :=
  (laterGates m limits r).findSome? id

/-! ## The check -/

/-- When requests passed. -/
structure Throttle where
  globalTimestamps : List ℚ
  userTimestamps : String → List ℚ
  lastTradeSig : String → Option ℚ

/-- A manager that nothing has passed yet. -/
def Throttle.start : Throttle :=
  { globalTimestamps := [], userTimestamps := fun _ => [], lastTradeSig := fun _ => none }

/-- One call: the request, the settings that were loaded for it, and the clock. -/
structure Call (α : Type) where
  request : TradeRequest α
  settings : Option (UserSettings α)
  now : ℚ

def TradeRequest.signature (r : TradeRequest α) : String :=
  r.userId ++ "_" ++ r.symbol ++ "_" ++ r.side

namespace Throttle

/-- What is a second old or more is dropped, of the user's queue too. -/
def evictBefore (s : Throttle) (user : String) (cutoff : ℚ) : Throttle :=
  { s with
    globalTimestamps := evict cutoff s.globalTimestamps
    userTimestamps := Function.update s.userTimestamps user (evict cutoff (s.userTimestamps user)) }

def record (s : Throttle) (r : TradeRequest α) (now : ℚ) : Throttle :=
  { globalTimestamps := s.globalTimestamps ++ [now]
    userTimestamps := Function.update s.userTimestamps r.userId (s.userTimestamps r.userId ++ [now])
    lastTradeSig := Function.update s.lastTradeSig r.signature (some now) }

/-- The first gate. -/
def isDuplicate (s : Throttle) (t : RiskThresholds α) (call : Call α) : Bool :=
  call.now - (s.lastTradeSig call.request.signature).getD 0 < t.duplicateOrderCooldown

/-- The second gate, after evicting. -/
def rateRefusal (s : Throttle) (t : RiskThresholds α) (user : String) : Option RiskVerdict :=
  if t.maxGlobalOrdersPerSecond ≤ s.globalTimestamps.length then some .REJECT_GLOBAL_RATE_LIMIT
  else if t.maxUserOrdersPerSecond ≤ (s.userTimestamps user).length then some .REJECT_USER_RATE_LIMIT
  else none

end Throttle

/-- `validate_trade_request`: the throttle after it and the verdict, if a setting that cannot
    be read does not raise. -/
def validateTradeRequest (m : Manager α) (s : Throttle) (call : Call α) :
    Throttle × Option RiskVerdict :=
  match m.effectiveLimits call.settings with
  | none => (s, none)
  | some limits =>
    if s.isDuplicate m.thresholds call then (s, some .REJECT_DUPLICATE_SPAM)
    else
      let s := s.evictBefore call.request.userId (call.now - 1)
      match s.rateRefusal m.thresholds call.request.userId with
      | some verdict => (s, some verdict)
      | none =>
        match laterRefusal m limits call.request with
        | some verdict => (s, some verdict)
        | none => (s.record call.request call.now, some .PASS)

/-! ## What a verdict says -/

section

variable {m : Manager α} {s : Throttle} {call : Call α} {r : TradeRequest α}
  {limits : EffectiveLimits α}

variable {verdict : RiskVerdict}

@[simp] theorem refuseWhen_eq_none {c : Prop} [Decidable c] :
    refuseWhen c verdict = none ↔ ¬ c := by
  unfold refuseWhen
  split_ifs with h
  · exact iff_of_false nofun (not_not.mpr h)
  · exact iff_of_true rfl h

theorem refuseWhen_eq_some {c : Prop} [Decidable c] {other : RiskVerdict} :
    refuseWhen c verdict = some other ↔ c ∧ verdict = other := by
  unfold refuseWhen
  split_ifs with h
  · rw [Option.some_inj, and_iff_right h]
  · exact iff_of_false nofun fun h' => h h'.1

variable {gate : Option RiskVerdict}

omit [Figure α] in
@[simp] theorem unlessReducing_eq_none :
    unlessReducing r gate = none ↔ r.isReduceOnly = true ∨ gate = none := by
  unfold unlessReducing
  split_ifs with h
  · exact iff_of_true rfl (.inl h)
  · exact ⟨.inr, fun h' => h'.resolve_left h⟩

omit [Figure α] in
theorem unlessReducing_eq_some :
    unlessReducing r gate = some verdict ↔ r.isReduceOnly = false ∧ gate = some verdict := by
  unfold unlessReducing
  cases r.isReduceOnly <;> simp

def throttleVerdicts : List RiskVerdict :=
  [.REJECT_DUPLICATE_SPAM, .REJECT_GLOBAL_RATE_LIMIT, .REJECT_USER_RATE_LIMIT]

omit [Figure α] in
theorem rateRefusal_mem {t : RiskThresholds α} {user : String}
    (h : s.rateRefusal t user = some verdict) : verdict ∈ throttleVerdicts := by
  unfold Throttle.rateRefusal at h
  split_ifs at h
  · rw [← Option.some.inj h]
    decide
  · rw [← Option.some.inj h]
    decide

theorem laterGates_verdict (h_gate : gate ∈ laterGates m limits r) (h : gate = some verdict) :
    verdict ≠ .PASS ∧ verdict ∉ throttleVerdicts := by
  have h_refuse : ∀ {c : Prop} [Decidable c] {named : RiskVerdict}, refuseWhen c named = some verdict →
      named ≠ .PASS ∧ named ∉ throttleVerdicts → verdict ≠ .PASS ∧ verdict ∉ throttleVerdicts :=
    fun h_some h_named => (refuseWhen_eq_some.mp h_some).2 ▸ h_named
  have h_unless : ∀ {c : Prop} [Decidable c] {named : RiskVerdict},
      unlessReducing r (refuseWhen c named) = some verdict →
        named ≠ .PASS ∧ named ∉ throttleVerdicts → verdict ≠ .PASS ∧ verdict ∉ throttleVerdicts :=
    fun h_some h_named => h_refuse (unlessReducing_eq_some.mp h_some).2 h_named
  unfold laterGates at h_gate
  simp only [List.mem_cons, List.not_mem_nil, or_false] at h_gate
  rcases h_gate with rfl | rfl | rfl | rfl | rfl | rfl | rfl | rfl | rfl | rfl | rfl | rfl | rfl | rfl
  · unfold flashCrashGate at h
    split at h
    · cases h
    · exact h_refuse h (by decide)
  · exact h_unless h (by decide)
  · exact h_unless h (by decide)
  · exact h_unless h (by decide)
  · exact h_unless h (by decide)
  · exact h_unless h (by decide)
  · exact h_unless h (by decide)
  · exact h_refuse h (by decide)
  · exact h_refuse h (by decide)
  · exact h_refuse h (by decide)
  · exact h_unless h (by decide)
  · have h_allocator := (unlessReducing_eq_some.mp h).2
    unfold allocatorGate at h_allocator
    split at h_allocator
    · cases h_allocator
    · split at h_allocator
      · rw [← Option.some.inj h_allocator]
        decide
      · exact h_refuse h_allocator (by decide)
  · have h_cluster := (unlessReducing_eq_some.mp h).2
    unfold clusterGate at h_cluster
    split at h_cluster
    · cases h_cluster
    · exact h_refuse h_cluster (by decide)
  · exact h_unless h (by decide)

theorem laterRefusal_eq_none :
    laterRefusal m limits r = none ↔ ∀ gate ∈ laterGates m limits r, gate = none := by
  rw [laterRefusal, List.findSome?_eq_none_iff]
  rfl

theorem laterRefusal_verdict (h : laterRefusal m limits r = some verdict) :
    verdict ≠ .PASS ∧ verdict ∉ throttleVerdicts := by
  obtain ⟨gate, h_gate, h_verdict⟩ := List.exists_of_findSome?_eq_some h
  exact laterGates_verdict h_gate h_verdict

/-- What the first two gates say. -/
def throttleRefusal (m : Manager α) (s : Throttle) (call : Call α) : Option RiskVerdict :=
  if s.isDuplicate m.thresholds call then some .REJECT_DUPLICATE_SPAM
  else (s.evictBefore call.request.userId (call.now - 1)).rateRefusal m.thresholds call.request.userId

omit [Figure α] in
theorem throttleRefusal_mem (h : throttleRefusal m s call = some verdict) :
    verdict ∈ throttleVerdicts := by
  unfold throttleRefusal at h
  split_ifs at h
  · rw [← Option.some.inj h]
    decide
  · exact rateRefusal_mem h

theorem validateTradeRequest_verdict :
    (validateTradeRequest m s call).2 = (m.effectiveLimits call.settings).map fun limits =>
      ((throttleRefusal m s call).or (laterRefusal m limits call.request)).getD .PASS := by
  unfold validateTradeRequest throttleRefusal
  cases m.effectiveLimits call.settings with
  | none => rfl
  | some limits =>
    rw [Option.map_some]
    dsimp only
    split_ifs
    · rfl
    · cases (s.evictBefore call.request.userId (call.now - 1)).rateRefusal m.thresholds
        call.request.userId with
      | some verdict => rfl
      | none =>
        cases laterRefusal m limits call.request with
        | some verdict => rfl
        | none => rfl

theorem validateTradeRequest_pass_iff :
    (validateTradeRequest m s call).2 = some .PASS ↔
      ∃ limits, m.effectiveLimits call.settings = some limits ∧ throttleRefusal m s call = none ∧
        ∀ gate ∈ laterGates m limits call.request, gate = none := by
  rw [validateTradeRequest_verdict, Option.map_eq_some_iff]
  refine exists_congr fun limits => and_congr_right fun _ => ?_
  rw [← laterRefusal_eq_none]
  cases h_throttle : throttleRefusal m s call with
  | some verdict =>
    have h_mem := throttleRefusal_mem h_throttle
    refine iff_of_false (fun h_pass => ?_) nofun
    rw [show verdict = .PASS from h_pass] at h_mem
    exact absurd h_mem (by decide)
  | none =>
    rw [Option.none_or, and_iff_right rfl]
    cases h_later : laterRefusal m limits call.request with
    | some verdict => exact iff_of_false (laterRefusal_verdict h_later).1 nofun
    | none => exact iff_of_true rfl rfl

theorem validateTradeRequest_throttle :
    (validateTradeRequest m s call).1 =
      if (validateTradeRequest m s call).2 = some .PASS then
        (s.evictBefore call.request.userId (call.now - 1)).record call.request call.now
      else if (m.effectiveLimits call.settings).isNone ∨ s.isDuplicate m.thresholds call then s
      else s.evictBefore call.request.userId (call.now - 1) := by
  by_cases h_pass : (validateTradeRequest m s call).2 = some .PASS
  · rw [if_pos h_pass]
    obtain ⟨limits, h_limits, h_throttle, h_later⟩ := validateTradeRequest_pass_iff.mp h_pass
    rw [← laterRefusal_eq_none] at h_later
    unfold throttleRefusal at h_throttle
    split_ifs at h_throttle with h_duplicate
    unfold validateTradeRequest
    rw [h_limits]
    dsimp only
    rw [if_neg h_duplicate, h_throttle]
    dsimp only
    rw [h_later]
  · rw [if_neg h_pass]
    unfold validateTradeRequest at h_pass ⊢
    cases h_limits : m.effectiveLimits call.settings with
    | none => rfl
    | some limits =>
      rw [h_limits] at h_pass
      dsimp only at h_pass ⊢
      by_cases h_duplicate : s.isDuplicate m.thresholds call = true
      · rw [if_pos h_duplicate, if_pos (.inr h_duplicate)]
      · rw [if_neg h_duplicate] at h_pass ⊢
        rw [if_neg (by simpa using h_duplicate)]
        cases h_rate : (s.evictBefore call.request.userId (call.now - 1)).rateRefusal m.thresholds
            call.request.userId with
        | some verdict => rfl
        | none =>
          rw [h_rate] at h_pass
          dsimp only at h_pass ⊢
          cases h_later : laterRefusal m limits call.request with
          | some verdict => rfl
          | none =>
            rw [h_later] at h_pass
            exact absurd rfl h_pass

end

end VyomQuant.Risk
