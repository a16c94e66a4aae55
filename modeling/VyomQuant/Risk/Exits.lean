/-
  VyomQuant.Risk.Exits

  Whether a position that was let in can be let out.

  A reduce-only request is spared the gates for drawdown, losses, open trades, leverage and
  exposure.  It is not spared the price anomaly and the three caps on the notional of one
  trade.  A position is built from several trades and its notional moves with the price, so
  an exit that was no problem to enter may be too large to leave (`exit_iff`).
-/

import VyomQuant.Risk.Throttling

namespace VyomQuant.Risk

variable {α : Type} [Figure α] {m : Manager α} {s : Throttle} {calls : List (Call α)}
  {call : Call α} {user symbol : String} {r : TradeRequest α} {limits : EffectiveLimits α}

/-! ## Positions -/

/-- What a user has in a symbol after some fills, long above zero and short below. -/
def positionOf (user symbol : String) (fills : List (Call α)) : α :=
  fills.foldl (fun position fill =>
    if fill.request.userId = user ∧ fill.request.symbol = symbol ∧ fill.request.isReduceOnly = false then
      if fill.request.side = "buy" then position + fill.request.amount
      else position - fill.request.amount
    else position) 0

/-- A reduce-only request for the whole position. -/
structure IsExit (position : α) (user symbol : String) (r : TradeRequest α) : Prop where
  userId : r.userId = user
  symbol : r.symbol = symbol
  isReduceOnly : r.isReduceOnly = true
  long : 0 < position → r.side = "sell"
  short : position < 0 → r.side = "buy"
  amount : r.amount = distance position

/-! ## What an exit still goes through -/

/-- It passes, or one of the first two gates refuses it. -/
def GoesThrough (m : Manager α) (s : Throttle) (call : Call α) : Prop :=
  ∃ verdict, (validateTradeRequest m s call).2 = some verdict ∧
    (verdict = .PASS ∨ verdict ∈ throttleVerdicts)

/-- The price is not too far from the recent ones. -/
def CalmPrice (m : Manager α) (recentPrices : List α) (price : α) : Prop :=
  recentPrices ≠ [] → 0 < recentPrices.foldl (· + ·) 0 / (recentPrices.length : α) →
    distance (price - recentPrices.foldl (· + ·) 0 / (recentPrices.length : α))
        / (recentPrices.foldl (· + ·) 0 / (recentPrices.length : α))
      ≤ m.thresholds.flashCrashPriceDeviationPct

structure WithinCaps (m : Manager α) (userTier : String) (notional : α) : Prop where
  positionSize : notional ≤ m.thresholds.maxPositionSizePct * m.totalCapital
  globalCap : notional ≤ m.thresholds.globalMaxNotionalPerTrade
  tierCap : notional ≤ (tierOf userTier).maxTrade

theorem flashCrashGate_eq_none_iff :
    flashCrashGate m r = none ↔ CalmPrice m r.recentPrices r.currentPrice := by
  unfold flashCrashGate CalmPrice
  cases r.recentPrices with
  | nil => exact iff_of_true rfl fun h => absurd rfl h
  | cons price rest =>
    rw [refuseWhen_eq_none, not_and, not_lt]
    exact ⟨fun h _ => h, fun h => h (List.cons_ne_nil _ _)⟩

theorem laterGates_reducing (h : r.isReduceOnly = true) :
    (∀ gate ∈ laterGates m limits r, gate = none) ↔
      CalmPrice m r.recentPrices r.currentPrice ∧ WithinCaps m r.userTier r.notional := by
  simp only [laterGates, List.forall_mem_cons, unlessReducing_eq_none, refuseWhen_eq_none, not_lt,
    h, true_or, true_and, flashCrashGate_eq_none_iff]
  constructor
  · rintro ⟨h_calm, h_size, h_global, h_tier, -⟩
    exact ⟨h_calm, h_size, h_global, h_tier⟩
  · rintro ⟨h_calm, h_size, h_global, h_tier⟩
    exact ⟨h_calm, h_size, h_global, h_tier, List.forall_mem_nil _⟩

theorem goesThrough_iff : GoesThrough m s call ↔
    ∃ limits, m.effectiveLimits call.settings = some limits ∧
      (throttleRefusal m s call ≠ none ∨ ∀ gate ∈ laterGates m limits call.request, gate = none) := by
  unfold GoesThrough
  rw [validateTradeRequest_verdict]
  cases m.effectiveLimits call.settings with
  | none => exact iff_of_false nofun nofun
  | some limits =>
    simp only [Option.map_some, Option.some_inj, exists_eq_left', ← laterRefusal_eq_none]
    cases h_throttle : throttleRefusal m s call with
    | some verdict =>
      exact iff_of_true (.inr (throttleRefusal_mem h_throttle)) (.inl (Option.some_ne_none _))
    | none =>
      rw [Option.none_or]
      cases h_later : laterRefusal m limits call.request with
      | some verdict =>
        have h_verdict := laterRefusal_verdict h_later
        exact iff_of_false (fun h => h.elim h_verdict.1 h_verdict.2)
          (fun h => h.elim (fun h_none => h_none rfl) nofun)
      | none => exact iff_of_true (.inl rfl) (.inr rfl)

/-- Whatever the manager's figures and the account's condition have become, the exit of the
    whole position goes through exactly when the settings can be read and the throttle refuses,
    or the price is calm and the position's notional within the caps. -/
theorem exit_iff (then_ : Manager α)
    (h : IsExit (positionOf user symbol (passedCalls m .start calls)) user symbol call.request) :
    GoesThrough then_ (throttleAfter m .start calls) call ↔
      (then_.effectiveLimits call.settings).isSome ∧
        (throttleRefusal then_ (throttleAfter m .start calls) call ≠ none ∨
          CalmPrice then_ call.request.recentPrices call.request.currentPrice ∧
            WithinCaps then_ call.request.userTier
              (distance (positionOf user symbol (passedCalls m .start calls))
                * call.request.currentPrice)) := by
  rw [← h.amount, goesThrough_iff, Option.isSome_iff_exists]
  simp only [laterGates_reducing h.isReduceOnly, TradeRequest.notional, exists_and_right]

/-! ### Two small orders -/

/-- The exit from two small orders. -/
def smallExit (price : ℚ) (recentPrices : List ℚ) : Call ℚ :=
  { request := { smallOrder 1 with
      side := "sell", amount := 1 / 5, currentPrice := price, isReduceOnly := true
      recentPrices := recentPrices }
    settings := none, now := 1700000100 }

theorem smallExit_isExit (price : ℚ) (recentPrices : List ℚ) :
    IsExit (positionOf "u" "BTC/USDT" (passedCalls fiveOpen .start smallOrders)) "u" "BTC/USDT"
      (smallExit price recentPrices).request := by
  have h_position : positionOf "u" "BTC/USDT" (passedCalls fiveOpen .start smallOrders) = 1 / 5 := by
    decide +kernel
  rw [h_position]
  have h_amount : (1 / 5 : ℚ) = distance (1 / 5) := by decide +kernel
  refine ⟨rfl, rfl, rfl, fun _ => rfl, fun h_short => ?_, h_amount⟩
  exact absurd h_short (by decide +kernel)

def smallThrottle : Throttle := throttleAfter fiveOpen .start smallOrders

theorem smallExit_iff : GoesThrough fiveOpen smallThrottle (smallExit 48000 [50000]) ↔
    (fiveOpen.effectiveLimits none).isSome ∧
      (throttleRefusal fiveOpen smallThrottle (smallExit 48000 [50000]) ≠ none ∨
        CalmPrice fiveOpen [50000] 48000 ∧
          WithinCaps fiveOpen "pro"
            (distance (positionOf "u" "BTC/USDT" (passedCalls fiveOpen .start smallOrders)) * 48000)) :=
  exit_iff fiveOpen (smallExit_isExit 48000 [50000])

/-- After a rise the position is too large to leave, and in a crash it cannot be left. -/
theorem smallExit_refused :
    (∀ price recentPrices, IsExit
        (positionOf "u" "BTC/USDT" (passedCalls fiveOpen .start smallOrders)) "u" "BTC/USDT"
        (smallExit price recentPrices).request) ∧
      ¬ GoesThrough fiveOpen smallThrottle (smallExit 60000 []) ∧
      ¬ GoesThrough fiveOpen smallThrottle (smallExit 40000 [50000]) := by
  have h_large : (validateTradeRequest fiveOpen smallThrottle (smallExit 60000 [])).2
      = some .REJECT_MAX_POSITION_SIZE := by decide +kernel
  have h_crash : (validateTradeRequest fiveOpen smallThrottle (smallExit 40000 [50000])).2
      = some .REJECT_FLASH_CRASH := by decide +kernel
  refine ⟨smallExit_isExit, ?_, ?_⟩
  · rintro ⟨verdict, h_verdict, h_through⟩
    rw [h_large] at h_verdict
    rw [← Option.some.inj h_verdict] at h_through
    exact absurd h_through (by decide)
  · rintro ⟨verdict, h_verdict, h_through⟩
    rw [h_crash] at h_verdict
    rw [← Option.some.inj h_verdict] at h_through
    exact absurd h_through (by decide)

end VyomQuant.Risk
