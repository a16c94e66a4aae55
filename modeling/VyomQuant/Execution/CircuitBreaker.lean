/-
  VyomQuant.Execution.CircuitBreaker

  The global capital-protection breaker: three automatic triggers with their
  cooldowns, a manual stop and a manual reset over one state, under one lock.

  The lock is not reentrant, and the helpers that open and reset the circuit
  acquire it while their callers hold it.  So the breaker never opens: the call
  that finds a figure past its threshold is the call that never returns
  (`protects_iff`).

  Amounts are any type with the operations of the source and no law about them,
  so that binary floats are an instance as well as exact numbers.
-/

import VyomQuant.Lib.Mutex
import Mathlib.Algebra.Order.Ring.Rat
import Mathlib.Tactic.NormNum

namespace VyomQuant.CircuitBreaker

open Mutex

/-- The arithmetic that the breaker does on amounts; no law is assumed. -/
class Amount (α : Type) where
  zero : α
  hundred : α
  neg : α → α
  add : α → α → α
  sub : α → α → α
  mul : α → α → α
  div : α → α → α
  lt : α → α → Prop
  beq : α → α → Bool
  decidableLT : DecidableRel lt

section Operations

variable {α : Type} [Amount α]

-- A low priority, so that numbers keep the instances they have.
instance (priority := 50) instZero : Zero α := ⟨Amount.zero⟩

instance (priority := 50) instNeg : Neg α := ⟨Amount.neg⟩

instance (priority := 50) instAdd : Add α := ⟨Amount.add⟩

instance (priority := 50) instSub : Sub α := ⟨Amount.sub⟩

instance (priority := 50) instMul : Mul α := ⟨Amount.mul⟩

instance (priority := 50) instDiv : Div α := ⟨Amount.div⟩

instance (priority := 50) instLT : LT α := ⟨Amount.lt⟩

instance instBEq : BEq α := ⟨Amount.beq⟩

instance (priority := 50) instDecidableLT : DecidableLT α := Amount.decidableLT

end Operations

instance : Amount ℚ where
  zero := 0
  hundred := 100
  neg := (- ·)
  add := (· + ·)
  sub := (· - ·)
  mul := (· * ·)
  div := (· / ·)
  lt := (· < ·)
  beq := (· == ·)
  decidableLT := fun _ _ => inferInstance

/-! ## The breaker -/

inductive GlobalCircuitBreakerState where
  | normal
  | dailyLimitHit
  | drawdownLimitHit
  | failureLimitHit
  | manualStop
  deriving DecidableEq

structure GlobalCircuitBreakerConfig (α : Type) where
  dailyLossThresholdPct : α
  maxDrawdownThresholdPct : α
  consecutiveFailuresThreshold : ℤ
  dailyLossCooldown : ℤ
  drawdownCooldown : ℤ
  failuresCooldown : ℤ

def GlobalCircuitBreakerConfig.default : GlobalCircuitBreakerConfig ℚ where
  dailyLossThresholdPct := 5
  maxDrawdownThresholdPct := 10
  consecutiveFailuresThreshold := 5
  dailyLossCooldown := 86400
  drawdownCooldown := 3600
  failuresCooldown := 300

/-- One reading of the clocks: `time.time()` and the local calendar day. -/
structure Instant where
  time : ℚ
  today : String

/-- The equity figures that are set together by the first trade. -/
structure Baseline (α : Type) where
  dailyStartingEquity : α
  peakEquity : α

structure Breaker (α : Type) where
  state : GlobalCircuitBreakerState
  equity : Option (Baseline α)
  currentEquity : Option α
  dailyPnl : α
  maxDrawdownPct : α
  consecutiveFailures : ℤ
  lastFailureTime : Option ℚ
  circuitOpenedAt : Option ℚ
  cooldownUntil : Option ℚ
  tradesToday : ℕ
  tradingStartDate : Option String

section Breaker

variable {α : Type} [Amount α]

def Breaker.initial : Breaker α where
  state := .normal
  equity := none
  currentEquity := none
  dailyPnl := 0
  maxDrawdownPct := 0
  consecutiveFailures := 0
  lastFailureTime := none
  circuitOpenedAt := none
  cooldownUntil := none
  tradesToday := 0
  tradingStartDate := none

/-! ## Opening and resetting -/

/-- `_reset_circuit`: it enters the lock itself. -/
def resetCircuit : Guarded (Breaker α) Unit :=
  .withLock <| .modify fun s =>
    { s with
      state := .normal
      circuitOpenedAt := none
      cooldownUntil := none
      consecutiveFailures :=
        if s.state = .failureLimitHit then 0 else s.consecutiveFailures }

/-- `_check_cooldown_expired`. -/
def checkCooldownExpired (now : Instant) : Guarded (Breaker α) Bool := do
  let s ← .get
  match s.cooldownUntil with
  | none => return true
  | some cooldownUntil =>
    if cooldownUntil ≤ now.time then
      resetCircuit
      return true
    else
      return false

/-- The figures of a new trading day. -/
def Breaker.startDay (s : Breaker α) (today : String) : Breaker α :=
  if s.tradingStartDate = some today then s
  else { s with dailyPnl := 0, tradesToday := 0, tradingStartDate := some today }

/-- `_reset_daily_tracking`. -/
def resetDailyTracking (now : Instant) : Guarded (Breaker α) Unit := do
  let s ← .get
  .modify fun s => s.startDay now.today
  if s.tradingStartDate ≠ some now.today ∧ s.state = .dailyLimitHit then
    let _ ← checkCooldownExpired now
    return ()

/-- `_open_circuit`: it enters the lock itself, and changes an open circuit no more. -/
def openCircuit (now : Instant) (state : GlobalCircuitBreakerState) (cooldownSeconds : ℤ) :
    Guarded (Breaker α) Unit :=
  .withLock <| .modify fun s =>
    if s.state ≠ .normal then s
    else
      { s with
        state := state
        circuitOpenedAt := some now.time
        cooldownUntil := some (now.time + cooldownSeconds) }

/-! ## The figures -/

/-- `max` of the source: the first argument unless the second is larger. -/
def larger (x y : α) : α := if x < y then y else x

/-- `abs` of the source. -/
def absolute (x : α) : α := if x < 0 then -x else x

/-- The equity figures that a trade starts from. -/
def Breaker.baseline (s : Breaker α) (pnl currentEquity : α) (startingEquity : Option α) :
    Baseline α :=
  match s.equity with
  | some b => b
  | none =>
    match startingEquity with
    | some e =>
      -- an explicit zero counts as no starting equity
      if e == 0 then ⟨currentEquity - pnl, currentEquity - pnl⟩ else ⟨e, e⟩
    | none => ⟨currentEquity - pnl, currentEquity - pnl⟩

/-- The figures that a trade updates first. -/
def Breaker.trackEquity (s : Breaker α) (pnl currentEquity : α) (startingEquity : Option α) :
    Breaker α :=
  let b := s.baseline pnl currentEquity startingEquity
  { s with
    equity := some { b with peakEquity := larger b.peakEquity currentEquity }
    currentEquity := some currentEquity
    dailyPnl := s.dailyPnl + pnl
    tradesToday := s.tradesToday + 1 }

def Breaker.peakEquity (s : Breaker α) : α :=
  match s.equity with
  | some b => b.peakEquity
  | none => 0

def Breaker.dailyStartingEquity (s : Breaker α) : α :=
  match s.equity with
  | some b => b.dailyStartingEquity
  | none => 0

/-- The drawdown and the failure streak after a trade. -/
def Breaker.trackDrawdown (s : Breaker α) (pnl currentEquity : α) : Breaker α :=
  { s with
    maxDrawdownPct :=
      larger s.maxDrawdownPct ((s.peakEquity - currentEquity) / s.peakEquity * Amount.hundred)
    consecutiveFailures := if pnl != 0 then 0 else s.consecutiveFailures }

def Breaker.dailyLossPct (s : Breaker α) : α :=
  if s.dailyPnl < 0 then absolute s.dailyPnl / s.dailyStartingEquity * Amount.hundred else 0

/-! ## The calls -/

/-- `can_trade`. -/
def canTrade (now : Instant) : Guarded (Breaker α) Bool := do
  if ← checkCooldownExpired now then
    resetDailyTracking now
    .withLock do
      let s ← .get
      return decide (s.state = .normal)
  else
    return false

/-- `record_trade`. -/
def recordTrade (config : GlobalCircuitBreakerConfig α) (now : Instant) (pnl currentEquity : α)
    (startingEquity : Option α) : Guarded (Breaker α) Unit :=
  .withLock do
    resetDailyTracking now
    .modify fun s => s.trackEquity pnl currentEquity startingEquity
    let s ← .get
    .raiseIf (s.peakEquity == 0)
    .modify fun s => s.trackDrawdown pnl currentEquity
    let s ← .get
    .raiseIf (s.dailyPnl < 0 ∧ s.dailyStartingEquity == 0)
    if config.dailyLossThresholdPct < s.dailyLossPct then
      openCircuit now .dailyLimitHit config.dailyLossCooldown
    else if config.maxDrawdownThresholdPct < s.maxDrawdownPct then
      openCircuit now .drawdownLimitHit config.drawdownCooldown
    else
      return ()

/-- `record_failure`. -/
def recordFailure (config : GlobalCircuitBreakerConfig α) (now : Instant) :
    Guarded (Breaker α) Unit :=
  .withLock do
    .modify fun s =>
      { s with
        consecutiveFailures := s.consecutiveFailures + 1
        lastFailureTime := some now.time }
    let s ← .get
    if config.consecutiveFailuresThreshold ≤ s.consecutiveFailures then
      openCircuit now .failureLimitHit config.failuresCooldown
    else
      return ()

/-- `manual_stop`: it changes nothing where the circuit is open already. -/
def manualStop (now : Instant) : Guarded (Breaker α) Unit :=
  .withLock <| .modify fun s =>
    if s.state ≠ .normal then s
    else
      { s with
        state := .manualStop
        circuitOpenedAt := some now.time
        cooldownUntil := none }

def adminKey : String := "reset_circuit_8.4"

/-- `manual_reset`. -/
def manualReset (key : String) : Guarded (Breaker α) Bool :=
  if key ≠ adminKey then return false
  else .withLock do
    resetCircuit
    return true

/-- What a status request reads of the breaker. -/
structure Status (α : Type) where
  state : GlobalCircuitBreakerState
  canTrade : Bool
  cooldownSecondsRemaining : ℚ
  dailyLossPct : α
  breaker : Breaker α

/-- `get_status`. -/
def getStatus (now : Instant) : Guarded (Breaker α) (Status α) :=
  .withLock do
    let s ← .get
    return {
      state := s.state
      canTrade := decide (s.state = .normal)
      cooldownSecondsRemaining := match s.cooldownUntil with
        | some cooldownUntil => max 0 (cooldownUntil - now.time)
        | none => 0
      dailyLossPct :=
        if s.dailyPnl < 0 ∧ (s.dailyStartingEquity == 0) = false then s.dailyLossPct else 0
      breaker := s }

inductive Call (α : Type) where
  | recordTrade (pnl currentEquity : α) (startingEquity : Option α)
  | recordFailure
  | manualStop
  | manualReset (key : String)
  | canTrade
  | getStatus

inductive Answer (α : Type) where
  | nothing
  | verdict (allowed : Bool)
  | reset (done : Bool)
  | status (status : Status α)

def perform (config : GlobalCircuitBreakerConfig α) :
    Instant × Call α → Guarded (Breaker α) (Answer α)
  | (now, .recordTrade pnl currentEquity startingEquity) => do
    recordTrade config now pnl currentEquity startingEquity
    return .nothing
  | (now, .recordFailure) => do
    recordFailure config now
    return .nothing
  | (now, .manualStop) => do
    manualStop now
    return .nothing
  | (_, .manualReset key) => do
    let done ← manualReset key
    return .reset done
  | (now, .canTrade) => do
    let allowed ← canTrade now
    return .verdict allowed
  | (now, .getStatus) => do
    let status ← getStatus now
    return .status status

/-! ## What the breaker is for -/

/-- The three figures that trip the breaker. -/
inductive Figure where
  | dailyLoss
  | drawdown
  | failures

namespace Figure

variable (config : GlobalCircuitBreakerConfig α)

def Past (s : Breaker α) : Figure → Prop
  | dailyLoss => config.dailyLossThresholdPct < s.dailyLossPct
  | drawdown => config.maxDrawdownThresholdPct < s.maxDrawdownPct
  | failures => config.consecutiveFailuresThreshold ≤ s.consecutiveFailures

def cooldown : Figure → ℚ
  | dailyLoss => config.dailyLossCooldown
  | drawdown => config.drawdownCooldown
  | failures => config.failuresCooldown

end Figure

/-- The call records a trade or a failure. -/
def Call.Records : Call α → Prop
  | recordTrade _ _ _ => True
  | recordFailure => True
  | _ => False

abbrev CallEvent (α : Type) := Event (Breaker α) (Instant × Call α) (Answer α)

/-- The event refuses to trade, if it is asked. -/
def Refuses (e : CallEvent α) : Prop :=
  e.call.2 = .canTrade → ∃ s, e.outcome = .returned (.verdict false) s

/-- The capital protection that the calls of a sequence show: every call returns, a
    recording that leaves a figure past its threshold leaves the breaker open until
    that figure's cooldown is over, and a manual stop holds until a manual reset. -/
structure Protects (config : GlobalCircuitBreakerConfig α) (events : List (CallEvent α)) :
    Prop where
  returns : ∀ e ∈ events, e.outcome.Returned
  trips : ∀ pre e post, events = pre ++ e :: post → e.call.2.Records →
    ∀ figure, Figure.Past config e.outcome.state figure →
      e.outcome.state.state ≠ .normal ∧
        ∀ e' ∈ post, e'.call.1.time < e.call.1.time + figure.cooldown config → Refuses e'
  stays : ∀ pre e mid e' post, events = pre ++ e :: (mid ++ e' :: post) →
    e.call.2 = .manualStop → (∀ r ∈ mid, r.call.2 ≠ .manualReset adminKey) → Refuses e'

/-! ## The condition -/

/-- The breaker that a recording leaves if it returns, as a function of what it meets. -/
def recorded (s : Breaker α) : Instant × Call α → Breaker α
  | (now, .recordTrade pnl currentEquity startingEquity) =>
    ((s.startDay now.today).trackEquity pnl currentEquity startingEquity).trackDrawdown
      pnl currentEquity
  | (now, .recordFailure) =>
    { s with
      consecutiveFailures := s.consecutiveFailures + 1
      lastFailureTime := some now.time }
  | _ => s

/-- The figures that a call compares with their thresholds. -/
def Call.Checks : Call α → Figure → Prop
  | recordTrade _ _ _, figure => figure ≠ .failures
  | recordFailure, figure => figure = .failures
  | _, _ => False

/-- The trade divides by a zero: the peak of the equity, or the starting equity of a
    day that is at a loss. -/
def DividesByZero (s : Breaker α) : Prop :=
  s.peakEquity == 0 ∨ s.dailyPnl < 0 ∧ s.dailyStartingEquity == 0

/-- The call finds no figure past its threshold, leaves none past it while trading is on,
    divides by no zero, and is no manual reset. -/
structure Unhindered (config : GlobalCircuitBreakerConfig α) (s : Breaker α)
    (c : Instant × Call α) : Prop where
  notReset : c.2 ≠ .manualReset adminKey
  divides : ∀ pnl e start, c.2 = .recordTrade pnl e start → ¬ DividesByZero (recorded s c)
  within : c.2.Records → ∀ figure, c.2.Checks figure ∨ s.state = .normal →
    ¬ Figure.Past config (recorded s c) figure

/-! ## What a breaker can become -/

/-- Trading is on, or stopped by hand: no trigger has opened the breaker. -/
structure Untripped (s : Breaker α) : Prop where
  state : s.state = .normal ∨ s.state = .manualStop
  cooldown : s.cooldownUntil = none

variable {s : Breaker α}

omit [Amount α] in
theorem Untripped.ne_dailyLimitHit (h : Untripped s) : s.state ≠ .dailyLimitHit := by
  obtain h_state | h_state := h.state <;> simp [h_state]

@[simp] theorem startDay_state (s : Breaker α) (today : String) :
    (s.startDay today).state = s.state := by
  unfold Breaker.startDay
  split <;> rfl

@[simp] theorem startDay_cooldownUntil (s : Breaker α) (today : String) :
    (s.startDay today).cooldownUntil = s.cooldownUntil := by
  unfold Breaker.startDay
  split <;> rfl

@[simp] theorem recorded_state (s : Breaker α) (c : Instant × Call α) :
    (recorded s c).state = s.state := by
  obtain ⟨now, c⟩ := c
  cases c <;> simp [recorded, Breaker.trackEquity, Breaker.trackDrawdown]

@[simp] theorem recorded_cooldownUntil (s : Breaker α) (c : Instant × Call α) :
    (recorded s c).cooldownUntil = s.cooldownUntil := by
  obtain ⟨now, c⟩ := c
  cases c <;> simp [recorded, Breaker.trackEquity, Breaker.trackDrawdown]

theorem resetDailyTracking_untripped (h : Untripped s) (now : Instant) (held : Bool) :
    resetDailyTracking now held s = .returned () (s.startDay now.today) := by
  simp [resetDailyTracking, h.ne_dailyLimitHit]

theorem canTrade_untripped (h : Untripped s) (now : Instant) :
    canTrade now false s
      = .returned (decide (s.state = .normal)) (s.startDay now.today) := by
  simp [canTrade, checkCooldownExpired, h.cooldown, resetDailyTracking_untripped h]

@[simp] theorem trackDrawdown_peakEquity (s : Breaker α) (pnl currentEquity : α) :
    (s.trackDrawdown pnl currentEquity).peakEquity = s.peakEquity := rfl

/-- A trade of an untripped breaker: the divisions may raise, and a figure past its
    threshold asks for the lock that the trade holds. -/
theorem recordTrade_untripped (config : GlobalCircuitBreakerConfig α) (h : Untripped s)
    (now : Instant) (pnl currentEquity : α) (startingEquity : Option α) :
    recordTrade config now pnl currentEquity startingEquity false s =
      let s₁ := (s.startDay now.today).trackEquity pnl currentEquity startingEquity
      let s₂ := s₁.trackDrawdown pnl currentEquity
      if s₂.peakEquity == 0 then .raised s₁
      else if s₂.dailyPnl < 0 ∧ s₂.dailyStartingEquity == 0 then .raised s₂
      else if config.dailyLossThresholdPct < s₂.dailyLossPct then .blocked s₂
      else if config.maxDrawdownThresholdPct < s₂.maxDrawdownPct then .blocked s₂
      else .returned () s₂ := by
  simp only [recordTrade, Guarded.withLock_free, Guarded.bind_apply,
    resetDailyTracking_untripped h, Guarded.modify_apply, Guarded.get_apply,
    trackDrawdown_peakEquity]
  generalize (s.startDay now.today).trackEquity pnl currentEquity startingEquity = s₁
  by_cases h_peak : (s₁.peakEquity == 0) = true
  · simp only [Guarded.raiseIf, h_peak, ite_true]
  · have h_peak : (s₁.peakEquity == 0) = false := by simpa using h_peak
    simp only [Guarded.raiseIf, h_peak, Bool.false_eq_true, ite_false]
    generalize s₁.trackDrawdown pnl currentEquity = s₂
    by_cases h_loss : s₂.dailyPnl < 0 ∧ (s₂.dailyStartingEquity == 0) = true
    · simp only [h_loss, and_self, ite_true]
    · simp only [h_loss, ite_false]
      split
      · rfl
      · split <;> rfl

theorem recordTrade_state (config : GlobalCircuitBreakerConfig α) (h : Untripped s) (now : Instant)
    (pnl currentEquity : α) (startingEquity : Option α) :
    (recordTrade config now pnl currentEquity startingEquity false s).state.state = s.state ∧
      (recordTrade config now pnl currentEquity startingEquity false s).state.cooldownUntil
        = s.cooldownUntil := by
  have h_track : ((s.startDay now.today).trackEquity pnl currentEquity startingEquity).state
      = s.state ∧
      ((s.startDay now.today).trackEquity pnl currentEquity startingEquity).cooldownUntil
        = s.cooldownUntil :=
    ⟨startDay_state s now.today, startDay_cooldownUntil s now.today⟩
  rw [recordTrade_untripped config h]
  simp only []
  split
  · exact h_track
  · split
    · exact h_track
    · split
      · exact h_track
      · split
        · exact h_track
        · exact h_track

theorem recordTrade_returned_iff (config : GlobalCircuitBreakerConfig α) (h : Untripped s)
    (now : Instant) (pnl currentEquity : α) (startingEquity : Option α) :
    (recordTrade config now pnl currentEquity startingEquity false s).Returned ↔
      ¬ DividesByZero (recorded s (now, .recordTrade pnl currentEquity startingEquity)) ∧
      ∀ figure, figure ≠ .failures → ¬ Figure.Past config
        (recorded s (now, .recordTrade pnl currentEquity startingEquity)) figure := by
  rw [recordTrade_untripped config h]
  unfold recorded
  simp only []
  generalize Breaker.trackDrawdown _ pnl currentEquity = s₂
  constructor
  · intro h_returned
    split_ifs at h_returned with h_peak h_loss h_daily h_drawdown
    · exact h_returned.elim
    · exact h_returned.elim
    · exact h_returned.elim
    · exact h_returned.elim
    refine ⟨fun h_zero => h_zero.elim h_peak h_loss, fun figure h_figure => ?_⟩
    cases figure with
    | dailyLoss => exact h_daily
    | drawdown => exact h_drawdown
    | failures => exact absurd rfl h_figure
  · rintro ⟨h_divides, h_past⟩
    have h_daily : ¬ config.dailyLossThresholdPct < s₂.dailyLossPct := h_past .dailyLoss nofun
    have h_drawdown : ¬ config.maxDrawdownThresholdPct < s₂.maxDrawdownPct :=
      h_past .drawdown nofun
    rw [if_neg fun h_peak => h_divides (.inl h_peak), if_neg fun h_loss => h_divides (.inr h_loss),
      if_neg h_daily, if_neg h_drawdown]
    trivial

theorem recordTrade_of_returned (config : GlobalCircuitBreakerConfig α) (h : Untripped s)
    {now : Instant} {pnl currentEquity : α} {startingEquity : Option α}
    (h_returned : (recordTrade config now pnl currentEquity startingEquity false s).Returned) :
    (recordTrade config now pnl currentEquity startingEquity false s).state
      = recorded s (now, .recordTrade pnl currentEquity startingEquity) := by
  rw [recordTrade_untripped config h] at h_returned ⊢
  simp only [] at h_returned ⊢
  split_ifs at h_returned ⊢
  · exact h_returned.elim
  · exact h_returned.elim
  · exact h_returned.elim
  · exact h_returned.elim
  · rfl

theorem recordFailure_apply (config : GlobalCircuitBreakerConfig α) (s : Breaker α)
    (now : Instant) :
    recordFailure config now false s =
      if config.consecutiveFailuresThreshold ≤ s.consecutiveFailures + 1 then
        .blocked (recorded s (now, .recordFailure))
      else .returned () (recorded s (now, .recordFailure)) := by
  simp only [recordFailure, Guarded.withLock_free, Guarded.bind_apply, Guarded.modify_apply,
    Guarded.get_apply]
  split <;> rfl

theorem recordFailure_state (config : GlobalCircuitBreakerConfig α) (s : Breaker α)
    (now : Instant) :
    (recordFailure config now false s).state = recorded s (now, .recordFailure) := by
  rw [recordFailure_apply]
  split <;> rfl

theorem recordFailure_returned_iff (config : GlobalCircuitBreakerConfig α) (s : Breaker α)
    (now : Instant) :
    (recordFailure config now false s).Returned ↔
      ¬ Figure.Past config (recorded s (now, .recordFailure)) .failures := by
  change _ ↔ ¬ config.consecutiveFailuresThreshold ≤ s.consecutiveFailures + 1
  rw [recordFailure_apply]
  split <;> simp_all

omit [Amount α] in
theorem manualReset_adminKey (s : Breaker α) :
    manualReset adminKey false s = .blocked s := by
  simp [manualReset, resetCircuit]

omit [Amount α] in
theorem manualReset_of_ne {key : String} (h : key ≠ adminKey) (s : Breaker α) :
    manualReset key false s = .returned false s := by
  simp [manualReset, h]

omit [Amount α] in
theorem manualReset_state (key : String) (s : Breaker α) :
    (manualReset key false s).state = s := by
  by_cases h_key : key = adminKey
  · rw [h_key, manualReset_adminKey]
    rfl
  · rw [manualReset_of_ne h_key]
    rfl

omit [Amount α] in
theorem manualStop_untripped (h : Untripped s) (now : Instant) :
    ∃ s', manualStop now false s = .returned () s' ∧ s'.state = .manualStop ∧
      s'.cooldownUntil = none := by
  refine ⟨_, rfl, ?_⟩
  obtain h_state | h_state := h.state
  · simp [h_state]
  · simp [h_state, h.cooldown]

/-! ## One call -/

theorem perform_state (config : GlobalCircuitBreakerConfig α) (h : Untripped s)
    (c : Instant × Call α) :
    (perform config c false s).state.cooldownUntil = none ∧
      ((perform config c false s).state.state = s.state ∧ c.2 ≠ .manualStop ∨
        (perform config c false s).state.state = .manualStop ∧ c.2 = .manualStop) := by
  obtain ⟨now, c⟩ := c
  cases c with
  | recordTrade pnl currentEquity startingEquity =>
    obtain ⟨h_state, h_cooldown⟩ :=
      recordTrade_state config h now pnl currentEquity startingEquity
    rw [h.cooldown] at h_cooldown
    simp [perform, -Guarded.bind_apply, h_state, h_cooldown]
  | recordFailure => simp [perform, -Guarded.bind_apply, recordFailure_state, h.cooldown]
  | manualStop =>
    obtain ⟨s', h_stop, h_state, h_cooldown⟩ := manualStop_untripped h now
    simp [perform, h_stop, h_state, h_cooldown]
  | manualReset key => simp [perform, -Guarded.bind_apply, manualReset_state, h.cooldown]
  | canTrade => simp [perform, canTrade_untripped h, h.cooldown]
  | getStatus => simp [perform, getStatus, h.cooldown]

theorem perform_untripped (config : GlobalCircuitBreakerConfig α) (h : Untripped s)
    (c : Instant × Call α) : Untripped (perform config c false s).state := by
  obtain ⟨h_cooldown, ⟨h_state, -⟩ | ⟨h_state, -⟩⟩ := perform_state config h c
  · exact ⟨h_state ▸ h.state, h_cooldown⟩
  · exact ⟨.inr h_state, h_cooldown⟩

/-- A call of an untripped breaker returns unless it resets by hand, divides by zero or
    finds a figure past its threshold. -/
theorem perform_returned_iff (config : GlobalCircuitBreakerConfig α) (h : Untripped s)
    (c : Instant × Call α) :
    (perform config c false s).Returned ↔
      c.2 ≠ .manualReset adminKey ∧
      (∀ pnl e start, c.2 = .recordTrade pnl e start → ¬ DividesByZero (recorded s c)) ∧
      ∀ figure, c.2.Checks figure → ¬ Figure.Past config (recorded s c) figure := by
  obtain ⟨now, c⟩ := c
  cases c with
  | recordTrade pnl currentEquity startingEquity =>
    simp [perform, -Guarded.bind_apply, recordTrade_returned_iff config h, Call.Checks]
  | recordFailure =>
    simp [perform, -Guarded.bind_apply, recordFailure_returned_iff, Call.Checks]
  | manualStop =>
    obtain ⟨s', h_stop, -⟩ := manualStop_untripped h now
    simp [perform, h_stop, Call.Checks]
  | manualReset key =>
    by_cases h_key : key = adminKey
    · subst h_key
      simp [perform, manualReset_adminKey]
    · simp [perform, manualReset_of_ne h_key, h_key, Call.Checks]
  | canTrade => simp [perform, canTrade_untripped h, Call.Checks]
  | getStatus => simp [perform, getStatus, Call.Checks]

theorem perform_records (config : GlobalCircuitBreakerConfig α) (h : Untripped s)
    {c : Instant × Call α} (h_records : c.2.Records)
    (h_returned : (perform config c false s).Returned) :
    (perform config c false s).state = recorded s c := by
  obtain ⟨now, c⟩ := c
  cases c with
  | recordTrade pnl currentEquity startingEquity =>
    have h_returned : (recordTrade config now pnl currentEquity startingEquity false s).Returned :=
      (Outcome.bind_pure_returned _ _ _ _).mp h_returned
    exact (Outcome.bind_pure_state _ _ _ _).trans (recordTrade_of_returned config h h_returned)
  | recordFailure =>
    exact (Outcome.bind_pure_state _ _ _ _).trans (recordFailure_state config s now)
  | manualStop => exact h_records.elim
  | manualReset key => exact h_records.elim
  | canTrade => exact h_records.elim
  | getStatus => exact h_records.elim

omit [Amount α] in
theorem Call.Checks.records {c : Call α} {figure : Figure} (h : c.Checks figure) : c.Records := by
  cases c <;> trivial

/-! ## Sequences of calls -/

/-- The calls of a sequence on a fresh breaker. -/
abbrev session (config : GlobalCircuitBreakerConfig α) (calls : List (Instant × Call α)) :
    List (CallEvent α) :=
  trace (perform config) .initial calls

theorem initial_untripped : Untripped (Breaker.initial : Breaker α) :=
  ⟨.inl rfl, rfl⟩

theorem session_untripped (config : GlobalCircuitBreakerConfig α)
    (calls : List (Instant × Call α)) : ∀ e ∈ session config calls, Untripped e.before :=
  trace_invariant (I := Untripped) (fun _ c h => perform_untripped config h c)
    initial_untripped calls

theorem refuses_of_stopped (config : GlobalCircuitBreakerConfig α) (h : Untripped s)
    (h_state : s.state = .manualStop) (calls : List (Instant × Call α)) :
    ∀ e ∈ trace (perform config) s calls, Refuses e := by
  have h_invariant : ∀ e ∈ trace (perform config) s calls,
      Untripped e.before ∧ e.before.state = .manualStop := by
    refine trace_invariant (I := fun s => Untripped s ∧ s.state = .manualStop)
      (fun s c h_s => ?_) ⟨h, h_state⟩ calls
    refine ⟨perform_untripped config h_s.1 c, ?_⟩
    obtain ⟨-, ⟨h_same, -⟩ | ⟨h_stop, -⟩⟩ := perform_state config h_s.1 c
    · exact h_same.trans h_s.2
    · exact h_stop
  intro e h_e h_call
  obtain ⟨h_before, h_stopped⟩ := h_invariant e h_e
  rw [outcome_of_mem_trace e h_e]
  obtain ⟨before, ⟨now, c⟩, outcome⟩ := e
  cases h_call
  have h_stopped : before.state = .manualStop := h_stopped
  refine ⟨before.startDay now.today, ?_⟩
  simp [perform, canTrade_untripped h_before, h_stopped]

theorem refuses_after (config : GlobalCircuitBreakerConfig α) {calls : List (Instant × Call α)}
    {pre post : List (CallEvent α)} {e : CallEvent α} (h : session config calls = pre ++ e :: post)
    (h_state : e.outcome.state.state = .manualStop) : ∀ e' ∈ post, Refuses e' := by
  have h_mem : e ∈ session config calls := by
    rw [h]
    exact List.mem_append_right _ List.mem_cons_self
  obtain ⟨rest, rfl⟩ := trace_after h
  refine refuses_of_stopped config ?_ h_state rest
  rw [outcome_of_mem_trace e h_mem]
  exact perform_untripped config (session_untripped config calls e h_mem) e.call

/-- The breaker protects the capital over a sequence of calls exactly when no call of it
    leaves a figure past its threshold, divides by zero or resets by hand: the calls that
    should trip or reset the breaker are the ones that never return. -/
theorem protects_iff (config : GlobalCircuitBreakerConfig α) (calls : List (Instant × Call α)) :
    Protects config (session config calls) ↔
      ∀ e ∈ session config calls, Unhindered config e.before e.call := by
  constructor
  · intro h e h_e
    have h_before := session_untripped config calls e h_e
    have h_outcome := outcome_of_mem_trace e h_e
    have h_returned := h.returns e h_e
    rw [h_outcome] at h_returned
    obtain ⟨h_reset, h_divides, h_checks⟩ :=
      (perform_returned_iff config h_before e.call).mp h_returned
    refine ⟨h_reset, h_divides, fun h_records figure h_figure h_past => ?_⟩
    obtain h_figure | h_normal := h_figure
    · exact h_checks figure h_figure h_past
    · -- a figure past its threshold would have to open the breaker
      obtain ⟨pre, post, h_split⟩ := List.append_of_mem h_e
      have h_state := perform_records config h_before h_records h_returned
      rw [← h_outcome] at h_state
      refine (h.trips pre e post h_split h_records figure (h_state ▸ h_past)).1 ?_
      rw [h_state, recorded_state]
      exact h_normal
  · intro h
    have h_mem : ∀ pre e post, session config calls = pre ++ e :: post →
        e ∈ session config calls := by
      intro pre e post h_split
      rw [h_split]
      exact List.mem_append_right _ List.mem_cons_self
    have h_returns : ∀ e ∈ session config calls, e.outcome.Returned := by
      intro e h_e
      rw [outcome_of_mem_trace e h_e]
      refine (perform_returned_iff config (session_untripped config calls e h_e) e.call).mpr ?_
      exact ⟨(h e h_e).notReset, (h e h_e).divides, fun figure h_checks =>
        (h e h_e).within h_checks.records figure (.inl h_checks)⟩
    refine ⟨h_returns, ?_, ?_⟩
    · intro pre e post h_split h_records figure h_past
      have h_e := h_mem pre e post h_split
      have h_before := session_untripped config calls e h_e
      have h_returned := h_returns e h_e
      have h_state : e.outcome.state = recorded e.before e.call := by
        rw [outcome_of_mem_trace e h_e] at h_returned ⊢
        exact perform_records config h_before h_records h_returned
      have h_stopped : e.outcome.state.state = .manualStop := by
        rw [h_state, recorded_state]
        refine h_before.state.resolve_left fun h_normal => ?_
        exact (h e h_e).within h_records figure (.inr h_normal) (h_state ▸ h_past)
      refine ⟨by simp [h_stopped], fun e' h_e' _ => ?_⟩
      exact refuses_after config h_split h_stopped e' h_e'
    · intro pre e mid e' post h_split h_stop _
      have h_e := h_mem pre e _ h_split
      refine refuses_after config h_split ?_ e' (by simp)
      rw [outcome_of_mem_trace e h_e]
      obtain ⟨-, ⟨-, h_ne⟩ | ⟨h_stopped, -⟩⟩ :=
        perform_state config (session_untripped config calls e h_e) e.call
      · exact absurd h_stop h_ne
      · exact h_stopped

end Breaker

/-- A sequence of calls as the breaker is called: at times that do not decrease, with
    positive equities, and resets that carry the key. -/
structure WellFormed (calls : List (Instant × Call ℚ)) : Prop where
  times : calls.Pairwise fun c d => c.1.time ≤ d.1.time
  equities : ∀ now pnl e start, (now, Call.recordTrade pnl e start) ∈ calls →
    0 < e ∧ ∀ e₀ ∈ start, 0 < e₀
  keys : ∀ now key, (now, Call.manualReset key) ∈ calls → key = adminKey

/-- One trade that loses six percent of the day's equity. -/
def losingTrade : List (Instant × Call ℚ) :=
  [(⟨0, "2024-01-01"⟩, .recordTrade (-600) 9400 (some 10000))]

/-- The trade that should trip the breaker never returns. -/
theorem losingTrade_not_protected :
    ¬ ∀ calls, WellFormed calls → Protects .default (session .default calls) := by
  intro h
  have h_wellFormed : WellFormed losingTrade := by
    refine ⟨by simp [losingTrade], ?_, by simp [losingTrade]⟩
    intro now pnl e start h_mem
    simp only [losingTrade, List.mem_singleton, Prod.mk.injEq, Call.recordTrade.injEq] at h_mem
    obtain ⟨-, -, rfl, rfl⟩ := h_mem
    norm_num
  have h_returns := (h losingTrade h_wellFormed).returns
  revert h_returns
  decide +kernel

end VyomQuant.CircuitBreaker
