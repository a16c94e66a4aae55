/-
  VyomQuant.Execution.ProtectedCalls

  The circuit breaker of an exchange and the calls that it protects: a call is admitted or
  rejected when it starts, and its end is reported when it returns or raises.  A cancelled
  call reports nothing.

  A half-open period is begun by a call that takes none of its places, so it admits one call
  more than its bound; any success that is reported in it counts, whenever its call was
  admitted; and cancelled calls keep their places.  In the runs where none of the three
  makes a difference each period keeps to its bound, only its own calls close it, and every
  state without calls in flight recovers (`disciplined_of_throughout`).
-/

import VyomQuant.Lib.Run
import Mathlib.Algebra.Order.Ring.Rat
import Mathlib.Logic.Function.Iterate
import Mathlib.Tactic.NormNum

namespace VyomQuant.ProtectedCalls

inductive CircuitState where
  | closed
  | open
  | halfOpen
  deriving DecidableEq

structure CircuitBreakerConfig where
  failureThreshold : ℕ := 5
  successThreshold : ℕ := 3
  timeoutSeconds : ℚ := 60
  halfOpenMaxCalls : ℕ := 3
  latencyThresholdMs : ℚ := 5000

structure CircuitBreaker where
  config : CircuitBreakerConfig
  state : CircuitState
  failureCount : ℕ
  successCount : ℕ
  lastFailureTime : Option ℚ
  lastStateChange : ℚ
  halfOpenCalls : ℕ
  totalCalls : ℕ
  totalSuccesses : ℕ
  totalFailures : ℕ
  totalRejected : ℕ
  recentLatencies : List ℚ

def MAX_LATENCY_SAMPLES : ℕ := 100

namespace CircuitBreaker

def new (config : CircuitBreakerConfig) (now : ℚ) : CircuitBreaker where
  config := config
  state := .closed
  failureCount := 0
  successCount := 0
  lastFailureTime := none
  lastStateChange := now
  halfOpenCalls := 0
  totalCalls := 0
  totalSuccesses := 0
  totalFailures := 0
  totalRejected := 0
  recentLatencies := []

/-- `_transition_to`, without the alert that is sent when the circuit opens. -/
def transitionTo (b : CircuitBreaker) (newState : CircuitState) (now : ℚ) : CircuitBreaker :=
  { b with
    state := newState
    lastStateChange := now
    failureCount := if newState = .closed then 0 else b.failureCount
    successCount := if newState = .open then b.successCount else 0
    halfOpenCalls := if newState = .open then b.halfOpenCalls else 0 }

def allowRequest (b : CircuitBreaker) (now : ℚ) : Bool × CircuitBreaker :=
  match b.state with
  | .closed => (true, b)
  | .open =>
    -- A reading of zero counts as none.
    match b.lastFailureTime.filter (· ≠ 0) with
    | some failed =>
      if b.config.timeoutSeconds ≤ now - failed then (true, b.transitionTo .halfOpen now)
      else (false, b)
    | none => (false, b)
  | .halfOpen =>
    if b.halfOpenCalls < b.config.halfOpenMaxCalls then
      (true, { b with halfOpenCalls := b.halfOpenCalls + 1 })
    else (false, b)

/-- The latency samples with one more, the oldest dropped beyond the bound. -/
def sample (latencies : List ℚ) (latencyMs : ℚ) : List ℚ :=
  if latencyMs = 0 then latencies
  else if MAX_LATENCY_SAMPLES < (latencies ++ [latencyMs]).length then
    (latencies ++ [latencyMs]).tail
  else latencies ++ [latencyMs]

def recordSuccess (b : CircuitBreaker) (latencyMs now : ℚ) : CircuitBreaker :=
  let b := { b with
    totalCalls := b.totalCalls + 1
    totalSuccesses := b.totalSuccesses + 1
    recentLatencies := sample b.recentLatencies latencyMs }
  if b.state = .halfOpen then
    let b := { b with successCount := b.successCount + 1 }
    if b.config.successThreshold ≤ b.successCount then b.transitionTo .closed now else b
  else b

def recordFailure (b : CircuitBreaker) (latencyMs now : ℚ) : CircuitBreaker :=
  let b := { b with
    totalCalls := b.totalCalls + 1
    totalFailures := b.totalFailures + 1
    failureCount := b.failureCount + 1
    lastFailureTime := some now
    recentLatencies := sample b.recentLatencies latencyMs }
  if b.config.failureThreshold ≤ b.failureCount ∧ b.state ≠ .open then b.transitionTo .open now
  else b

def recordRejection (b : CircuitBreaker) : CircuitBreaker :=
  { b with totalRejected := b.totalRejected + 1 }

end CircuitBreaker

/-! ## Calls in flight -/

/-- An admitted call that has not ended, with the period that admitted it. -/
structure InFlight where
  id : ℕ
  startTime : ℚ
  period : ℕ

/-- The breaker with the calls in flight.  The last three fields only keep count: the changes
    of state so far, and the calls admitted and the calls cancelled since the last one. -/
structure System where
  breaker : CircuitBreaker
  inFlight : List InFlight
  period : ℕ
  admitted : ℕ
  cancelled : ℕ

/-- What may happen next.  `now` is the reading of the breaker's clock and the other reading
    that of the wrapper. -/
inductive Event where
  | call (id : ℕ) (now startTime : ℚ)
  | returned (id : ℕ) (endTime now : ℚ)
  | raised (id : ℕ) (endTime now : ℚ)
  | cancelled (id : ℕ)

namespace System

def initial (config : CircuitBreakerConfig) (now : ℚ) : System :=
  ⟨.new config now, [], 0, 0, 0⟩

/-- Take over a breaker; a change of state begins a period. -/
def enter (s : System) (b : CircuitBreaker) : System :=
  if b.state = s.breaker.state then { s with breaker := b }
  else { s with
    breaker := b
    period := s.period + 1
    admitted := 0
    cancelled := 0 }

def call (s : System) (id : ℕ) (now startTime : ℚ) : System :=
  if (s.breaker.allowRequest now).1 then
    let s := s.enter (s.breaker.allowRequest now).2
    { s with
      inFlight := ⟨id, startTime, s.period⟩ :: s.inFlight
      admitted := s.admitted + 1 }
  else s.enter (s.breaker.allowRequest now).2.recordRejection

/-- The latency of a call in milliseconds. -/
def latencyMs (c : InFlight) (endTime : ℚ) : ℚ := (endTime - c.startTime) * 1000

/-- The end of a call that returns: a slow one is a failure. -/
def returned (s : System) (c : InFlight) (endTime now : ℚ) : System :=
  let s := { s with inFlight := s.inFlight.eraseP (·.id = c.id) }
  if s.breaker.config.latencyThresholdMs < latencyMs c endTime then
    s.enter (s.breaker.recordFailure (latencyMs c endTime) now)
  else s.enter (s.breaker.recordSuccess (latencyMs c endTime) now)

/-- The end of a call that raises an `Exception`. -/
def raised (s : System) (c : InFlight) (endTime now : ℚ) : System :=
  let s := { s with inFlight := s.inFlight.eraseP (·.id = c.id) }
  s.enter (s.breaker.recordFailure (latencyMs c endTime) now)

/-- A cancelled call: `CancelledError` is no `Exception`, so nothing is reported. -/
def cancel (s : System) (c : InFlight) : System :=
  { s with
    inFlight := s.inFlight.eraseP (·.id = c.id)
    cancelled := if c.period = s.period then s.cancelled + 1 else s.cancelled }

def inFlight? (s : System) (id : ℕ) : Option InFlight := s.inFlight.find? (·.id = id)

/-- One event.  A call starts under a fresh id, and only a call in flight ends. -/
def step (s : System) : Event → System
  | .call id now startTime =>
    if (s.inFlight? id).isSome then s else s.call id now startTime
  | .returned id endTime now =>
    match s.inFlight? id with
    | some c => s.returned c endTime now
    | none => s
  | .raised id endTime now =>
    match s.inFlight? id with
    | some c => s.raised c endTime now
    | none => s
  | .cancelled id =>
    match s.inFlight? id with
    | some c => s.cancel c
    | none => s

end System

/-! ## What the breaker does -/

namespace CircuitBreaker

variable {b : CircuitBreaker} {now : ℚ} (latencyMs : ℚ)

theorem allowRequest_closed (h : b.state = .closed) : b.allowRequest now = (true, b) := by
  unfold allowRequest
  rw [h]

theorem allowRequest_halfOpen (h : b.state = .halfOpen) :
    b.allowRequest now =
      if b.halfOpenCalls < b.config.halfOpenMaxCalls then
        (true, { b with halfOpenCalls := b.halfOpenCalls + 1 })
      else (false, b) := by
  unfold allowRequest
  rw [h]

/-- A request to an open circuit is rejected, or the timeout has passed and it begins a
    half-open period. -/
theorem allowRequest_open (h : b.state = .open) :
    b.allowRequest now = (false, b) ∨ b.allowRequest now = (true, b.transitionTo .halfOpen now) := by
  unfold allowRequest
  rw [h]
  dsimp only
  split
  · split
    · exact Or.inr rfl
    · exact Or.inl rfl
  · exact Or.inl rfl

theorem allowRequest_open_of_timeout {t : ℚ} (h : b.state = .open)
    (h_failed : b.lastFailureTime = some t) (h_ne : t ≠ 0)
    (h_now : t + b.config.timeoutSeconds ≤ now) :
    b.allowRequest now = (true, b.transitionTo .halfOpen now) := by
  unfold allowRequest
  rw [h, h_failed]
  have h_elapsed : b.config.timeoutSeconds ≤ now - t := le_sub_iff_add_le'.mpr h_now
  simp [Option.filter, h_ne, h_elapsed]

@[simp] theorem allowRequest_config : (b.allowRequest now).2.config = b.config := by
  unfold allowRequest
  repeat' split
  all_goals rfl

@[simp] theorem recordSuccess_config :
    (b.recordSuccess latencyMs now).config = b.config := by
  unfold recordSuccess
  dsimp only
  repeat' split
  all_goals rfl

@[simp] theorem recordFailure_config :
    (b.recordFailure latencyMs now).config = b.config := by
  unfold recordFailure
  dsimp only
  split <;> rfl

theorem recordSuccess_of_ne (h : b.state ≠ .halfOpen) :
    (b.recordSuccess latencyMs now).state = b.state ∧
      (b.recordSuccess latencyMs now).failureCount = b.failureCount ∧
      (b.recordSuccess latencyMs now).lastFailureTime = b.lastFailureTime := by
  unfold recordSuccess
  simp [h]

theorem recordSuccess_halfOpen (h : b.state = .halfOpen) :
    if b.config.successThreshold ≤ b.successCount + 1 then
      (b.recordSuccess latencyMs now).state = .closed
    else (b.recordSuccess latencyMs now).state = .halfOpen ∧
      (b.recordSuccess latencyMs now).successCount = b.successCount + 1 ∧
      (b.recordSuccess latencyMs now).halfOpenCalls = b.halfOpenCalls ∧
      (b.recordSuccess latencyMs now).failureCount = b.failureCount := by
  unfold recordSuccess
  simp only [h, if_true]
  split
  · rfl
  · exact ⟨rfl, rfl, rfl, rfl⟩

theorem recordFailure_open (h : b.config.failureThreshold ≤ b.failureCount + 1) :
    (b.recordFailure latencyMs now).state = .open ∧
      (b.recordFailure latencyMs now).failureCount = b.failureCount + 1 ∧
      (b.recordFailure latencyMs now).lastFailureTime = some now := by
  unfold recordFailure
  by_cases h_state : b.state = .open
  · simp [h_state]
  · simp only [h, h_state, true_and, ne_eq, not_false_eq_true, if_true]
    exact ⟨rfl, rfl, rfl⟩

theorem recordFailure_below (h : b.failureCount + 1 < b.config.failureThreshold) :
    (b.recordFailure latencyMs now).state = b.state := by
  unfold recordFailure
  simp [Nat.not_le.mpr h]

end CircuitBreaker

/-! ## Runs -/

abbrev transition (s : System) (e : Event) : Except Empty System := .ok (s.step e)

abbrev run (config : CircuitBreakerConfig) (start : ℚ) (events : List Event) : System :=
  Run.final transition (.initial config start) events

/-- Positive thresholds, and the successes that close the circuit fit in a half-open period. -/
structure CircuitBreakerConfig.Valid (config : CircuitBreakerConfig) : Prop where
  failureThreshold : 0 < config.failureThreshold
  successThreshold : 0 < config.successThreshold
  timeoutSeconds : 0 < config.timeoutSeconds
  halfOpenMaxCalls : 0 < config.halfOpenMaxCalls
  latencyThresholdMs : 0 < config.latencyThresholdMs
  successes_fit : config.successThreshold ≤ config.halfOpenMaxCalls

/-- The end of the call counts towards closing the circuit. -/
def CountsTowardsClosing (s : System) (c : InFlight) : Event → Prop
  | .returned id endTime _ =>
    s.inFlight? id = some c ∧ s.breaker.state = .halfOpen ∧
      System.latencyMs c endTime ≤ s.breaker.config.latencyThresholdMs
  | _ => False

/-- A protected call that returns at once. -/
def successfulCall (now : ℚ) (s : System) : System :=
  (s.step (.call 0 now now)).step (.returned 0 now now)

/-- Some number of successful calls, made when the timeout has passed, closes the circuit. -/
def Recoverable (s : System) : Prop :=
  ∃ n : ℕ, ∀ now, (∀ t ∈ s.breaker.lastFailureTime, t + s.breaker.config.timeoutSeconds ≤ now) →
    ((successfulCall now)^[n] s).breaker.state = .closed

structure Disciplined (config : CircuitBreakerConfig) (start : ℚ) (events : List Event) :
    Prop where
  /-- A half-open period keeps to its bound. -/
  bounded : ∀ pre, pre <+: events → (run config start pre).breaker.state = .halfOpen →
    (run config start pre).admitted ≤ config.halfOpenMaxCalls
  /-- Only calls that the period admitted count. -/
  own : ∀ pre e post, events = pre ++ e :: post →
    ∀ c, CountsTowardsClosing (run config start pre) c e →
      c.period = (run config start pre).period
  /-- Without calls in flight there is a way to close the circuit. -/
  recovers : ∀ pre, pre <+: events → (run config start pre).inFlight = [] →
    Recoverable (run config start pre)

/-- Where the defects are not reached: no call asks for the last place of a half-open period,
    no call of another period succeeds in it, its cancelled calls leave places enough to
    close it, and no failure is read at time zero. -/
def Admits (s : System) : Event → Prop
  | .call id _ _ => s.inFlight? id = none → s.breaker.state = .halfOpen →
    s.breaker.halfOpenCalls + 1 < s.breaker.config.halfOpenMaxCalls
  | .returned id endTime now => ∀ c ∈ s.inFlight? id,
    if s.breaker.config.latencyThresholdMs < System.latencyMs c endTime then now ≠ 0
    else s.breaker.state = .halfOpen → c.period = s.period
  | .raised id _ now => (s.inFlight? id).isSome → now ≠ 0
  | .cancelled id => ∀ c ∈ s.inFlight? id, s.breaker.state = .halfOpen → c.period = s.period →
    s.cancelled + s.breaker.config.successThreshold ≤ s.breaker.config.halfOpenMaxCalls

/-! ## Recovery -/

@[simp] theorem enter_breaker (s : System) (b : CircuitBreaker) : (s.enter b).breaker = b := by
  unfold System.enter
  split <;> rfl

@[simp] theorem enter_inFlight (s : System) (b : CircuitBreaker) :
    (s.enter b).inFlight = s.inFlight := by
  unfold System.enter
  split <;> rfl

section Recovery

variable {s : System} {now : ℚ}

theorem successfulCall_of_allowed (h_flight : s.inFlight = [])
    (h_latency : 0 < s.breaker.config.latencyThresholdMs)
    (h_allowed : (s.breaker.allowRequest now).1 = true) :
    (successfulCall now s).inFlight = [] ∧
      (successfulCall now s).breaker = (s.breaker.allowRequest now).2.recordSuccess 0 now := by
  obtain ⟨period, admitted, h_call⟩ : ∃ period admitted, s.step (.call 0 now now) =
      { s.enter (s.breaker.allowRequest now).2 with
        inFlight := [⟨0, now, period⟩]
        admitted := admitted } := by
    have h_fresh : (s.inFlight? 0).isSome = false := by simp [System.inFlight?, h_flight]
    have h_empty : (s.enter (s.breaker.allowRequest now).2).inFlight = [] := by
      rw [enter_inFlight, h_flight]
    refine ⟨(s.enter (s.breaker.allowRequest now).2).period,
      (s.enter (s.breaker.allowRequest now).2).admitted + 1, ?_⟩
    simp only [System.step, h_fresh, Bool.false_eq_true, if_false, System.call, h_allowed, if_true,
      h_empty]
  have h_fast : ¬ (s.breaker.allowRequest now).2.config.latencyThresholdMs <
      System.latencyMs ⟨0, now, period⟩ now := by
    simp [System.latencyMs, h_latency.le]
  unfold successfulCall
  rw [h_call]
  simp only [System.step, System.inFlight?, List.find?_cons_of_pos, decide_true, System.returned,
    enter_breaker, h_fast, if_false, enter_inFlight]
  simp [System.latencyMs]

theorem successfulCall_halfOpen (h_flight : s.inFlight = [])
    (h_latency : 0 < s.breaker.config.latencyThresholdMs)
    (h_state : s.breaker.state = .halfOpen)
    (h_place : s.breaker.halfOpenCalls < s.breaker.config.halfOpenMaxCalls) :
    if s.breaker.config.successThreshold ≤ s.breaker.successCount + 1 then
      (successfulCall now s).breaker.state = .closed
    else (successfulCall now s).breaker.state = .halfOpen ∧
      (successfulCall now s).breaker.successCount = s.breaker.successCount + 1 ∧
      (successfulCall now s).breaker.halfOpenCalls = s.breaker.halfOpenCalls + 1 := by
  have h_allow := @CircuitBreaker.allowRequest_halfOpen s.breaker now h_state
  rw [if_pos h_place] at h_allow
  obtain ⟨-, h_breaker⟩ := successfulCall_of_allowed h_flight h_latency (by rw [h_allow])
  rw [h_breaker, h_allow]
  have h_success := @CircuitBreaker.recordSuccess_halfOpen
    { s.breaker with halfOpenCalls := s.breaker.halfOpenCalls + 1 } now 0 h_state
  dsimp only at h_success
  split
  · rename_i h_enough
    rwa [if_pos h_enough] at h_success
  · rename_i h_more
    rw [if_neg h_more] at h_success
    exact ⟨h_success.1, h_success.2.1, h_success.2.2.1⟩

theorem successfulCall_config (h_flight : s.inFlight = [])
    (h_latency : 0 < s.breaker.config.latencyThresholdMs)
    (h_allowed : (s.breaker.allowRequest now).1 = true) :
    (successfulCall now s).breaker.config = s.breaker.config := by
  rw [(successfulCall_of_allowed h_flight h_latency h_allowed).2]
  simp

theorem closes_halfOpen {k : ℕ} (h_flight : s.inFlight = [])
    (h_latency : 0 < s.breaker.config.latencyThresholdMs)
    (h_state : s.breaker.state = .halfOpen)
    (h_more : s.breaker.config.successThreshold - (s.breaker.successCount + 1) = k)
    (h_places : s.breaker.halfOpenCalls + k < s.breaker.config.halfOpenMaxCalls) :
    ((successfulCall now)^[k + 1] s).breaker.state = .closed := by
  induction k generalizing s with
  | zero =>
    have h_call := @successfulCall_halfOpen s now h_flight h_latency h_state h_places
    rwa [if_pos (Nat.sub_eq_zero_iff_le.mp h_more)] at h_call
  | succ k ih =>
    have h_place : s.breaker.halfOpenCalls < s.breaker.config.halfOpenMaxCalls := by omega
    have h_call := @successfulCall_halfOpen s now h_flight h_latency h_state h_place
    rw [if_neg (by omega)] at h_call
    obtain ⟨h_state', h_count, h_calls⟩ := h_call
    have h_allowed : (s.breaker.allowRequest now).1 = true := by
      rw [CircuitBreaker.allowRequest_halfOpen h_state, if_pos h_place]
    have h_config := successfulCall_config h_flight h_latency h_allowed
    rw [Function.iterate_succ_apply]
    refine ih (successfulCall_of_allowed h_flight h_latency h_allowed).1 ?_ h_state' ?_ ?_
    · rw [h_config]
      exact h_latency
    · rw [h_config, h_count]
      omega
    · rw [h_config, h_calls]
      omega

/-- An open circuit closes when the timeout has passed: the first call begins a half-open
    period, and the others take its places. -/
theorem recoverable_open {t : ℚ} (h_valid : s.breaker.config.Valid) (h_flight : s.inFlight = [])
    (h_state : s.breaker.state = .open) (h_failed : s.breaker.lastFailureTime = some t)
    (h_ne : t ≠ 0) : Recoverable s := by
  refine ⟨(s.breaker.config.successThreshold - 1) + 1, fun now h_now => ?_⟩
  have h_timeout : t + s.breaker.config.timeoutSeconds ≤ now := h_now t h_failed
  have h_allow := CircuitBreaker.allowRequest_open_of_timeout h_state h_failed h_ne h_timeout
  have h_allowed : (s.breaker.allowRequest now).1 = true := by rw [h_allow]
  obtain ⟨h_flight', h_breaker⟩ :=
    successfulCall_of_allowed h_flight h_valid.latencyThresholdMs h_allowed
  have h_config := successfulCall_config h_flight h_valid.latencyThresholdMs h_allowed
  have h_success := @CircuitBreaker.recordSuccess_halfOpen
    (s.breaker.transitionTo .halfOpen now) now 0 rfl
  have h_begun : (s.breaker.transitionTo .halfOpen now).config = s.breaker.config ∧
      (s.breaker.transitionTo .halfOpen now).successCount = 0 ∧
      (s.breaker.transitionTo .halfOpen now).halfOpenCalls = 0 := ⟨rfl, rfl, rfl⟩
  rw [h_begun.1, h_begun.2.1, h_begun.2.2] at h_success
  rw [h_allow] at h_breaker
  rw [← h_breaker] at h_success
  have h_fit := h_valid.successes_fit
  have h_pos := h_valid.successThreshold
  rw [Function.iterate_succ_apply]
  by_cases h_one : s.breaker.config.successThreshold ≤ 0 + 1
  · rw [if_pos h_one] at h_success
    have h_last : s.breaker.config.successThreshold - 1 = 0 := by omega
    rw [h_last]
    exact h_success
  · rw [if_neg h_one] at h_success
    obtain ⟨h_state', h_count, h_calls, -⟩ := h_success
    obtain ⟨k, h_k⟩ : ∃ k, s.breaker.config.successThreshold - 1 = k + 1 :=
      ⟨s.breaker.config.successThreshold - 2, by omega⟩
    rw [h_k]
    refine closes_halfOpen h_flight' ?_ h_state' ?_ ?_
    · rw [h_config]
      exact h_valid.latencyThresholdMs
    · rw [h_config, h_count]
      omega
    · rw [h_config, h_calls]
      omega

/-- A half-open period without calls in flight closes when its places and its successes are
    enough together. -/
theorem recoverable_halfOpen (h_valid : s.breaker.config.Valid) (h_flight : s.inFlight = [])
    (h_state : s.breaker.state = .halfOpen)
    (h_place : s.breaker.halfOpenCalls < s.breaker.config.halfOpenMaxCalls)
    (h_enough : s.breaker.config.successThreshold + s.breaker.halfOpenCalls ≤
      s.breaker.successCount + s.breaker.config.halfOpenMaxCalls) : Recoverable s := by
  refine ⟨(s.breaker.config.successThreshold - (s.breaker.successCount + 1)) + 1,
    fun now _ => ?_⟩
  exact closes_halfOpen h_flight h_valid.latencyThresholdMs h_state rfl (by omega)

/-- A half-open period without places and without calls in flight that has too few successes
    stays as it is, whatever is called. -/
theorem halfOpen_wedged (h_flight : s.inFlight = []) (h_state : s.breaker.state = .halfOpen)
    (h_full : s.breaker.config.halfOpenMaxCalls ≤ s.breaker.halfOpenCalls) (e : Event) :
    (s.step e).inFlight = [] ∧ (s.step e).breaker.state = .halfOpen ∧
      (s.step e).breaker.config = s.breaker.config ∧
      (s.step e).breaker.halfOpenCalls = s.breaker.halfOpenCalls := by
  have h_none : ∀ id, s.inFlight? id = none := by simp [System.inFlight?, h_flight]
  cases e with
  | call id now startTime =>
    have h_allow : s.breaker.allowRequest now = (false, s.breaker) := by
      rw [CircuitBreaker.allowRequest_halfOpen h_state, if_neg (Nat.not_lt.mpr h_full)]
    have h_same : s.breaker.recordRejection.state = s.breaker.state := rfl
    simp only [System.step, h_none, Option.isSome_none, Bool.false_eq_true, if_false,
      System.call, h_allow, enter_inFlight, enter_breaker, h_same]
    exact ⟨h_flight, h_state, rfl, rfl⟩
  | _ => simp [System.step, h_none, h_flight, h_state]

theorem not_recoverable_of_wedged (h_flight : s.inFlight = [])
    (h_state : s.breaker.state = .halfOpen)
    (h_full : s.breaker.config.halfOpenMaxCalls ≤ s.breaker.halfOpenCalls) : ¬ Recoverable s := by
  rintro ⟨n, h_closes⟩
  let now := s.breaker.lastFailureTime.getD 0 + s.breaker.config.timeoutSeconds
  have h_closed := h_closes now fun t h_t => by
    show t + _ ≤ s.breaker.lastFailureTime.getD 0 + _
    rw [Option.mem_def.mp h_t]
    exact le_rfl
  have h_stays : ∀ n, ((successfulCall now)^[n] s).inFlight = [] ∧
      ((successfulCall now)^[n] s).breaker.state = .halfOpen ∧
      ((successfulCall now)^[n] s).breaker.config.halfOpenMaxCalls ≤
        ((successfulCall now)^[n] s).breaker.halfOpenCalls := by
    intro n
    induction n with
    | zero => exact ⟨h_flight, h_state, h_full⟩
    | succ n ih =>
      rw [Function.iterate_succ_apply']
      obtain ⟨h_flight', h_state', h_config', h_calls'⟩ :=
        halfOpen_wedged ih.1 ih.2.1 ih.2.2 (.call 0 now now)
      obtain ⟨h_flight'', h_state'', h_config'', h_calls''⟩ := halfOpen_wedged h_flight' h_state'
        (by rw [h_config', h_calls']; exact ih.2.2) (.returned 0 now now)
      refine ⟨h_flight'', h_state'', ?_⟩
      have h_full' := ih.2.2
      rw [← h_config', ← h_calls', ← h_config'', ← h_calls''] at h_full'
      exact h_full'
  rw [(h_stays n).2.1] at h_closed
  cases h_closed

end Recovery

/-! ## The invariant -/

/-- How many of the calls in flight the present period admitted. -/
def System.ownInFlight (s : System) : ℕ := s.inFlight.countP (·.period = s.period)

/-- The books of a half-open period: every call that it admitted is in flight, succeeded or
    was cancelled. -/
structure Books (config : CircuitBreakerConfig) (s : System) : Prop where
  admitted : s.admitted = s.breaker.halfOpenCalls + 1
  bound : s.admitted ≤ config.halfOpenMaxCalls
  counted : s.breaker.successCount + s.cancelled + s.ownInFlight = s.admitted
  cancelled : s.cancelled + config.successThreshold ≤ config.halfOpenMaxCalls + 1

structure Inv (config : CircuitBreakerConfig) (s : System) : Prop where
  sameConfig : s.breaker.config = config
  failed : s.breaker.state = .open → ∃ t, s.breaker.lastFailureTime = some t ∧ t ≠ 0
  failures : s.breaker.state ≠ .closed → config.failureThreshold ≤ s.breaker.failureCount
  periods : ∀ c ∈ s.inFlight, c.period ≤ s.period
  halfOpen : s.breaker.state = .halfOpen → Books config s

theorem inFlight?_split {s : System} {id : ℕ} {c : InFlight} (h : s.inFlight? id = some c) :
    ∃ before after, s.inFlight = before ++ c :: after ∧
      s.inFlight.eraseP (·.id = c.id) = before ++ after := by
  obtain ⟨h_id, before, after, h_split, h_before⟩ := List.find?_eq_some_iff_append.mp h
  have h_id : c.id = id := by simpa using h_id
  refine ⟨before, after, h_split, ?_⟩
  rw [h_split, List.eraseP_append_right _ (by simpa [h_id] using h_before),
    List.eraseP_cons_of_pos (by simp)]

section Step

variable {config : CircuitBreakerConfig} {s : System} {c : InFlight}

theorem Inv.ends (h : Inv config s) {id : ℕ} (h_c : s.inFlight? id = some c) :
    (∀ d ∈ s.inFlight.eraseP (·.id = c.id), d.period ≤ s.period) ∧
      (s.inFlight.eraseP (·.id = c.id)).countP (·.period = s.period) +
        (if c.period = s.period then 1 else 0) = s.ownInFlight := by
  obtain ⟨before, after, h_split, h_erased⟩ := inFlight?_split h_c
  rw [h_erased, System.ownInFlight, h_split]
  constructor
  · intro d h_d
    refine h.periods d ?_
    rw [h_split]
    rcases List.mem_append.mp h_d with h_d | h_d
    · exact List.mem_append_left _ h_d
    · exact List.mem_append_right _ (List.mem_cons_of_mem _ h_d)
  · rw [List.countP_append, List.countP_append, List.countP_cons]
    simp only [decide_eq_true_eq]
    omega

theorem period_le_enter (s : System) (b : CircuitBreaker) : s.period ≤ (s.enter b).period := by
  unfold System.enter
  split
  · exact le_rfl
  · exact Nat.le_succ _

theorem inv_of_closed (h_config : s.breaker.config = config)
    (h_periods : ∀ d ∈ s.inFlight, d.period ≤ s.period) (h_state : s.breaker.state = .closed) :
    Inv config s where
  sameConfig := h_config
  failed := fun h => by rw [h_state] at h; cases h
  failures := fun h => absurd h_state h
  periods := h_periods
  halfOpen := fun h => by rw [h_state] at h; cases h

theorem inv_of_open (h_config : s.breaker.config = config)
    (h_periods : ∀ d ∈ s.inFlight, d.period ≤ s.period) (h_state : s.breaker.state = .open)
    {t : ℚ} (h_failed : s.breaker.lastFailureTime = some t) (h_ne : t ≠ 0)
    (h_failures : config.failureThreshold ≤ s.breaker.failureCount) : Inv config s where
  sameConfig := h_config
  failed := fun _ => ⟨t, h_failed, h_ne⟩
  failures := fun _ => h_failures
  periods := h_periods
  halfOpen := fun h => by rw [h_state] at h; cases h

/-- A failure that is read at another time than zero keeps the invariant: it opens the
    circuit, or leaves it closed. -/
theorem Inv.recordFailure (h : Inv config s) {flight : List InFlight}
    (h_flight : ∀ d ∈ flight, d.period ≤ s.period) (latencyMs : ℚ) {now : ℚ} (h_now : now ≠ 0) :
    Inv config (({ s with inFlight := flight } : System).enter
      (s.breaker.recordFailure latencyMs now)) := by
  have h_periods : ∀ d ∈ (({ s with inFlight := flight } : System).enter
      (s.breaker.recordFailure latencyMs now)).inFlight, d.period ≤
        (({ s with inFlight := flight } : System).enter
          (s.breaker.recordFailure latencyMs now)).period := by
    intro d h_d
    rw [enter_inFlight] at h_d
    have h_le := period_le_enter ({ s with inFlight := flight } : System)
      (s.breaker.recordFailure latencyMs now)
    exact (h_flight d h_d).trans h_le
  have h_config : (s.breaker.recordFailure latencyMs now).config = config := by
    rw [CircuitBreaker.recordFailure_config, h.sameConfig]
  by_cases h_count : s.breaker.config.failureThreshold ≤ s.breaker.failureCount + 1
  · obtain ⟨h_state, h_failures, h_failed⟩ :=
      @CircuitBreaker.recordFailure_open s.breaker now latencyMs h_count
    rw [h.sameConfig] at h_count
    refine inv_of_open (by rw [enter_breaker, h_config]) h_periods (by rw [enter_breaker, h_state])
      (by rw [enter_breaker, h_failed]) h_now ?_
    rw [enter_breaker, h_failures]
    exact h_count
  · have h_below := Nat.lt_of_not_le h_count
    have h_closed : s.breaker.state = .closed := by
      by_contra h_ne
      have h_failures := h.failures h_ne
      rw [h.sameConfig] at h_below
      omega
    refine inv_of_closed (by rw [enter_breaker, h_config]) h_periods ?_
    rw [enter_breaker, CircuitBreaker.recordFailure_below _ h_below, h_closed]

/-- A success of a call keeps the invariant when in a half-open period it is one of its own. -/
theorem Inv.recordSuccess (h : Inv config s) {id : ℕ} (h_c : s.inFlight? id = some c)
    (latencyMs now : ℚ) (h_own : s.breaker.state = .halfOpen → c.period = s.period) :
    Inv config (({ s with inFlight := s.inFlight.eraseP (·.id = c.id) } : System).enter
      (s.breaker.recordSuccess latencyMs now)) := by
  obtain ⟨h_flight, h_count⟩ := h.ends h_c
  have h_config : (s.breaker.recordSuccess latencyMs now).config = config := by
    rw [CircuitBreaker.recordSuccess_config, h.sameConfig]
  have h_periods : ∀ d ∈ (({ s with
      inFlight := s.inFlight.eraseP (·.id = c.id) } : System).enter
        (s.breaker.recordSuccess latencyMs now)).inFlight, d.period ≤
        (({ s with inFlight := s.inFlight.eraseP (·.id = c.id) } : System).enter
          (s.breaker.recordSuccess latencyMs now)).period := by
    intro d h_d
    rw [enter_inFlight] at h_d
    have h_le := period_le_enter
      ({ s with inFlight := s.inFlight.eraseP (·.id = c.id) } : System)
      (s.breaker.recordSuccess latencyMs now)
    exact (h_flight d h_d).trans h_le
  by_cases h_half : s.breaker.state = .halfOpen
  · have h_success := @CircuitBreaker.recordSuccess_halfOpen s.breaker now latencyMs h_half
    split at h_success
    · exact inv_of_closed (by rw [enter_breaker, h_config]) h_periods
        (by rw [enter_breaker, h_success])
    · obtain ⟨h_state, h_successes, h_calls, h_failures⟩ := h_success
      have h_books := h.halfOpen h_half
      have h_enter : ({ s with inFlight := s.inFlight.eraseP (·.id = c.id) } : System).enter
          (s.breaker.recordSuccess latencyMs now) = { s with
            breaker := s.breaker.recordSuccess latencyMs now
            inFlight := s.inFlight.eraseP (·.id = c.id) } := by
        unfold System.enter
        rw [if_pos (by rw [h_state, h_half])]
      rw [if_pos (h_own h_half)] at h_count
      rw [h_enter] at h_periods ⊢
      refine ⟨h_config, fun h_open => ?_, fun _ => ?_, h_periods, fun _ => ?_⟩
      · rw [h_state] at h_open
        cases h_open
      · rw [h_failures]
        exact h.failures (by rw [h_half]; exact fun h_eq => by cases h_eq)
      · refine ⟨?_, h_books.bound, ?_, h_books.cancelled⟩
        · rw [h_calls]
          exact h_books.admitted
        · have h_counted := h_books.counted
          rw [h_successes]
          unfold System.ownInFlight at *
          dsimp only
          omega
  · obtain ⟨h_state, h_failures, h_failed⟩ :=
      @CircuitBreaker.recordSuccess_of_ne s.breaker now latencyMs h_half
    refine ⟨by rw [enter_breaker, h_config], ?_, ?_, h_periods, ?_⟩
    · rw [enter_breaker, h_state, h_failed]
      exact h.failed
    · rw [enter_breaker, h_state, h_failures]
      exact h.failures
    · rw [enter_breaker, h_state]
      exact fun h_eq => absurd h_eq h_half

theorem Inv.cancel (h : Inv config s) {id : ℕ} (h_c : s.inFlight? id = some c)
    (h_room : s.breaker.state = .halfOpen → c.period = s.period →
      s.cancelled + config.successThreshold ≤ config.halfOpenMaxCalls) :
    Inv config (s.cancel c) := by
  obtain ⟨h_flight, h_count⟩ := h.ends h_c
  refine ⟨h.sameConfig, h.failed, h.failures, h_flight, fun h_half => ?_⟩
  have h_books := h.halfOpen h_half
  have h_counted := h_books.counted
  have h_cancelled := h_books.cancelled
  refine ⟨h_books.admitted, h_books.bound, ?_, ?_⟩
  · unfold System.ownInFlight System.cancel at *
    dsimp only
    split_ifs at h_count ⊢ <;> omega
  · unfold System.cancel
    dsimp only
    split
    · rename_i h_own
      have := h_room h_half h_own
      omega
    · exact h_cancelled

/-- A call that starts keeps the invariant when it leaves the last place of a half-open
    period alone. -/
theorem Inv.call (h : Inv config s) (h_valid : config.Valid) (id : ℕ) (now startTime : ℚ)
    (h_place : s.breaker.state = .halfOpen →
      s.breaker.halfOpenCalls + 1 < config.halfOpenMaxCalls) :
    Inv config (s.call id now startTime) := by
  cases h_state : s.breaker.state with
  | closed =>
    have h_call : s.call id now startTime = { s with
        inFlight := ⟨id, startTime, s.period⟩ :: s.inFlight
        admitted := s.admitted + 1 } := by
      simp [System.call, CircuitBreaker.allowRequest_closed h_state, System.enter]
    rw [h_call]
    refine inv_of_closed h.sameConfig ?_ h_state
    intro d h_d
    rcases List.mem_cons.mp h_d with rfl | h_d
    · exact le_rfl
    · exact h.periods d h_d
  | «open» =>
    rcases @CircuitBreaker.allowRequest_open s.breaker now h_state with h_allow | h_allow
    · have h_call : s.call id now startTime =
          { s with breaker := s.breaker.recordRejection } := by
        have h_same : s.breaker.recordRejection.state = s.breaker.state := rfl
        simp [System.call, h_allow, System.enter, h_same]
      obtain ⟨t, h_failed, h_ne⟩ := h.failed h_state
      have h_failures := h.failures (by rw [h_state]; exact fun h_eq => by cases h_eq)
      rw [h_call]
      exact inv_of_open h.sameConfig h.periods h_state h_failed h_ne h_failures
    · have h_call : s.call id now startTime =
          { breaker := s.breaker.transitionTo .halfOpen now
            inFlight := ⟨id, startTime, s.period + 1⟩ :: s.inFlight
            period := s.period + 1
            admitted := 1
            cancelled := 0 } := by
        have h_begins : (s.breaker.transitionTo .halfOpen now).state ≠ s.breaker.state := by
          rw [h_state]
          exact fun h_eq => by cases h_eq
        simp [System.call, h_allow, System.enter, h_begins]
      have h_pos := h_valid.halfOpenMaxCalls
      have h_fit := h_valid.successes_fit
      have h_old : s.inFlight.countP (fun d => d.period = s.period + 1) = 0 := by
        rw [List.countP_eq_zero]
        intro d h_d
        have := h.periods d h_d
        simp only [decide_eq_true_eq]
        omega
      rw [h_call]
      refine ⟨h.sameConfig, fun h_eq => (by cases h_eq), fun _ => ?_, ?_,
        fun _ => ⟨rfl, h_pos, ?_, ?_⟩⟩
      · exact h.failures (by rw [h_state]; exact fun h_eq => by cases h_eq)
      · intro d h_d
        rcases List.mem_cons.mp h_d with rfl | h_d
        · exact le_rfl
        · exact (h.periods d h_d).trans (Nat.le_succ _)
      · rw [System.ownInFlight, List.countP_cons, h_old]
        simp [CircuitBreaker.transitionTo]
      · dsimp only
        omega
  | halfOpen =>
    have h_room := h_place h_state
    have h_books := h.halfOpen h_state
    have h_admitted := h_books.admitted
    have h_counted := h_books.counted
    have h_call : s.call id now startTime = { s with
        breaker := { s.breaker with halfOpenCalls := s.breaker.halfOpenCalls + 1 }
        inFlight := ⟨id, startTime, s.period⟩ :: s.inFlight
        admitted := s.admitted + 1 } := by
      have h_some : s.breaker.halfOpenCalls < s.breaker.config.halfOpenMaxCalls := by
        rw [h.sameConfig]
        omega
      simp [System.call, CircuitBreaker.allowRequest_halfOpen h_state, h_some, System.enter]
    rw [h_call]
    refine ⟨h.sameConfig, h.failed, h.failures, ?_, fun _ => ⟨?_, ?_, ?_, h_books.cancelled⟩⟩
    · intro d h_d
      rcases List.mem_cons.mp h_d with rfl | h_d
      · exact le_rfl
      · exact h.periods d h_d
    · dsimp only
      omega
    · dsimp only
      omega
    · unfold System.ownInFlight at *
      rw [List.countP_cons_of_pos (by simp)]
      dsimp only
      omega

theorem inv_step (h : Inv config s) (h_valid : config.Valid) {e : Event} (h_admits : Admits s e) :
    Inv config (s.step e) := by
  cases e with
  | call id now startTime =>
    show Inv config (if (s.inFlight? id).isSome then s else s.call id now startTime)
    split
    · exact h
    · rename_i h_fresh
      refine h.call h_valid id now startTime fun h_half => ?_
      have h_place := h_admits (by simpa using h_fresh) h_half
      rwa [h.sameConfig] at h_place
  | returned id endTime now =>
    cases h_c : s.inFlight? id with
    | none => simpa [System.step, h_c] using h
    | some c =>
      have h_rule := h_admits c h_c
      simp only [System.step, h_c, System.returned]
      split
      · rename_i h_slow
        rw [if_pos h_slow] at h_rule
        exact h.recordFailure (h.ends h_c).1 _ h_rule
      · rename_i h_fast
        rw [if_neg h_fast] at h_rule
        exact h.recordSuccess h_c _ _ h_rule
  | raised id endTime now =>
    cases h_c : s.inFlight? id with
    | none => simpa [System.step, h_c] using h
    | some c =>
      simp only [System.step, h_c, System.raised]
      exact h.recordFailure (h.ends h_c).1 _ (h_admits (by rw [h_c]; rfl))
  | cancelled id =>
    cases h_c : s.inFlight? id with
    | none => simpa [System.step, h_c] using h
    | some c =>
      simp only [System.step, h_c]
      refine h.cancel h_c fun h_half h_own => ?_
      have h_room := h_admits c h_c h_half h_own
      rwa [h.sameConfig] at h_room

end Step

/-! ## Whole runs -/

theorem inv_run {config : CircuitBreakerConfig} (h_valid : config.Valid) (start : ℚ)
    {events : List Event}
    (h_admits : Run.Throughout transition Admits (.initial config start) events) :
    Inv config (run config start events) := by
  refine Run.final_invariant_of_throughout ?_ ?_ h_admits
  · intro s e s' h h_e h_step
    cases h_step
    exact inv_step h h_valid h_e
  · exact inv_of_closed rfl (fun d h_d => absurd h_d List.not_mem_nil) rfl

theorem Inv.recoverable {config : CircuitBreakerConfig} {s : System} (h : Inv config s)
    (h_valid : config.Valid) (h_flight : s.inFlight = []) : Recoverable s := by
  have h_valid' : s.breaker.config.Valid := by rw [h.sameConfig]; exact h_valid
  cases h_state : s.breaker.state with
  | closed => exact ⟨0, fun _ _ => h_state⟩
  | «open» =>
    obtain ⟨t, h_failed, h_ne⟩ := h.failed h_state
    exact recoverable_open h_valid' h_flight h_state h_failed h_ne
  | halfOpen =>
    obtain ⟨h_admitted, h_bound, h_counted, h_cancelled⟩ := h.halfOpen h_state
    have h_none : s.ownInFlight = 0 := by rw [System.ownInFlight, h_flight]; rfl
    rw [h_none] at h_counted
    refine recoverable_halfOpen h_valid' h_flight h_state ?_ ?_ <;> rw [h.sameConfig] <;> omega

/-- Where none of the three defects is reached, whatever the interleaving and the clock: each
    half-open period keeps to its bound, only its own calls close it, and every state without
    calls in flight recovers. -/
theorem disciplined_of_throughout {config : CircuitBreakerConfig} (h_valid : config.Valid)
    {start : ℚ} {events : List Event}
    (h_admits : Run.Throughout transition Admits (.initial config start) events) :
    Disciplined config start events where
  bounded := by
    rintro pre ⟨rest, rfl⟩ h_half
    exact ((inv_run h_valid start h_admits.of_prefix).halfOpen h_half).bound
  own := by
    intro pre e post h_events c h_counts
    have h_rule := h_admits pre e post h_events
    cases e with
    | returned id endTime now =>
      obtain ⟨h_c, h_half, h_fast⟩ := h_counts
      have h_own := h_rule c h_c
      rw [if_neg (not_lt.mpr h_fast)] at h_own
      exact h_own h_half
    | _ => exact absurd h_counts not_false
  recovers := by
    rintro pre ⟨rest, rfl⟩ h_flight
    exact (inv_run h_valid start h_admits.of_prefix).recoverable h_valid h_flight

/-- One failure opens, one success closes, and one call is to be let through in between. -/
def single : CircuitBreakerConfig where
  failureThreshold := 1
  successThreshold := 1
  halfOpenMaxCalls := 1

theorem single_valid : single.Valid := by
  constructor <;> norm_num [single]

theorem disciplined_of_throughout_sample :
    Disciplined single 0 [.call 0 1 1, .raised 0 2 2, .call 1 62 62, .returned 1 63 63] := by
  refine disciplined_of_throughout single_valid ?_
  simp only [Run.throughout_cons, Run.throughout_nil, and_true]
  refine ⟨?_, ?_, ?_, ?_⟩
  · exact fun _ h_half => absurd h_half (by decide +kernel)
  · exact fun _ => by norm_num
  · exact fun _ h_half => absurd h_half (by decide +kernel)
  · intro c h_c
    have h_call : ((run single 0 [.call 0 1 1, .raised 0 2 2, .call 1 62 62]).inFlight? 1).map
        (fun c => (c.startTime, c.period)) = some (62, 2) := by decide +kernel
    have h_period : (run single 0 [.call 0 1 1, .raised 0 2 2, .call 1 62 62]).period = 2 := by
      decide +kernel
    have h_threshold : (run single 0 [.call 0 1 1, .raised 0 2 2,
        .call 1 62 62]).breaker.config.latencyThresholdMs = 5000 := by decide +kernel
    have h_some : (run single 0 [.call 0 1 1, .raised 0 2 2, .call 1 62 62]).inFlight? 1 =
        some c := h_c
    rw [h_some, Option.map_some, Option.some.injEq, Prod.mk.injEq] at h_call
    have h_fast : ¬ (run single 0 [.call 0 1 1, .raised 0 2 2,
        .call 1 62 62]).breaker.config.latencyThresholdMs < System.latencyMs c 63 := by
      rw [h_threshold, System.latencyMs, h_call.1]
      norm_num
    show if (run single 0 [.call 0 1 1, .raised 0 2 2,
        .call 1 62 62]).breaker.config.latencyThresholdMs < System.latencyMs c 63 then _ else _
    rw [if_neg h_fast]
    exact fun _ => h_call.2.trans h_period.symm

/-- Two calls are admitted where one is to be, and when both are cancelled the circuit is
    half-open for good. -/
theorem disciplined_divergence :
    ¬ Disciplined single 0 [.call 0 1 1, .raised 0 2 2, .call 1 62 62, .call 2 62 62] ∧
    ¬ Recoverable (run single 0 [.call 0 1 1, .raised 0 2 2, .call 1 62 62, .call 2 62 62,
      .cancelled 1, .cancelled 2]) := by
  constructor
  · intro h
    have h_state : (run single 0 [.call 0 1 1, .raised 0 2 2, .call 1 62 62,
        .call 2 62 62]).breaker.state = .halfOpen := by decide +kernel
    have h_admitted : (run single 0 [.call 0 1 1, .raised 0 2 2, .call 1 62 62,
        .call 2 62 62]).admitted = 2 := by decide +kernel
    have h_bound := h.bounded _ (List.prefix_refl _) h_state
    rw [h_admitted] at h_bound
    exact absurd h_bound (by decide)
  · refine not_recoverable_of_wedged ?_ (by decide +kernel) (by decide +kernel)
    exact List.length_eq_zero_iff.mp (by decide +kernel)

end VyomQuant.ProtectedCalls
