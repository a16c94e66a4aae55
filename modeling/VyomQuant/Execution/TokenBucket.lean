/-
  VyomQuant.Execution.TokenBucket

  The token bucket of an exchange (`AsyncTokenBucket` in `core/exchange_rate_limiter.py`).  No
  method waits inside the lock, so each is one step: a call takes a token or joins the queue,
  a call gives up, and the background task refills the bucket and serves the queue.

  A call that gives up leaves its request in the queue, which takes a token when its turn
  comes.  What any part of a run takes is at most a full bucket and what was refilled
  (`taken_within`), and nothing is served before a waiting request of a higher priority
  (`never_overtaken`).
-/

import Mathlib.Algebra.Order.Field.Rat
import Mathlib.Data.List.Sort
import Mathlib.Tactic.Linarith

namespace VyomQuant.RateLimiter

/-- `RequestPriority`. -/
inductive RequestPriority where
  | EXECUTION
  | MARKET_DATA
  | BACKGROUND

def RequestPriority.value : RequestPriority → ℕ
  | .EXECUTION => 1
  | .MARKET_DATA => 2
  | .BACKGROUND => 3

/-- `ExchangeRequest`, by the call that waits for its future. -/
structure ExchangeRequest where
  id : ℕ
  priority : RequestPriority

/-- `request.__lt__(other)` is false. -/
def ExchangeRequest.NotAfter (request other : ExchangeRequest) : Prop :=
  request.priority.value ≤ other.priority.value

/-- `asyncio.PriorityQueue`; which of two requests of one priority is first is left open. -/
structure PriorityQueue where
  getNowait : List ExchangeRequest → Option (ExchangeRequest × List ExchangeRequest)
  empty : ∀ queue, getNowait queue = none → queue = []
  least : ∀ queue request rest, getNowait queue = some (request, rest) →
    queue.Perm (request :: rest) ∧ ∀ other ∈ rest, request.NotAfter other

/-- What a bucket is created with, and the sum of two floats as it rounds it. -/
structure Limits where
  capacity : ℚ
  /-- `refill_rate * refill_interval`. -/
  tokensPerInterval : ℚ
  sum : ℚ → ℚ → ℚ

structure AsyncTokenBucket where
  tokens : ℚ
  /-- `_request_queue`. -/
  queue : List ExchangeRequest
  /-- The calls whose futures are cancelled. -/
  gaveUp : List ℕ
  /-- The requests that took a token, each with whether its call was still waiting. -/
  taken : List (ExchangeRequest × Bool)

namespace AsyncTokenBucket

/-- `AsyncTokenBucket(capacity, refill_rate)`. -/
def new (limits : Limits) : AsyncTokenBucket :=
  { tokens := limits.capacity, queue := [], gaveUp := [], taken := [] }

/-- `acquire`, up to its wait. -/
def acquire (b : AsyncTokenBucket) (request : ExchangeRequest) : AsyncTokenBucket :=
  if 1 ≤ b.tokens then { b with tokens := b.tokens - 1, taken := b.taken ++ [(request, true)] }
  else { b with queue := b.queue ++ [request] }

/-- The wait of a call ends without a token; its request stays in the queue. -/
def timeout (b : AsyncTokenBucket) (id : ℕ) : AsyncTokenBucket :=
  if id ∈ b.queue.map ExchangeRequest.id then { b with gaveUp := id :: b.gaveUp } else b

def resolve (b : AsyncTokenBucket) (request : ExchangeRequest) (rest : List ExchangeRequest) :
    AsyncTokenBucket :=
  { b with
    tokens := b.tokens - 1
    queue := rest
    taken := b.taken ++ [(request, decide (request.id ∉ b.gaveUp))] }

/-- `_process_waiting_requests`, for as many rounds as there are requests. -/
def processWaiting (pq : PriorityQueue) : ℕ → AsyncTokenBucket → AsyncTokenBucket
  | 0, b => b
  | rounds + 1, b =>
    if 1 ≤ b.tokens then
      match pq.getNowait b.queue with
      | none => b
      | some (request, rest) => processWaiting pq rounds (b.resolve request rest)
    else b

/-- The locked part of `_background_refill`. -/
def refill (limits : Limits) (b : AsyncTokenBucket) : AsyncTokenBucket :=
  if b.tokens < limits.capacity then
    { b with tokens := min limits.capacity (limits.sum b.tokens limits.tokensPerInterval) }
  else b

end AsyncTokenBucket

open AsyncTokenBucket (processWaiting)

inductive Event where
  | acquire (request : ExchangeRequest)
  | timeout (id : ℕ)
  /-- A round of `_background_refill`. -/
  | tick

def step (limits : Limits) (pq : PriorityQueue) (b : AsyncTokenBucket) : Event → AsyncTokenBucket
  | .acquire request => b.acquire request
  | .timeout id => b.timeout id
  | .tick => processWaiting pq (b.refill limits).queue.length (b.refill limits)

def run (limits : Limits) (pq : PriorityQueue) : AsyncTokenBucket → List Event → AsyncTokenBucket :=
  List.foldl (step limits pq)

def arrived : Event → List ExchangeRequest
  | .acquire request => [request]
  | .timeout _ => []
  | .tick => []

def ticks (events : List Event) : ℕ := events.countP fun event => event matches .tick

/-! ## One step -/

/-- Sums of what a bucket may hold are not negative, and too large by `δ` at most. -/
structure Limits.Rounds (limits : Limits) (δ : ℚ) : Prop where
  capacity : 0 ≤ limits.capacity
  error : 0 ≤ limits.tokensPerInterval + δ
  sum : ∀ tokens, 0 ≤ tokens → tokens < limits.capacity →
    0 ≤ limits.sum tokens limits.tokensPerInterval ∧
      limits.sum tokens limits.tokensPerInterval ≤ tokens + limits.tokensPerInterval + δ

/-- A bucket between two steps: where a request waits, there is no token for it. -/
structure AsyncTokenBucket.Settled (limits : Limits) (b : AsyncTokenBucket) : Prop where
  nonneg : 0 ≤ b.tokens
  le : b.tokens ≤ limits.capacity
  waiting : b.queue ≠ [] → b.tokens < 1

/-- `served` took a token each, in the order of their priorities and before all that still wait. -/
structure Serves (b b' : AsyncTokenBucket) (came : List ExchangeRequest)
    (served : List (ExchangeRequest × Bool)) : Prop where
  taken : b'.taken = b.taken ++ served
  queue : (b.queue ++ came).Perm (served.map Prod.fst ++ b'.queue)
  ordered : (served.map Prod.fst).Pairwise ExchangeRequest.NotAfter
  first : ∀ request ∈ served.map Prod.fst, ∀ other ∈ b'.queue, request.NotAfter other

variable {limits : Limits} {pq : PriorityQueue} {b : AsyncTokenBucket} {δ : ℚ}

theorem serves_nil : Serves b b [] [] :=
  ⟨(List.append_nil _).symm, by simp, .nil, nofun⟩

theorem processWaiting_spec {rounds : ℕ} (h_rounds : b.queue.length ≤ rounds) (h : 0 ≤ b.tokens) :
    ∃ served, Serves b (processWaiting pq rounds b) [] served ∧
      (processWaiting pq rounds b).tokens + served.length = b.tokens ∧
      0 ≤ (processWaiting pq rounds b).tokens ∧
      ((processWaiting pq rounds b).queue ≠ [] → (processWaiting pq rounds b).tokens < 1) := by
  induction rounds generalizing b with
  | zero =>
    refine ⟨[], serves_nil, by simp [processWaiting], h, fun h_queue => ?_⟩
    exact absurd (List.eq_nil_of_length_eq_zero (Nat.le_zero.mp h_rounds)) h_queue
  | succ rounds ih =>
    unfold processWaiting
    split_ifs with h_token
    · split
      · rename_i h_none
        exact ⟨[], serves_nil, by simp, h, fun h_queue => absurd (pq.empty _ h_none) h_queue⟩
      · rename_i request rest h_some
        obtain ⟨h_perm, h_least⟩ := pq.least _ _ _ h_some
        have h_length := h_perm.length_eq
        rw [List.length_cons] at h_length
        have h_less : 0 ≤ (b.resolve request rest).tokens := sub_nonneg.mpr h_token
        obtain ⟨served, h_serves, h_tokens, h_rest⟩ :=
          @ih (b.resolve request rest) (by show rest.length ≤ rounds; omega) h_less
        have h_queue : rest.Perm (served.map Prod.fst ++
            (processWaiting pq rounds (b.resolve request rest)).queue) := by
          have h_all := h_serves.queue
          rw [List.append_nil] at h_all
          exact h_all
        refine ⟨(request, decide (request.id ∉ b.gaveUp)) :: served, ?_, ?_, h_rest⟩
        · refine ⟨?_, ?_, ?_, ?_⟩
          · rw [h_serves.taken]
            simp [AsyncTokenBucket.resolve]
          · rw [List.append_nil]
            exact h_perm.trans (h_queue.cons request)
          · refine List.pairwise_cons.mpr ⟨fun other h_other => ?_, h_serves.ordered⟩
            exact h_least other (h_queue.mem_iff.mpr (List.mem_append_left _ h_other))
          · rw [List.map_cons, List.forall_mem_cons]
            refine ⟨fun other h_other => ?_, h_serves.first⟩
            exact h_least other (h_queue.mem_iff.mpr (List.mem_append_right _ h_other))
        · have h_one : (b.resolve request rest).tokens = b.tokens - 1 := rfl
          rw [List.length_cons, Nat.cast_add, Nat.cast_one]
          linarith
    · exact ⟨[], serves_nil, by simp, h, fun _ => not_le.mp h_token⟩

theorem step_spec (h_limits : limits.Rounds δ) (h : b.Settled limits) (event : Event) :
    (step limits pq b event).Settled limits ∧ ∃ served,
      Serves b (step limits pq b event) (arrived event) served ∧
      (step limits pq b event).tokens + served.length
        ≤ b.tokens + ticks [event] * (limits.tokensPerInterval + δ) := by
  cases event with
  | acquire request =>
    by_cases h_token : 1 ≤ b.tokens
    · have h_step : step limits pq b (.acquire request)
          = { b with tokens := b.tokens - 1, taken := b.taken ++ [(request, true)] } := if_pos h_token
      -- a token is left only where nothing waits
      have h_empty : b.queue = [] := by
        by_contra h_queue
        exact absurd (h.waiting h_queue) (not_lt.mpr h_token)
      have h_le := h.le
      rw [h_step]
      refine ⟨⟨sub_nonneg.mpr h_token, by dsimp only; linarith, fun h_queue => absurd h_empty h_queue⟩,
        [(request, true)], ⟨rfl, by simp [arrived, h_empty], by simp, ?_⟩, by simp [ticks]⟩
      intro _ _ other h_other
      rw [h_empty] at h_other
      cases h_other
    · have h_step : step limits pq b (.acquire request) = { b with queue := b.queue ++ [request] } :=
        if_neg h_token
      rw [h_step]
      exact ⟨⟨h.nonneg, h.le, fun _ => not_le.mp h_token⟩, [],
        ⟨(List.append_nil _).symm, .refl _, .nil, nofun⟩, by simp [ticks]⟩
  | timeout id =>
    obtain ⟨gaveUp, h_step⟩ : ∃ gaveUp, step limits pq b (.timeout id) = { b with gaveUp := gaveUp } := by
      by_cases h_waits : id ∈ b.queue.map ExchangeRequest.id
      · exact ⟨_, if_pos h_waits⟩
      · exact ⟨b.gaveUp, if_neg h_waits⟩
    rw [h_step]
    exact ⟨⟨h.nonneg, h.le, h.waiting⟩, [],
      ⟨(List.append_nil _).symm, by simp [arrived], .nil, nofun⟩, by simp [ticks]⟩
  | tick =>
    have h_refill : 0 ≤ (b.refill limits).tokens ∧ (b.refill limits).tokens ≤ limits.capacity ∧
        (b.refill limits).tokens ≤ b.tokens + (limits.tokensPerInterval + δ) ∧
        (b.refill limits).queue = b.queue ∧ (b.refill limits).taken = b.taken := by
      have h_error := h_limits.error
      unfold AsyncTokenBucket.refill
      split_ifs with h_less
      · obtain ⟨h_nonneg, h_sum⟩ := h_limits.sum b.tokens h.nonneg h_less
        refine ⟨le_min h_limits.capacity h_nonneg, min_le_left .., ?_, rfl, rfl⟩
        exact (min_le_right ..).trans (by linarith)
      · exact ⟨h.nonneg, h.le, by linarith, rfl, rfl⟩
    obtain ⟨h_nonneg, h_le, h_more, h_queue, h_taken⟩ := h_refill
    obtain ⟨served, h_serves, h_tokens, h_left, h_waiting⟩ := @processWaiting_spec pq _ _ le_rfl h_nonneg
    have h_length : (0 : ℚ) ≤ served.length := Nat.cast_nonneg _
    refine ⟨⟨h_left, ?_, h_waiting⟩, served,
      ⟨h_taken ▸ h_serves.taken, h_queue ▸ h_serves.queue, h_serves.ordered, h_serves.first⟩, ?_⟩
    · show (processWaiting pq (b.refill limits).queue.length (b.refill limits)).tokens ≤ _
      linarith
    · show (processWaiting pq (b.refill limits).queue.length (b.refill limits)).tokens + _ ≤ _
      rw [h_tokens]
      simpa [ticks] using h_more

/-! ## Runs -/

theorem settled_new (h_limits : limits.Rounds δ) : (AsyncTokenBucket.new limits).Settled limits :=
  ⟨h_limits.capacity, le_rfl, fun h_queue => absurd rfl h_queue⟩

theorem run_spec (h_limits : limits.Rounds δ) (h : b.Settled limits) (events : List Event) :
    (run limits pq b events).Settled limits ∧ ∃ taken,
      (run limits pq b events).taken = b.taken ++ taken ∧
      (b.queue ++ events.flatMap arrived).Perm (taken.map Prod.fst ++ (run limits pq b events).queue) ∧
      (run limits pq b events).tokens + taken.length
        ≤ b.tokens + ticks events * (limits.tokensPerInterval + δ) := by
  induction events generalizing b with
  | nil => exact ⟨h, [], (List.append_nil _).symm, by simp [run], by simp [run, ticks]⟩
  | cons event rest ih =>
    obtain ⟨h_settled, served, h_serves, h_spent⟩ := @step_spec limits pq b δ h_limits h event
    obtain ⟨h_end, taken, h_taken, h_queue, h_more⟩ := ih h_settled
    refine ⟨h_end, served ++ taken, ?_, ?_, ?_⟩
    · rw [← List.append_assoc, ← h_serves.taken]
      exact h_taken
    · have h_first := h_serves.queue.append_right (rest.flatMap arrived)
      rw [List.append_assoc, List.append_assoc] at h_first
      rw [List.flatMap_cons, List.map_append, List.append_assoc]
      exact h_first.trans (h_queue.append_left _)
    · have h_ticks : (ticks (event :: rest) : ℚ) = ticks [event] + ticks rest := by
        rw [ticks, ← List.singleton_append, List.countP_append, Nat.cast_add]
        rfl
      rw [h_ticks, List.length_append, Nat.cast_add, add_mul]
      have h_run : run limits pq b (event :: rest) = run limits pq (step limits pq b event) rest := rfl
      rw [h_run]
      linarith

/-- Every request that came took one token or still waits, and any part of a run takes at most
    a full bucket and what is refilled meanwhile. -/
theorem taken_within (h_limits : limits.Rounds δ) (pq : PriorityQueue) (before during : List Event) :
    ((before ++ during).flatMap arrived).Perm
      ((run limits pq (.new limits) (before ++ during)).taken.map Prod.fst ++
        (run limits pq (.new limits) (before ++ during)).queue) ∧
    ∃ taken, (run limits pq (.new limits) (before ++ during)).taken
        = (run limits pq (.new limits) before).taken ++ taken ∧
      (taken.length : ℚ)
        ≤ limits.capacity + ticks during * (limits.tokensPerInterval + δ) := by
  obtain ⟨-, all, h_all, h_queue, -⟩ :=
    @run_spec limits pq _ δ h_limits (settled_new h_limits) (before ++ during)
  obtain ⟨h_start, -⟩ := @run_spec limits pq _ δ h_limits (settled_new h_limits) before
  obtain ⟨h_stop, taken, h_taken, -, h_spent⟩ := @run_spec limits pq _ δ h_limits h_start during
  have h_run : run limits pq (.new limits) (before ++ during)
      = run limits pq (run limits pq (.new limits) before) during := List.foldl_append
  refine ⟨?_, taken, by rw [h_run, h_taken], ?_⟩
  · rw [h_all]
    exact h_queue
  · have h_le := h_start.le
    have h_nonneg := h_stop.nonneg
    linarith

/-- Whatever happened before, a step serves requests in the order of their priorities, and none
    before one of a higher priority that is left waiting. -/
theorem never_overtaken (h_limits : limits.Rounds δ) (pq : PriorityQueue) (events : List Event)
    (event : Event) :
    (run limits pq (.new limits) events).Settled limits ∧ ∃ served,
      Serves (run limits pq (.new limits) events) (run limits pq (.new limits) (events ++ [event]))
        (arrived event) served := by
  obtain ⟨h_settled, -⟩ := @run_spec limits pq _ δ h_limits (settled_new h_limits) events
  obtain ⟨-, served, h_serves, -⟩ := @step_spec limits pq _ δ h_limits h_settled event
  have h_run : run limits pq (.new limits) (events ++ [event])
      = step limits pq (run limits pq (.new limits) events) event := List.foldl_concat ..
  exact ⟨h_settled, served, h_run ▸ h_serves⟩

/-- Requests of one priority in the order of their arrival. -/
def sortedQueue : PriorityQueue where
  getNowait queue :=
    match queue.insertionSort fun request other => request.priority.value ≤ other.priority.value with
    | [] => none
    | request :: rest => some (request, rest)
  empty queue h := by
    split at h
    · rename_i h_sorted
      exact List.perm_nil.mp (h_sorted ▸ (List.perm_insertionSort _ queue).symm)
    · cases h
  least queue request rest h := by
    split at h
    · cases h
    · rename_i h_sorted
      cases h
      have h_pairs := List.pairwise_insertionSort
        (fun request other : ExchangeRequest => request.priority.value ≤ other.priority.value) queue
      rw [h_sorted] at h_pairs
      exact ⟨h_sorted ▸ (List.perm_insertionSort _ queue).symm, (List.pairwise_cons.mp h_pairs).1⟩

/-- The bucket of an exchange that takes a call a second, without rounding. -/
def oneASecond : Limits := { capacity := 1, tokensPerInterval := 1 / 10, sum := (· + ·) }

theorem rounds_oneASecond : oneASecond.Rounds 0 :=
  ⟨zero_le_one, by norm_num [oneASecond], fun tokens h _ => by
    simp only [oneASecond]
    constructor <;> linarith⟩

theorem taken_within_oneASecond :
    ∃ taken, (run oneASecond sortedQueue (.new oneASecond)
        [.acquire ⟨1, .BACKGROUND⟩, .acquire ⟨2, .MARKET_DATA⟩, .acquire ⟨3, .EXECUTION⟩, .tick]).taken
          = [] ++ taken ∧ (taken.length : ℚ) ≤ 1 + (1 : ℕ) * (1 / 10 + 0) :=
  (taken_within rounds_oneASecond sortedQueue [] [.acquire ⟨1, .BACKGROUND⟩,
    .acquire ⟨2, .MARKET_DATA⟩, .acquire ⟨3, .EXECUTION⟩, .tick]).2

theorem never_overtaken_oneASecond :
    ∃ served, Serves (run oneASecond sortedQueue (.new oneASecond) [.acquire ⟨1, .BACKGROUND⟩])
      (run oneASecond sortedQueue (.new oneASecond) [.acquire ⟨1, .BACKGROUND⟩, .tick]) [] served :=
  (never_overtaken rounds_oneASecond sortedQueue [.acquire ⟨1, .BACKGROUND⟩] .tick).2

end VyomQuant.RateLimiter
