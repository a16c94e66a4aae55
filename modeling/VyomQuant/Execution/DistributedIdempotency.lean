/-
  VyomQuant.Execution.DistributedIdempotency

  The idempotency layer (`core/distributed_idempotency.py`), for the calls of one key on any
  number of pods.

  A call takes a lock that expires, executes its operation, and replaces the lock by the
  result.  Between those commands anything may happen: other calls, time, and a Redis that
  loses a command or its answer.  Once an operation has succeeded none is executed again
  within its window (`lawful_of_timely`), as long as no lock expires under its owner and
  every result is stored.  The layer sees to neither: a store that fails is not noticed, and
  the lock is not renewed.
-/

import Mathlib.Data.Int.Notation
import VyomQuant.Lib.Expiring
import VyomQuant.Lib.Run

namespace VyomQuant.Idempotency

variable {R : Type}

/-! ## The calls of a key -/

/-- Of `DistributedIdempotencyLayer`, in milliseconds. -/
def processingTtl : ℕ := 60 * 1000

def defaultResultTtl : ℕ := 3600

def maxRetryAttempts : ℕ := 10

def retryDelay : ℕ := 500

/-- `_resolve_result_ttl`, in seconds. -/
def resolveResultTtl : Option ℤ → Option ℕ
  | none => some defaultResultTtl
  | some ttl => if ttl ≤ 0 then none else some ttl.toNat

/-- What the calls of the key are made with. -/
structure Settings (R : Type) where
  production : Bool
  clientOrderId : String
  resultTtl : ℕ → Option ℤ
  serializable : R → Bool

/-- What is stored under the key. -/
inductive Stored (R : Type) where
  | processing (owner : ℕ)
  | completed (result : R)

/-- Where a call of `execute_with_idempotency` stands: before its next command. -/
inductive Phase (R : Type) where
  | called
  | sleeping (attempts : ℕ) (wakesAt : ℕ)
  | acquiring (attempts : ℕ)
  | operating
  | storing (result : R)
  | releasing
  | deleting
  | returned (result : R)
  | raised

/-- A successful end of an operation. -/
structure Completion (R : Type) where
  call : ℕ
  result : R
  instant : ℕ

/-- What the callers can observe. -/
inductive Event (R : Type) where
  | began (call instant : ℕ)
  | completed (completion : Completion R)
  | returned (call : ℕ) (result : R) (instant : ℕ)

/-- The key and its calls, each with its own owner token; the history is newest first. -/
structure Sys (R : Type) where
  now : ℕ
  entry : Option (Expiring (Stored R))
  phase : ℕ → Phase R
  history : List (Event R)

namespace Sys

/-- What a read of the key finds. -/
def live (s : Sys R) : Option (Stored R) := Expiring.live s.now s.entry

def goto (s : Sys R) (call : ℕ) (phase : Phase R) : Sys R :=
  { s with phase := Function.update s.phase call phase }

@[simp] theorem goto_phase_self (s : Sys R) (call : ℕ) (phase : Phase R) :
    (s.goto call phase).phase call = phase := Function.update_self ..

theorem goto_phase_of_ne (s : Sys R) {call call' : ℕ} (phase : Phase R) (h : call' ≠ call) :
    (s.goto call phase).phase call' = s.phase call' := Function.update_of_ne h ..

/-- `SET` of the lock, with `NX`. -/
def lock (s : Sys R) (call : ℕ) : Sys R :=
  if s.live.isNone then
    { s with entry := some { value := .processing call, expiresAt := s.now + processingTtl } }
  else s

/-- The operation is begun. -/
def enter (s : Sys R) (call : ℕ) : Sys R :=
  { s.goto call .operating with history := .began call s.now :: s.history }

theorem enter_phase_self (s : Sys R) (call : ℕ) : (s.enter call).phase call = .operating :=
  Function.update_self ..

def deliver (s : Sys R) (call : ℕ) (result : R) : Sys R :=
  { s.goto call (.returned result) with history := .returned call result s.now :: s.history }

/-- The next round of the retry loop, or its end. -/
def retry (s : Sys R) (call attempts : ℕ) : Sys R :=
  s.goto call (if attempts = 0 then .raised else .sleeping attempts (s.now + retryDelay))

end Sys

/-! ## The commands of a call -/

variable (settings : Settings R)

/-- Up to `_atomic_check_and_set`. -/
def checkAndSet (call : ℕ) (command : Command) (s : Sys R) : Sys R :=
  if resolveResultTtl (settings.resultTtl call) = none ∨ settings.clientOrderId = "" then
    s.goto call .raised
  else
    match command with
    | .answered =>
      match s.live with
      | none => (s.lock call).enter call
      | some (.completed result) => s.deliver call result
      | some (.processing _) => s.retry call maxRetryAttempts
    | .lost =>
      if settings.production then s.goto call .raised else s.retry call maxRetryAttempts
    | .unanswered =>
      if settings.production then (s.lock call).goto call .raised
      else (s.lock call).retry call maxRetryAttempts

/-- `check_idempotency`: a `GET` that fails finds nothing. -/
def recheck (call attempts : ℕ) (answered : Bool) (s : Sys R) : Sys R :=
  match if answered then s.live else none with
  | some (.completed result) => s.deliver call result
  | some (.processing _) => s.retry call (attempts - 1)
  | none => s.goto call (.acquiring (attempts - 1))

/-- `start_processing`: a `SET` that fails acquires nothing. -/
def startProcessing (call attempts : ℕ) (command : Command) (s : Sys R) : Sys R :=
  match command with
  | .answered => if s.live.isNone then (s.lock call).enter call else s.retry call attempts
  | .lost => s.retry call attempts
  | .unanswered => (s.lock call).retry call attempts

/-- The operation returns or raises. -/
def finish (call : ℕ) (result : Option R) (s : Sys R) : Sys R :=
  match result with
  | some result =>
    { s.goto call (.storing result) with
      history := .completed { call := call, result := result, instant := s.now } :: s.history }
  | none => s.goto call .releasing

def window (call : ℕ) : ℕ := (resolveResultTtl (settings.resultTtl call)).getD 0 * 1000

/-- `store_result`: a `SET` that fails is not noticed. -/
def storeResult (call : ℕ) (result : R) (command : Command) (s : Sys R) : Sys R :=
  if settings.serializable result then
    if command.applied then
      Sys.deliver { s with entry := some { value := .completed result
                                           expiresAt := s.now + window settings call } } call result
    else s.deliver call result
  else if settings.production then s.goto call .releasing
  else s.deliver call result

/-- The `GET` of `release_processing_lock`. -/
def readLock (call : ℕ) (answered : Bool) (s : Sys R) : Sys R :=
  match if answered then s.live else none with
  | some (.processing owner) => s.goto call (if owner = call then .deleting else .raised)
  | _ => s.goto call .raised

/-- The `DELETE` of `release_processing_lock`, of whatever is there by now. -/
def deleteLock (call : ℕ) (command : Command) (s : Sys R) : Sys R :=
  Sys.goto (if command.applied then { s with entry := none } else s) call .raised

inductive Action (R : Type) where
  | wait (duration : ℕ)
  | checkAndSet (call : ℕ) (command : Command)
  | recheck (call : ℕ) (answered : Bool)
  | startProcessing (call : ℕ) (command : Command)
  | finish (call : ℕ) (result : Option R)
  | storeResult (call : ℕ) (command : Command)
  | readLock (call : ℕ) (answered : Bool)
  | deleteLock (call : ℕ) (command : Command)

/-- One command of one call, if it is the call's next one, or some time. -/
def step (s : Sys R) : Action R → Except Unit (Sys R)
  | .wait duration => .ok { s with now := s.now + duration }
  | .checkAndSet call command =>
    match s.phase call with
    | .called => .ok (checkAndSet settings call command s)
    | _ => .error ()
  | .recheck call answered =>
    match s.phase call with
    | .sleeping attempts wakesAt =>
      if wakesAt ≤ s.now then .ok (recheck call attempts answered s) else .error ()
    | _ => .error ()
  | .startProcessing call command =>
    match s.phase call with
    | .acquiring attempts => .ok (startProcessing call attempts command s)
    | _ => .error ()
  | .finish call result =>
    match s.phase call with
    | .operating => .ok (finish call result s)
    | _ => .error ()
  | .storeResult call command =>
    match s.phase call with
    | .storing result => .ok (storeResult settings call result command s)
    | _ => .error ()
  | .readLock call answered =>
    match s.phase call with
    | .releasing => .ok (readLock call answered s)
    | _ => .error ()
  | .deleteLock call command =>
    match s.phase call with
    | .deleting => .ok (deleteLock call command s)
    | _ => .error ()

/-- No call has been made, and the key is free. -/
def start : Sys R := { now := 0, entry := none, phase := fun _ => .called, history := [] }

/-! ## What the callers are promised -/

def Event.completion? : Event R → Option (Completion R)
  | .completed completion => some completion
  | _ => none

def completions (history : List (Event R)) : List (Completion R) :=
  history.filterMap Event.completion?

/-- No operation succeeded within the window before `instant`. -/
def Clear (instant : ℕ) (past : List (Event R)) : Prop :=
  ∀ c ∈ completions past, c.instant + window settings c.call ≤ instant

/-- No operation is begun, and none succeeds, within the window of one that succeeded; and
    a call returns the result of the last one that did. -/
def Lawful : List (Event R) → Prop
  | [] => True
  | .began _ instant :: past => Clear settings instant past ∧ Lawful past
  | .completed c :: past => Clear settings c.instant past ∧ Lawful past
  | .returned _ result _ :: past =>
    (completions past).head?.map Completion.result = some result ∧ Lawful past

/-- The call believes that it holds the lock. -/
def Phase.InFlight : Phase R → Prop
  | .operating | .storing _ | .releasing | .deleting => True
  | _ => False

/-- No lock expires under its owner, and a result is stored. -/
def Timely (s : Sys R) : Action R → Prop
  | .wait duration => ∀ call, (s.phase call).InFlight → ∀ x ∈ s.entry, s.now + duration < x.expiresAt
  | .storeResult call command =>
    command.applied ∧ ∀ result, s.phase call = .storing result → settings.serializable result
  | _ => True

/-! ## What every command preserves -/

variable {settings : Settings R} {s : Sys R} {call : ℕ}

/-- What keeps an operation from being executed again: it is about to be stored, it is
    stored, or its window is over. -/
def Guarded (settings : Settings R) (s : Sys R) (c : Completion R) : Prop :=
  s.phase c.call = .storing c.result ∨
    (∃ x, s.entry = some x ∧ x.value = .completed c.result ∧
      c.instant + window settings c.call ≤ x.expiresAt) ∨
    c.instant + window settings c.call ≤ s.now

structure Inv (settings : Settings R) (s : Sys R) : Prop where
  lawful : Lawful settings s.history
  past : ∀ c ∈ completions s.history, c.instant ≤ s.now
  held : ∀ call, (s.phase call).InFlight → s.live = some (.processing call)
  storing : ∀ call result, s.phase call = .storing result →
    (completions s.history).head?.map Completion.result = some result
  kept : ∀ result, s.live = some (.completed result) →
    (completions s.history).head?.map Completion.result = some result
  guarded : ∀ c ∈ completions s.history, Guarded settings s c

namespace Inv

theorem inFlight_storing {result : R} (h : s.phase call = .storing result) :
    (s.phase call).InFlight := by
  rw [h]
  trivial

theorem eq_of_inFlight (h : Inv settings s) {call' : ℕ} (h_call : (s.phase call).InFlight)
    (h_call' : (s.phase call').InFlight) : call' = call := by
  have h_eq := (h.held call' h_call').symm.trans (h.held call h_call)
  cases h_eq
  rfl

theorem not_inFlight (h : Inv settings s) (h_live : s.live = none) (call : ℕ) :
    ¬ (s.phase call).InFlight := by
  intro h_flight
  rw [h.held call h_flight] at h_live
  cases h_live

theorem not_completed (h : Inv settings s) (h_flight : (s.phase call).InFlight)
    {x : Expiring (Stored R)} {result : R} (h_x : s.entry = some x) :
    x.value ≠ .completed result := by
  intro h_value
  obtain ⟨y, h_y, h_lock, -⟩ := Expiring.live_eq_some_iff.mp (h.held call h_flight)
  rw [h_x] at h_y
  cases h_y
  rw [h_value] at h_lock
  cases h_lock

theorem clear (h : Inv settings s) (h_storing : ∀ call result, s.phase call ≠ .storing result)
    (h_live : ∀ result, s.live ≠ some (.completed result)) :
    Clear settings s.now s.history := by
  intro c h_c
  rcases h.guarded c h_c with h_phase | ⟨x, h_x, h_value, h_until⟩ | h_over
  · exact absurd h_phase (h_storing c.call c.result)
  · by_cases h_now : s.now < x.expiresAt
    · exact absurd (Expiring.live_eq_some_iff.mpr ⟨x, h_x, h_value, h_now⟩) (h_live c.result)
    · omega
  · exact h_over

/-- A call that had nothing to store goes on, without the lock unless it had it. -/
theorem goto (h : Inv settings s) {phase : Phase R} (h_before : ∀ result, s.phase call ≠ .storing result)
    (h_after : ∀ result, phase ≠ .storing result)
    (h_flight : phase.InFlight → (s.phase call).InFlight) : Inv settings (s.goto call phase) where
  lawful := h.lawful
  past := h.past
  held := by
    intro call' h_call'
    by_cases h_eq : call' = call
    · subst h_eq
      rw [Sys.goto_phase_self] at h_call'
      exact h.held call' (h_flight h_call')
    · rw [Sys.goto_phase_of_ne _ _ h_eq] at h_call'
      exact h.held call' h_call'
  storing := by
    intro call' result h_call'
    by_cases h_eq : call' = call
    · subst h_eq
      rw [Sys.goto_phase_self] at h_call'
      exact absurd h_call' (h_after result)
    · rw [Sys.goto_phase_of_ne _ _ h_eq] at h_call'
      exact h.storing call' result h_call'
  kept := h.kept
  guarded := by
    intro c h_c
    rcases h.guarded c h_c with h_phase | h_rest
    · refine .inl ?_
      have h_ne : c.call ≠ call := by
        intro h_eq
        exact h_before c.result (h_eq ▸ h_phase)
      rw [Sys.goto_phase_of_ne _ _ h_ne]
      exact h_phase
    · exact .inr h_rest

theorem retry (h : Inv settings s) (h_before : ∀ result, s.phase call ≠ .storing result)
    (attempts : ℕ) : Inv settings (s.retry call attempts) := by
  unfold Sys.retry
  split
  · exact h.goto h_before nofun nofun
  · exact h.goto h_before nofun nofun

theorem lock_of_live_none (h_live : s.live = none) :
    s.lock call = { s with
      entry := some { value := .processing call, expiresAt := s.now + processingTtl } } := by
  rw [Sys.lock, h_live]
  rfl

theorem live_lock (h_live : s.live = none) : (s.lock call).live = some (.processing call) := by
  rw [lock_of_live_none h_live, Sys.live, Expiring.live_some, if_pos]
  exact Nat.lt_add_of_pos_right (by decide)

theorem lock (h : Inv settings s) (call : ℕ) : Inv settings (s.lock call) := by
  cases h_live : s.live with
  | some stored =>
    have h_same : s.lock call = s := by
      rw [Sys.lock, h_live]
      rfl
    rw [h_same]
    exact h
  | none =>
    have h_clear := h.clear
      (fun call result h_phase => h.not_inFlight h_live call (inFlight_storing h_phase))
      (fun result h_eq => by rw [h_live] at h_eq; cases h_eq)
    have h_lock : (s.lock call).live = some (.processing call) := live_lock h_live
    rw [lock_of_live_none h_live] at h_lock ⊢
    exact
      { lawful := h.lawful
        past := h.past
        held := fun call' h_call' => absurd h_call' (h.not_inFlight h_live call')
        storing := h.storing
        kept := fun result h_kept => by rw [h_lock] at h_kept; cases h_kept
        guarded := fun c h_c => .inr (.inr (h_clear c h_c)) }

theorem acquire (h : Inv settings s) (h_live : s.live = none) (call : ℕ) :
    Inv settings ((s.lock call).enter call) := by
  have h_clear := h.clear
    (fun call result h_phase => h.not_inFlight h_live call (inFlight_storing h_phase))
    (fun result h_eq => by rw [h_live] at h_eq; cases h_eq)
  have h_lock : (s.lock call).live = some (.processing call) := live_lock h_live
  rw [lock_of_live_none h_live] at h_lock ⊢
  have h_other : ∀ call', call' ≠ call →
      ¬ (Function.update s.phase call Phase.operating call').InFlight := by
    intro call' h_ne
    rw [Function.update_of_ne h_ne]
    exact h.not_inFlight h_live call'
  exact
    { lawful := ⟨h_clear, h.lawful⟩
      past := h.past
      held := by
        intro call' h_call'
        have h_eq : call' = call := by
          by_contra h_ne
          exact h_other call' h_ne h_call'
        rw [h_eq]
        exact h_lock
      storing := by
        intro call' result h_call'
        by_cases h_eq : call' = call
        · rw [h_eq, Sys.enter_phase_self] at h_call'
          cases h_call'
        · exact absurd (inFlight_storing h_call') (h_other call' h_eq)
      kept := fun result h_kept => by cases h_lock.symm.trans h_kept
      guarded := fun c h_c => .inr (.inr (h_clear c h_c)) }

theorem deliver (h : Inv settings s) {result : R}
    (h_before : ∀ result, s.phase call ≠ .storing result)
    (h_last : (completions s.history).head?.map Completion.result = some result) :
    Inv settings (s.deliver call result) := by
  have h_goto : Inv settings (s.goto call (.returned result)) := h.goto h_before nofun nofun
  exact
    { lawful := ⟨h_last, h.lawful⟩
      past := h_goto.past
      held := h_goto.held
      storing := h_goto.storing
      kept := h_goto.kept
      guarded := h_goto.guarded }

theorem complete (h : Inv settings s) (h_call : s.phase call = .operating) (result : R) :
    Inv settings (finish call (some result) s) := by
  have h_flight : (s.phase call).InFlight := by
    rw [h_call]
    trivial
  have h_clear : Clear settings s.now s.history := by
    refine h.clear (fun call' r h_phase => ?_) (fun r h_eq => ?_)
    · rw [h.eq_of_inFlight h_flight (inFlight_storing h_phase), h_call] at h_phase
      cases h_phase
    · rw [h.held call h_flight] at h_eq
      cases h_eq
  have h_lock : (s.goto call (.storing result)).live = some (.processing call) :=
    h.held call h_flight
  exact
    { lawful := ⟨h_clear, h.lawful⟩
      past := by
        intro c h_c
        rcases List.mem_cons.mp h_c with rfl | h_c
        · exact Nat.le_refl s.now
        · exact h.past c h_c
      held := by
        intro call' h_call'
        by_cases h_eq : call' = call
        · rw [h_eq]
          exact h_lock
        · exact h.held call' (Sys.goto_phase_of_ne s _ h_eq ▸ h_call')
      storing := by
        intro call' result' h_call'
        by_cases h_eq : call' = call
        · subst h_eq
          cases (Sys.goto_phase_self s _ _).symm.trans h_call'
          rfl
        · have h_phase := (Sys.goto_phase_of_ne s _ h_eq).symm.trans h_call'
          exact absurd (h.eq_of_inFlight h_flight (inFlight_storing h_phase)) h_eq
      kept := fun result' h_kept => by cases h_lock.symm.trans h_kept
      guarded := by
        intro c h_c
        rcases List.mem_cons.mp h_c with rfl | h_c
        · exact .inl (Sys.goto_phase_self s _ _)
        · exact .inr (.inr (h_clear c h_c)) }

theorem store (h : Inv settings s) {result : R} (h_call : s.phase call = .storing result) :
    Inv settings (Sys.deliver { s with entry := some { value := .completed result
                                                       expiresAt := s.now + window settings call } }
      call result) := by
  have h_flight : (s.phase call).InFlight := inFlight_storing h_call
  have h_last := h.storing call result h_call
  have h_none : ∀ call', ¬ ((s.goto call (.returned result)).phase call').InFlight := by
    intro call' h_call'
    by_cases h_eq : call' = call
    · rw [h_eq, Sys.goto_phase_self] at h_call'
      exact h_call'
    · rw [Sys.goto_phase_of_ne _ _ h_eq] at h_call'
      exact h_eq (h.eq_of_inFlight h_flight h_call')
  exact
    { lawful := ⟨h_last, h.lawful⟩
      past := h.past
      held := fun call' h_call' => absurd h_call' (h_none call')
      storing := fun call' r h_call' => absurd (inFlight_storing h_call') (h_none call')
      kept := by
        intro r h_kept
        obtain ⟨x, h_x, h_value, -⟩ := Expiring.live_eq_some_iff.mp h_kept
        cases h_x
        cases h_value
        exact h_last
      guarded := by
        intro c h_c
        rcases h.guarded c h_c with h_phase | ⟨x, h_x, h_value, -⟩ | h_over
        · have h_eq := h.eq_of_inFlight h_flight (inFlight_storing h_phase)
          rw [h_eq, h_call] at h_phase
          cases h_phase
          have h_past := h.past c h_c
          refine .inr (.inl ⟨_, rfl, rfl, ?_⟩)
          rw [h_eq]
          exact Nat.add_le_add_right h_past _
        · exact absurd h_value (h.not_completed h_flight h_x)
        · exact .inr (.inr h_over) }

theorem delete (h : Inv settings s) (h_call : s.phase call = .deleting) :
    Inv settings (Sys.goto { s with entry := none } call .raised) := by
  have h_flight : (s.phase call).InFlight := by
    rw [h_call]
    trivial
  have h_none : ∀ call', ¬ ((s.goto call .raised).phase call').InFlight := by
    intro call' h_call'
    by_cases h_eq : call' = call
    · rw [h_eq, Sys.goto_phase_self] at h_call'
      exact h_call'
    · rw [Sys.goto_phase_of_ne _ _ h_eq] at h_call'
      exact h_eq (h.eq_of_inFlight h_flight h_call')
  exact
    { lawful := h.lawful
      past := h.past
      held := fun call' h_call' => absurd h_call' (h_none call')
      storing := fun call' r h_call' => absurd (inFlight_storing h_call') (h_none call')
      kept := fun r h_kept => by cases h_kept
      guarded := by
        intro c h_c
        rcases h.guarded c h_c with h_phase | ⟨x, h_x, h_value, -⟩ | h_over
        · have h_eq := h.eq_of_inFlight h_flight (inFlight_storing h_phase)
          rw [h_eq, h_call] at h_phase
          cases h_phase
        · exact absurd h_value (h.not_completed h_flight h_x)
        · exact .inr (.inr h_over) }

theorem wait (h : Inv settings s) {duration : ℕ} (h_timely : Timely settings s (.wait duration)) :
    Inv settings { s with now := s.now + duration } where
  lawful := h.lawful
  past := fun c h_c => Nat.le_add_right_of_le (h.past c h_c)
  held := by
    intro call h_call
    obtain ⟨x, h_x, h_value, -⟩ := Expiring.live_eq_some_iff.mp (h.held call h_call)
    exact Expiring.live_eq_some_iff.mpr ⟨x, h_x, h_value, h_timely call h_call x h_x⟩
  storing := h.storing
  kept := fun result h_kept =>
    h.kept result (Expiring.live_of_le (Nat.le_add_right s.now duration) h_kept)
  guarded := by
    intro c h_c
    rcases h.guarded c h_c with h_phase | h_kept | h_over
    · exact .inl h_phase
    · exact .inr (.inl h_kept)
    · exact .inr (.inr (Nat.le_add_right_of_le h_over))

end Inv

/-! ## Runs -/

theorem inv_start : Inv settings (start : Sys R) where
  lawful := trivial
  past := nofun
  held := nofun
  storing := nofun
  kept := nofun
  guarded := nofun

theorem ne_storing {phase : Phase R} (h_call : s.phase call = phase)
    (h_phase : ∀ result, phase ≠ .storing result) (result : R) : s.phase call ≠ .storing result := by
  rw [h_call]
  exact h_phase result

theorem inv_checkAndSet (h : Inv settings s) (h_call : s.phase call = .called) (command : Command) :
    Inv settings (checkAndSet settings call command s) := by
  have h_before := ne_storing h_call nofun
  have h_before' : ∀ result, (s.lock call).phase call ≠ .storing result := by
    unfold Sys.lock
    split <;> exact h_before
  unfold checkAndSet
  split
  · exact h.goto h_before nofun nofun
  · cases command with
    | answered =>
      dsimp only
      split
      · rename_i h_live
        exact h.acquire h_live call
      · rename_i result h_live
        exact h.deliver h_before (h.kept result h_live)
      · exact h.retry h_before _
    | lost =>
      dsimp only
      split
      · exact h.goto h_before nofun nofun
      · exact h.retry h_before _
    | unanswered =>
      dsimp only
      split
      · exact (h.lock call).goto h_before' nofun nofun
      · exact (h.lock call).retry h_before' _

theorem inv_recheck (h : Inv settings s) (h_before : ∀ result, s.phase call ≠ .storing result)
    (attempts : ℕ) (answered : Bool) : Inv settings (recheck call attempts answered s) := by
  unfold recheck
  split
  · rename_i result h_read
    refine h.deliver h_before (h.kept result ?_)
    split at h_read
    · exact h_read
    · cases h_read
  · exact h.retry h_before _
  · exact h.goto h_before nofun nofun

theorem inv_startProcessing (h : Inv settings s)
    (h_before : ∀ result, s.phase call ≠ .storing result) (attempts : ℕ) (command : Command) :
    Inv settings (startProcessing call attempts command s) := by
  have h_before' : ∀ result, (s.lock call).phase call ≠ .storing result := by
    unfold Sys.lock
    split <;> exact h_before
  cases command with
  | answered =>
    unfold startProcessing
    dsimp only
    split
    · rename_i h_live
      exact h.acquire (Option.isNone_iff_eq_none.mp h_live) call
    · exact h.retry h_before _
  | lost => exact h.retry h_before _
  | unanswered => exact (h.lock call).retry h_before' _

theorem inv_step {action : Action R} {s' : Sys R} (h : Inv settings s)
    (h_timely : Timely settings s action) (h_step : step settings s action = .ok s') :
    Inv settings s' := by
  cases action with
  | wait duration =>
    cases h_step
    exact h.wait h_timely
  | checkAndSet call command =>
    simp only [step] at h_step
    split at h_step
    · rename_i h_call
      cases h_step
      exact inv_checkAndSet h h_call command
    · cases h_step
  | recheck call answered =>
    simp only [step] at h_step
    split at h_step
    · rename_i attempts wakesAt h_call
      split at h_step
      · cases h_step
        exact inv_recheck h (ne_storing h_call nofun) attempts answered
      · cases h_step
    · cases h_step
  | startProcessing call command =>
    simp only [step] at h_step
    split at h_step
    · rename_i attempts h_call
      cases h_step
      exact inv_startProcessing h (ne_storing h_call nofun) attempts command
    · cases h_step
  | finish call result =>
    simp only [step] at h_step
    split at h_step
    · rename_i h_call
      cases h_step
      cases result with
      | some result => exact h.complete h_call result
      | none =>
        exact h.goto (ne_storing h_call nofun) nofun fun _ => by rw [h_call]; trivial
    · cases h_step
  | storeResult call command =>
    simp only [step] at h_step
    split at h_step
    · rename_i result h_call
      cases h_step
      rw [storeResult, if_pos (h_timely.2 result h_call), if_pos h_timely.1]
      exact h.store h_call
    · cases h_step
  | readLock call answered =>
    simp only [step] at h_step
    split at h_step
    · rename_i h_call
      cases h_step
      have h_before := ne_storing h_call nofun
      unfold readLock
      split
      · split
        · exact h.goto h_before nofun fun _ => by rw [h_call]; trivial
        · exact h.goto h_before nofun nofun
      · exact h.goto h_before nofun nofun
    · cases h_step
  | deleteLock call command =>
    simp only [step] at h_step
    split at h_step
    · rename_i h_call
      cases h_step
      unfold deleteLock
      split
      · exact h.delete h_call
      · exact h.goto (ne_storing h_call nofun) nofun nofun
    · cases h_step

/-- While no lock expires under its owner and every result is stored, no operation is
    executed again within the window of one that succeeded. -/
theorem lawful_of_timely (settings : Settings R) (actions : List (Action R))
    (h_timely : Run.Throughout (step settings) (Timely settings) start actions) :
    Lawful settings (Run.final (step settings) start actions).history :=
  (Run.final_invariant_of_throughout (I := Inv settings)
    (fun _ _ _ h h_timely h_step => inv_step h h_timely h_step) inv_start h_timely).lawful

/-- Calls of one key in production, whose results can be written. -/
def orderSettings : Settings ℕ :=
  { production := true, clientOrderId := "signal:1", resultTtl := fun _ => none
    serializable := fun _ => true }

/-- The second call comes during the first one's operation, and returns its result. -/
def duplicateCalls : List (Action ℕ) :=
  [.checkAndSet 0 .answered, .checkAndSet 1 .answered, .wait 500, .finish 0 (some 7),
    .storeResult 0 .unanswered, .recheck 1 true]

theorem lawful_duplicateCalls :
    Lawful orderSettings (Run.final (step orderSettings) start duplicateCalls).history := by
  refine lawful_of_timely orderSettings duplicateCalls ?_
  simp only [duplicateCalls, Run.throughout_cons]
  refine ⟨trivial, trivial, ?_, trivial, ⟨rfl, fun _ _ => rfl⟩, trivial, Run.throughout_nil⟩
  intro call _ x h_x
  cases h_x
  decide

/-- The result of the first call is lost on its way to Redis, and the second call comes when
    the lock has expired. -/
def unstoredResult : List (Action ℕ) :=
  [.checkAndSet 0 .answered, .finish 0 (some 7), .storeResult 0 .lost, .wait 60000,
    .checkAndSet 1 .answered, .finish 1 (some 8), .storeResult 1 .answered]

/-- Two orders within the hour, and both calls return. -/
theorem not_lawful_unstoredResult :
    ¬ ∀ (settings : Settings ℕ) (actions : List (Action ℕ)),
      Lawful settings (Run.final (step settings) start actions).history := by
  intro h
  have h_lawful := h orderSettings unstoredResult
  have h_history : (Run.final (step orderSettings) start unstoredResult).history =
      [.returned 1 8 60000, .completed ⟨1, 8, 60000⟩, .began 1 60000, .returned 0 7 0,
        .completed ⟨0, 7, 0⟩, .began 0 0] := rfl
  rw [h_history] at h_lawful
  obtain ⟨-, h_clear, -⟩ := h_lawful
  have h_over := h_clear ⟨0, 7, 0⟩ (by simp [completions, Event.completion?])
  exact absurd h_over (by decide)

/-- An operation that takes longer than its lock is begun a second time as well. -/
example : (Run.final (step orderSettings) start
    [.checkAndSet 0 .answered, .wait 60000, .checkAndSet 1 .answered, .finish 0 (some 7),
      .storeResult 0 .answered, .finish 1 (some 8)]).history =
    [.completed ⟨1, 8, 60000⟩, .returned 0 7 60000, .completed ⟨0, 7, 60000⟩, .began 1 60000,
      .began 0 0] := rfl

end VyomQuant.Idempotency
