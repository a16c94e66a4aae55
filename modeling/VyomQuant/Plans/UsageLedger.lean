/-
  VyomQuant.Plans.UsageLedger

  The monthly meter of a plan (`core/usage_ledger.py`, `reserve_quota` and
  `decrement_quota_usage` in `core/subscription_engine.py`): one user, resource and period.

  A reservation increments a counter in Redis and takes the increment back where it overflows,
  so reservations that come together do not exceed the limit.  The counter can be lost, and
  is then written anew from the ledger by whoever finds it missing; what is granted meanwhile
  is not in what is written.  And a retry increments the counter like any other call: the
  ledger refuses its row, but nobody looks.  The allowance holds while what is written covers
  what is granted, and a retry finds no room (`safe_of_orderly`).
-/

import Mathlib.Algebra.Ring.Int.Defs
import VyomQuant.Lib.Allowance
import VyomQuant.Lib.Expiring
import VyomQuant.Lib.Run

namespace VyomQuant.UsageLedger

open Allowance (Within)

/-! ## The calls of a period -/

/-- The reservations that are asked for, each at its own number. -/
structure Requests where
  limit : ℤ
  limit_pos : 0 < limit
  amount : ℕ → ℤ
  amount_pos : ∀ call, 0 < amount call
  /-- Given by the caller, or drawn at random. -/
  key : ℕ → String
  /-- Granted in an earlier period, and still to be released. -/
  carried : ℕ → Bool

/-- Where a reservation stands, before its next statement: `reserve` up to `granted`, and
    `release` of it from there on. -/
inductive Phase where
  | called
  | rebuilding
  | seeding (durable : ℤ)
  | counting
  | reverting
  | refused
  | recording
  | granted
  | carriedOver
  | releasing (carried : Bool)
  | zeroing
  | forgetting
  | released
  deriving DecidableEq

/-- The meter, the ledger's rows of the period, and the calls.  `charged` tells whose
    increment is in the meter. -/
structure Sys where
  meter : Option ℤ
  ledger : List (String × ℤ)
  phase : ℕ → Phase
  charged : ℕ → Bool

namespace Sys

def goto (s : Sys) (call : ℕ) (phase : Phase) : Sys :=
  { s with phase := Function.update s.phase call phase }

/-- What `INCRBY` and `DECRBY` start from. -/
def reading (s : Sys) : ℤ := s.meter.getD 0

/-- `INCRBY` of a reservation. -/
def charge (s : Sys) (call : ℕ) (amount : ℤ) : Sys :=
  { s with meter := some (s.reading + amount), charged := Function.update s.charged call true }

/-- `DECRBY` of a reservation. -/
def discharge (s : Sys) (call : ℕ) (amount : ℤ) : Sys :=
  { s with meter := some (s.reading - amount), charged := Function.update s.charged call false }

@[simp] theorem goto_phase_self (s : Sys) (call : ℕ) (phase : Phase) :
    (s.goto call phase).phase call = phase := Function.update_self ..

theorem goto_phase_of_ne (s : Sys) {call call' : ℕ} (phase : Phase) (h : call' ≠ call) :
    (s.goto call phase).phase call' = s.phase call' := Function.update_of_ne h ..

end Sys

/-! ## The statements of a call -/

variable (requests : Requests)

/-- The `GET` of `_reconcile_meter`: a failed one finds nothing. -/
def readMeter (call : ℕ) (answered : Bool) (s : Sys) : Sys :=
  s.goto call (if answered ∧ s.meter.isSome then .counting else .rebuilding)

/-- `_ledger_total`. -/
def ledgerTotal (ledger : List (String × ℤ)) : ℤ := (ledger.map Prod.snd).sum

def readLedger (call : ℕ) (answered : Bool) (s : Sys) : Sys :=
  s.goto call (if answered ∧ 0 < ledgerTotal s.ledger then .seeding (ledgerTotal s.ledger)
    else .counting)

/-- The `SET` of `_reconcile_meter`. -/
def seed (call : ℕ) (durable : ℤ) (command : Command) (s : Sys) : Sys :=
  Sys.goto (if command.applied then { s with meter := some durable } else s) call .counting

/-- The decision of `reserve_quota` on the answer of the `INCRBY`; an answer that does not
    arrive is a 0, which no increment answers. -/
def decision (call : ℕ) (answer : ℤ) : Phase :=
  if answer < requests.amount call then .refused
  else if requests.limit < answer then .reverting
  else .recording

def count (call : ℕ) (command : Command) (s : Sys) : Sys :=
  match command with
  | .answered =>
    (s.charge call (requests.amount call)).goto call
      (decision requests call (s.reading + requests.amount call))
  | .lost => s.goto call (decision requests call 0)
  | .unanswered => (s.charge call (requests.amount call)).goto call (decision requests call 0)

/-- The `DECRBY` of a refusal. -/
def revert (call : ℕ) (command : Command) (s : Sys) : Sys :=
  Sys.goto (if command.applied then s.discharge call (requests.amount call) else s) call .refused

/-- `_append_ledger`: a row whose key is there already is refused, which is swallowed. -/
def record (call : ℕ) (command : Command) (s : Sys) : Sys :=
  Sys.goto (if command.applied ∧ requests.key call ∉ s.ledger.map Prod.fst then
      { s with ledger := (requests.key call, requests.amount call) :: s.ledger } else s)
    call .granted

/-- The `DECRBY` of `decrement_quota_usage`, of whichever period it is by now. -/
def giveBack (call : ℕ) (command : Command) (s : Sys) : Sys :=
  match command with
  | .answered =>
    (s.discharge call (requests.amount call)).goto call
      (if s.reading - requests.amount call < 0 then .zeroing else .forgetting)
  | .lost => s.goto call .forgetting
  | .unanswered => (s.discharge call (requests.amount call)).goto call .forgetting

/-- The `SET` of `decrement_quota_usage`. -/
def zero (call : ℕ) (command : Command) (s : Sys) : Sys :=
  Sys.goto (if command.applied then { s with meter := some 0 } else s) call .forgetting

/-- The `DELETE` of `release`, if it is given the key. -/
def forget (call : ℕ) (named : Bool) (command : Command) (s : Sys) : Sys :=
  Sys.goto (if named ∧ command.applied then
      { s with ledger := s.ledger.filter fun row => row.1 ≠ requests.key call } else s)
    call .released

inductive Action where
  | readMeter (call : ℕ) (answered : Bool)
  | readLedger (call : ℕ) (answered : Bool)
  | seed (call : ℕ) (command : Command)
  | count (call : ℕ) (command : Command)
  | revert (call : ℕ) (command : Command)
  | record (call : ℕ) (command : Command)
  | release (call : ℕ)
  | giveBack (call : ℕ) (command : Command)
  | zero (call : ℕ) (command : Command)
  | forget (call : ℕ) (named : Bool) (command : Command)
  /-- Redis loses the key. -/
  | lose

/-- One statement of one call, if it is the call's next one, or the loss of the meter.  Only
    a granted reservation is released, and once. -/
def step (s : Sys) : Action → Except Unit Sys
  | .readMeter call answered =>
    if s.phase call = .called then .ok (readMeter call answered s) else .error ()
  | .readLedger call answered =>
    if s.phase call = .rebuilding then .ok (readLedger call answered s) else .error ()
  | .seed call command =>
    match s.phase call with
    | .seeding durable => .ok (seed call durable command s)
    | _ => .error ()
  | .count call command =>
    if s.phase call = .counting then .ok (count requests call command s) else .error ()
  | .revert call command =>
    if s.phase call = .reverting then .ok (revert requests call command s) else .error ()
  | .record call command =>
    if s.phase call = .recording then .ok (record requests call command s) else .error ()
  | .release call =>
    match s.phase call with
    | .granted => .ok (s.goto call (.releasing false))
    | .carriedOver => .ok (s.goto call (.releasing true))
    | _ => .error ()
  | .giveBack call command =>
    match s.phase call with
    | .releasing _ => .ok (giveBack requests call command s)
    | _ => .error ()
  | .zero call command =>
    if s.phase call = .zeroing then .ok (zero call command s) else .error ()
  | .forget call named command =>
    if s.phase call = .forgetting then .ok (forget requests call named command s) else .error ()
  | .lose => .ok { s with meter := none }

/-- The period begins. -/
def start : Sys :=
  { meter := none, ledger := []
    phase := fun call => if requests.carried call then .carriedOver else .called
    charged := fun _ => false }

/-! ## What a plan promises -/

/-- Granted in this period, and not given back yet. -/
def Phase.Granted (phase : Phase) : Prop :=
  phase = .recording ∨ phase = .granted ∨ phase = .releasing false

/-- What is granted under distinct keys is within the limit, and of the calls of one key at
    most one is charged, apart from one that is about to be reverted. -/
structure Safe (s : Sys) : Prop where
  within : ∀ calls : Finset ℕ, (∀ call ∈ calls, (s.phase call).Granted) →
    Set.InjOn requests.key calls → ∑ call ∈ calls, requests.amount call ≤ requests.limit
  once : ∀ call call', call ≠ call' → requests.key call = requests.key call' →
    s.charged call → s.charged call' → s.phase call = .reverting ∨ s.phase call' = .reverting

/-- What will be taken off the meter, if at all, and is counted in it. -/
def Phase.Committed (phase : Phase) : Prop := phase.Granted ∨ phase = .reverting

/-- The commitments are within a figure. -/
def Covers (s : Sys) (figure : ℤ) : Prop :=
  Within requests.amount (fun call => (s.phase call).Committed) figure

/-- Another call of the same key is charged, and stays so. -/
def Retried (s : Sys) (call : ℕ) : Prop :=
  ∃ call', call' ≠ call ∧ requests.key call' = requests.key call ∧ s.charged call' ∧
    s.phase call' ≠ .reverting

/-- A meter is begun or overwritten only with what covers the commitments; a retry finds no
    room, and is reverted; and nothing is given back of an earlier period. -/
def Orderly (s : Sys) : Action → Prop
  | .seed call command =>
    command.applied → ∀ durable, s.phase call = .seeding durable → Covers requests s durable
  | .count call command =>
    command.applied → (s.meter = none → Covers requests s 0) ∧
      (Retried requests s call →
        command = .answered ∧ 0 ≤ s.reading ∧ requests.limit < s.reading + requests.amount call)
  | .revert call command =>
    (command.applied → s.meter = none → ∀ call', (s.phase call').Committed → call' = call) ∧
      (¬ command.applied → ¬ Retried requests s call)
  | .giveBack call command =>
    command.applied → s.phase call ≠ .releasing true ∧
      (s.meter = none → ∀ call', (s.phase call').Committed → call' = call)
  | .zero _ command => command.applied → Covers requests s 0
  | _ => True

/-! ## What every statement preserves -/

variable {requests : Requests} {s : Sys} {call : ℕ}

structure Inv (requests : Requests) (s : Sys) : Prop where
  covered : ∀ figure, s.meter = some figure → Covers requests s (max figure 0)
  within : Within requests.amount (fun call => (s.phase call).Granted) requests.limit
  once : ∀ call call', call ≠ call' → requests.key call = requests.key call' →
    s.charged call → s.charged call' → s.phase call = .reverting ∨ s.phase call' = .reverting

variable {phase : Phase}

theorem of_goto {p : Phase → Prop} {call' : ℕ} (h : p ((s.goto call phase).phase call')) :
    call' = call ∧ p phase ∨ call' ≠ call ∧ p (s.phase call') := by
  by_cases h_eq : call' = call
  · subst h_eq
    rw [Sys.goto_phase_self] at h
    exact .inl ⟨rfl, h⟩
  · rw [Sys.goto_phase_of_ne _ _ h_eq] at h
    exact .inr ⟨h_eq, h⟩

theorem reverting_goto {call' : ℕ} (h_ne : call' ≠ call) (h : s.phase call' = .reverting) :
    (s.goto call phase).phase call' = .reverting := by
  rw [Sys.goto_phase_of_ne _ _ h_ne]
  exact h

namespace Inv

theorem goto (h : Inv requests s) (h_reverting : s.phase call ≠ .reverting)
    (h_committed : phase.Committed → (s.phase call).Committed)
    (h_granted : phase.Granted → (s.phase call).Granted) : Inv requests (s.goto call phase) where
  covered := by
    intro figure h_meter
    refine (h.covered figure h_meter).mono (fun call' h_call' => ?_) (le_refl _)
    rcases of_goto h_call' with ⟨rfl, h_phase⟩ | ⟨-, h_phase⟩
    · exact h_committed h_phase
    · exact h_phase
  within := by
    refine h.within.mono (fun call' h_call' => ?_) (le_refl _)
    rcases of_goto h_call' with ⟨rfl, h_phase⟩ | ⟨-, h_phase⟩
    · exact h_granted h_phase
    · exact h_phase
  once := by
    have h_ne : ∀ call', s.phase call' = .reverting → call' ≠ call := by
      intro call' h_call' h_eq
      exact h_reverting (h_eq ▸ h_call')
    intro i j h_ij h_key h_i h_j
    rcases h.once i j h_ij h_key h_i h_j with h_phase | h_phase
    · exact .inl (reverting_goto (h_ne i h_phase) h_phase)
    · exact .inr (reverting_goto (h_ne j h_phase) h_phase)

theorem write (h : Inv requests s) {figure : ℤ} (h_covers : Covers requests s figure) :
    Inv requests { s with meter := some figure } where
  covered := by
    intro figure' h_meter
    cases h_meter
    exact Within.mono h_covers (fun _ h_call => h_call) (le_max_left figure 0)
  within := h.within
  once := h.once

theorem covers_reading (h : Inv requests s) (h_none : s.meter = none → Covers requests s 0) :
    Covers requests s (max s.reading 0) := by
  cases h_meter : s.meter with
  | none =>
    rw [Sys.reading, h_meter]
    exact h_none h_meter
  | some figure =>
    rw [Sys.reading, h_meter]
    exact h.covered figure h_meter

theorem charge (h : Inv requests s) (h_none : s.meter = none → Covers requests s 0)
    (h_retry : Retried requests s call → phase = .reverting)
    (h_room : phase.Committed → 0 ≤ s.reading)
    (h_limit : phase.Granted → s.reading + requests.amount call ≤ requests.limit) :
    Inv requests ((s.charge call (requests.amount call)).goto call phase) where
  covered := by
    intro figure h_meter
    cases h_meter
    have h_covers := h.covers_reading h_none
    have h_pos := requests.amount_pos call
    by_cases h_committed : phase.Committed
    · have h_reading := h_room h_committed
      refine (h_covers.insert call h_pos.le fun call' h_call' => ?_).mono (fun _ h_call' => h_call')
        (by omega)
      rcases of_goto h_call' with ⟨h_eq, -⟩ | ⟨-, h_phase⟩
      · exact .inl h_eq
      · exact .inr h_phase
    · refine h_covers.mono (fun call' h_call' => ?_) (by omega)
      rcases of_goto h_call' with ⟨-, h_phase⟩ | ⟨-, h_phase⟩
      · exact absurd h_phase h_committed
      · exact h_phase
  within := by
    have h_pos := requests.amount_pos call
    by_cases h_granted : phase.Granted
    · -- the grants before are commitments, and these are within the reading
      have h_reading := h_room (.inl h_granted)
      have h_limit := h_limit h_granted
      have h_before : Within requests.amount (fun call => (s.phase call).Granted)
          (max s.reading 0) :=
        (h.covers_reading h_none).mono (fun _ h_phase => .inl h_phase) (le_refl _)
      refine (h_before.insert call h_pos.le fun call' h_call' => ?_).mono (fun _ h_call' => h_call')
        (by omega)
      rcases of_goto h_call' with ⟨h_eq, -⟩ | ⟨-, h_phase⟩
      · exact .inl h_eq
      · exact .inr h_phase
    · refine h.within.mono (fun call' h_call' => ?_) (le_refl _)
      rcases of_goto h_call' with ⟨-, h_phase⟩ | ⟨-, h_phase⟩
      · exact absurd h_phase h_granted
      · exact h_phase
  once := by
    have h_charged : ∀ i, i ≠ call →
        ((s.charge call (requests.amount call)).goto call phase).charged i → s.charged i := by
      intro i h_i h_charged
      exact (Function.update_of_ne h_i ..).symm.trans h_charged
    have h_other : ∀ i, i ≠ call → requests.key i = requests.key call → s.charged i →
        phase = .reverting ∨ s.phase i = .reverting := by
      intro i h_i h_key h_charged
      by_cases h_phase : s.phase i = .reverting
      · exact .inr h_phase
      · exact .inl (h_retry ⟨i, h_i, h_key, h_charged, h_phase⟩)
    intro i j h_ij h_key h_i h_j
    by_cases h_eq : i = call
    · subst h_eq
      rcases h_other j h_ij.symm h_key.symm (h_charged j h_ij.symm h_j) with h_phase | h_phase
      · exact .inl ((Sys.goto_phase_self _ _ _).trans h_phase)
      · exact .inr (reverting_goto h_ij.symm h_phase)
    · by_cases h_eq' : j = call
      · subst h_eq'
        rcases h_other i h_ij h_key (h_charged i h_ij h_i) with h_phase | h_phase
        · exact .inr ((Sys.goto_phase_self _ _ _).trans h_phase)
        · exact .inl (reverting_goto h_ij h_phase)
      · rcases h.once i j h_ij h_key (h_charged i h_eq h_i) (h_charged j h_eq' h_j) with
          h_phase | h_phase
        · exact .inl (reverting_goto h_eq h_phase)
        · exact .inr (reverting_goto h_eq' h_phase)

theorem discharge (h : Inv requests s) (h_call : (s.phase call).Committed)
    (h_none : s.meter = none → ∀ call', (s.phase call').Committed → call' = call)
    (h_phase : ¬ phase.Committed) :
    Inv requests ((s.discharge call (requests.amount call)).goto call phase) where
  covered := by
    intro figure h_meter
    cases h_meter
    have h_after : ∀ call', (((s.discharge call (requests.amount call)).goto call phase).phase
        call').Committed → (s.phase call').Committed ∧ call' ≠ call := by
      intro call' h_call'
      rcases of_goto h_call' with ⟨-, h_committed⟩ | ⟨h_ne, h_committed⟩
      · exact absurd h_committed h_phase
      · exact ⟨h_committed, h_ne⟩
    cases h_meter : s.meter with
    | none =>
      refine Allowance.within_of_none (fun call' h_call' => ?_) (le_max_right _ _)
      obtain ⟨h_committed, h_ne⟩ := h_after call' h_call'
      exact h_ne (h_none h_meter call' h_committed)
    | some figure =>
      have h_covers := h.covered figure h_meter
      have h_le : requests.amount call ≤ max figure 0 := h_covers.weight_le h_call
      have h_pos := requests.amount_pos call
      rw [Sys.reading, h_meter, Option.getD_some]
      exact (h_covers.erase h_call h_after).mono (fun _ h_call' => h_call') (by omega)
  within := by
    refine h.within.mono (fun call' h_call' => ?_) (le_refl _)
    rcases of_goto h_call' with ⟨-, h_granted⟩ | ⟨-, h_granted⟩
    · exact absurd (.inl h_granted) h_phase
    · exact h_granted
  once := by
    have h_ne : ∀ i, ((s.discharge call (requests.amount call)).goto call phase).charged i →
        i ≠ call ∧ s.charged i := by
      intro i h_i
      by_cases h_eq : i = call
      · subst h_eq
        cases (Function.update_self ..).symm.trans h_i
      · exact ⟨h_eq, (Function.update_of_ne h_eq ..).symm.trans h_i⟩
    intro i j h_ij h_key h_i h_j
    obtain ⟨h_ne_i, h_charged_i⟩ := h_ne i h_i
    obtain ⟨h_ne_j, h_charged_j⟩ := h_ne j h_j
    rcases h.once i j h_ij h_key h_charged_i h_charged_j with h_reverting | h_reverting
    · exact .inl (reverting_goto h_ne_i h_reverting)
    · exact .inr (reverting_goto h_ne_j h_reverting)

/-- The `DECRBY` of a refusal is lost: the call stays charged. -/
theorem unreverted (h : Inv requests s) (h_call : s.phase call = .reverting)
    (h_retry : ¬ Retried requests s call) : Inv requests (s.goto call .refused) where
  covered := by
    intro figure h_meter
    refine (h.covered figure h_meter).mono (fun call' h_call' => ?_) (le_refl _)
    rcases of_goto h_call' with ⟨rfl, -⟩ | ⟨-, h_phase⟩
    · exact .inr h_call
    · exact h_phase
  within := by
    refine h.within.mono (fun call' h_call' => ?_) (le_refl _)
    rcases of_goto h_call' with ⟨-, h_phase⟩ | ⟨-, h_phase⟩
    · simp [Phase.Granted] at h_phase
    · exact h_phase
  once := by
    have h_other : ∀ i, i ≠ call → requests.key i = requests.key call → s.charged i →
        (s.goto call .refused).phase i = .reverting := by
      intro i h_i h_key h_charged
      by_contra h_phase
      refine h_retry ⟨i, h_i, h_key, h_charged, fun h_reverting => h_phase ?_⟩
      exact reverting_goto h_i h_reverting
    intro i j h_ij h_key h_i h_j
    by_cases h_eq : i = call
    · subst h_eq
      exact .inr (h_other j h_ij.symm h_key.symm h_j)
    · by_cases h_eq' : j = call
      · subst h_eq'
        exact .inl (h_other i h_ij h_key h_i)
      · rcases h.once i j h_ij h_key h_i h_j with h_phase | h_phase
        · exact .inl (reverting_goto h_eq h_phase)
        · exact .inr (reverting_goto h_eq' h_phase)

end Inv

/-! ## Runs -/

theorem phase_start (requests : Requests) (call : ℕ) :
    (start requests).phase call = .carriedOver ∨ (start requests).phase call = .called := by
  cases h_carried : requests.carried call with
  | true => exact .inl (if_pos h_carried)
  | false => exact .inr (if_neg (by rw [h_carried]; exact Bool.false_ne_true))

theorem inv_start : Inv requests (start requests) where
  covered := nofun
  within := by
    refine Allowance.within_of_none (fun call h_call => ?_) requests.limit_pos.le
    rcases phase_start requests call with h_phase | h_phase <;>
      simp [h_phase, Phase.Granted] at h_call
  once := nofun

theorem decision_refused_or (call : ℕ) (answer : ℤ) :
    decision requests call answer = .refused ∨
      requests.amount call ≤ answer ∧ (requests.limit < answer ∧
        decision requests call answer = .reverting ∨
          answer ≤ requests.limit ∧ decision requests call answer = .recording) := by
  unfold decision
  split
  · exact .inl rfl
  · rename_i h_amount
    refine .inr ⟨not_lt.mp h_amount, ?_⟩
    split
    · rename_i h_limit
      exact .inl ⟨h_limit, rfl⟩
    · rename_i h_limit
      exact .inr ⟨not_lt.mp h_limit, rfl⟩

theorem decision_zero (call : ℕ) : decision requests call 0 = .refused :=
  if_pos (requests.amount_pos call)

variable {command : Command}

theorem inv_count (h : Inv requests s) (h_call : s.phase call = .counting)
    (h_orderly : Orderly requests s (.count call command)) :
    Inv requests (count requests call command s) := by
  have h_reverting : s.phase call ≠ .reverting := by
    rw [h_call]
    decide
  cases command with
  | lost =>
    rw [count, decision_zero]
    exact h.goto h_reverting (by simp [Phase.Committed, Phase.Granted]) (by simp [Phase.Granted])
  | unanswered =>
    obtain ⟨h_none, h_retry⟩ := h_orderly rfl
    rw [count, decision_zero]
    exact h.charge h_none (fun h_retried => by cases (h_retry h_retried).1)
      (by simp [Phase.Committed, Phase.Granted]) (by simp [Phase.Granted])
  | answered =>
    obtain ⟨h_none, h_retry⟩ := h_orderly rfl
    have h_pos := requests.amount_pos call
    rw [count]
    have h_decision := @decision_refused_or requests call (s.reading + requests.amount call)
    rcases h_decision with h_refused | ⟨h_answer, h_over | h_room⟩
    · rw [h_refused]
      refine h.charge h_none (fun h_retried => ?_) (by simp [Phase.Committed, Phase.Granted])
        (by simp [Phase.Granted])
      obtain ⟨-, h_reading, h_limit⟩ := h_retry h_retried
      rw [decision, if_neg (by omega), if_pos h_limit] at h_refused
      cases h_refused
    · rw [h_over.2]
      exact h.charge h_none (fun _ => rfl) (fun _ => by omega) (by simp [Phase.Granted])
    · rw [h_room.2]
      exact h.charge h_none (fun h_retried => absurd (h_retry h_retried).2.2 (not_lt.mpr h_room.1))
        (fun _ => by omega) fun _ => h_room.1

theorem inv_revert (h : Inv requests s) (h_call : s.phase call = .reverting)
    (h_orderly : Orderly requests s (.revert call command)) :
    Inv requests (revert requests call command s) := by
  have h_refused : ¬ Phase.refused.Committed := by simp [Phase.Committed, Phase.Granted]
  unfold revert
  split
  · rename_i h_applied
    exact h.discharge (.inr h_call) (h_orderly.1 h_applied) h_refused
  · rename_i h_lost
    exact h.unreverted h_call (h_orderly.2 h_lost)

theorem inv_giveBack (h : Inv requests s) {carried : Bool}
    (h_call : s.phase call = .releasing carried)
    (h_orderly : Orderly requests s (.giveBack call command)) :
    Inv requests (giveBack requests call command s) := by
  have h_reverting : s.phase call ≠ .reverting := by
    rw [h_call]
    nofun
  have h_granted : s.phase call ≠ .releasing true → (s.phase call).Committed := by
    intro h_carried
    rw [h_call] at h_carried ⊢
    cases carried with
    | true => exact absurd rfl h_carried
    | false => exact .inl (.inr (.inr rfl))
  cases command with
  | answered =>
    obtain ⟨h_carried, h_none⟩ := h_orderly rfl
    refine h.discharge (h_granted h_carried) h_none ?_
    split <;> simp [Phase.Committed, Phase.Granted]
  | lost =>
    exact h.goto h_reverting (by simp [Phase.Committed, Phase.Granted]) (by simp [Phase.Granted])
  | unanswered =>
    obtain ⟨h_carried, h_none⟩ := h_orderly rfl
    exact h.discharge (h_granted h_carried) h_none (by simp [Phase.Committed, Phase.Granted])

theorem ne_reverting (h_call : s.phase call = phase) (h_phase : phase ≠ .reverting) :
    s.phase call ≠ .reverting := by
  rw [h_call]
  exact h_phase

theorem Inv.leave (h : Inv requests s) (h_reverting : s.phase call ≠ .reverting) {phase : Phase}
    (h_phase : ¬ phase.Committed) : Inv requests (s.goto call phase) :=
  h.goto h_reverting (fun h => absurd h h_phase) fun h => absurd (.inl h) h_phase

theorem inv_step {action : Action} {s' : Sys} (h : Inv requests s)
    (h_orderly : Orderly requests s action) (h_step : step requests s action = .ok s') :
    Inv requests s' := by
  cases action with
  | readMeter call answered =>
    obtain ⟨h_call, rfl⟩ := Except.ite_eq_ok.mp h_step
    refine h.leave (ne_reverting h_call nofun) ?_
    split <;> simp [Phase.Committed, Phase.Granted]
  | readLedger call answered =>
    obtain ⟨h_call, rfl⟩ := Except.ite_eq_ok.mp h_step
    refine h.leave (ne_reverting h_call nofun) ?_
    split <;> simp [Phase.Committed, Phase.Granted]
  | seed call command =>
    simp only [step] at h_step
    split at h_step
    · rename_i durable h_call
      cases h_step
      unfold seed
      split
      · rename_i h_applied
        exact (h.write (h_orderly h_applied durable h_call)).leave (ne_reverting h_call nofun)
          (by simp [Phase.Committed, Phase.Granted])
      · exact h.leave (ne_reverting h_call nofun) (by simp [Phase.Committed, Phase.Granted])
    · cases h_step
  | count call command =>
    obtain ⟨h_call, rfl⟩ := Except.ite_eq_ok.mp h_step
    exact inv_count h h_call h_orderly
  | revert call command =>
    obtain ⟨h_call, rfl⟩ := Except.ite_eq_ok.mp h_step
    exact inv_revert h h_call h_orderly
  | record call command =>
    obtain ⟨h_call, rfl⟩ := Except.ite_eq_ok.mp h_step
    have h_goto : Inv requests (s.goto call .granted) :=
      h.goto (ne_reverting h_call nofun) (fun _ => .inl (.inl h_call)) (fun _ => .inl h_call)
    unfold record
    split
    · exact { covered := h_goto.covered, within := h_goto.within, once := h_goto.once }
    · exact h_goto
  | release call =>
    simp only [step] at h_step
    split at h_step
    · rename_i h_call
      cases h_step
      exact h.goto (ne_reverting h_call nofun) (fun _ => .inl (.inr (.inl h_call)))
        (fun _ => .inr (.inl h_call))
    · rename_i h_call
      cases h_step
      exact h.leave (ne_reverting h_call nofun) (by simp [Phase.Committed, Phase.Granted])
    · cases h_step
  | giveBack call command =>
    simp only [step] at h_step
    split at h_step
    · rename_i carried h_call
      cases h_step
      exact inv_giveBack h h_call h_orderly
    · cases h_step
  | zero call command =>
    obtain ⟨h_call, rfl⟩ := Except.ite_eq_ok.mp h_step
    unfold zero
    split
    · rename_i h_applied
      exact (h.write (h_orderly h_applied)).leave (ne_reverting h_call nofun)
        (by simp [Phase.Committed, Phase.Granted])
    · exact h.leave (ne_reverting h_call nofun) (by simp [Phase.Committed, Phase.Granted])
  | forget call named command =>
    obtain ⟨h_call, rfl⟩ := Except.ite_eq_ok.mp h_step
    have h_goto : Inv requests (s.goto call .released) :=
      h.leave (ne_reverting h_call nofun) (by simp [Phase.Committed, Phase.Granted])
    unfold forget
    split
    · exact { covered := h_goto.covered, within := h_goto.within, once := h_goto.once }
    · exact h_goto
  | lose =>
    cases h_step
    exact { covered := nofun, within := h.within, once := h.once }

theorem Inv.safe (h : Inv requests s) : Safe requests s where
  within := fun calls h_calls _ => h.within calls h_calls
  once := h.once

/-- While the meter is written only with what covers the commitments, and retries find no
    room, the allowance is neither granted twice nor charged twice. -/
theorem safe_of_orderly (requests : Requests) (actions : List Action)
    (h_orderly : Run.Throughout (step requests) (Orderly requests) (start requests) actions) :
    Safe requests (Run.final (step requests) (start requests) actions) :=
  (Run.final_invariant_of_throughout (I := Inv requests)
    (fun _ _ _ h h_orderly h_step => inv_step h h_orderly h_step) inv_start h_orderly).safe

def unitRequests (limit : ℤ) (h_limit : 0 < limit) (key : ℕ → String) : Requests :=
  { limit := limit, limit_pos := h_limit, amount := fun _ => 1, amount_pos := fun _ => by decide
    key := key, carried := fun _ => false }

/-- Two backtests, with a meter that is lost between them. -/
def twoBacktests : Requests :=
  unitRequests 2 (by decide) fun call => if call = 0 then "backtest-1" else "backtest-2"

def rebuiltMeter : List Action :=
  [.readMeter 0 true, .readLedger 0 true, .count 0 .answered, .record 0 .answered, .lose,
    .readMeter 1 true, .readLedger 1 true, .seed 1 .answered, .count 1 .answered,
    .record 1 .unanswered]

theorem not_committed_called : ¬ Phase.called.Committed := by simp [Phase.Committed, Phase.Granted]

theorem not_committed_counting : ¬ Phase.counting.Committed := by
  simp [Phase.Committed, Phase.Granted]

theorem not_committed_seeding (durable : ℤ) : ¬ (Phase.seeding durable).Committed := by
  simp [Phase.Committed, Phase.Granted]

theorem safe_rebuiltMeter :
    Safe twoBacktests (Run.final (step twoBacktests) (start twoBacktests) rebuiltMeter) := by
  refine safe_of_orderly twoBacktests rebuiltMeter ?_
  simp only [rebuiltMeter, Run.throughout_cons]
  refine ⟨trivial, trivial, ?_, trivial, trivial, trivial, trivial, ?_, ?_, trivial,
    Run.throughout_nil⟩
  · -- nothing is granted when the first reservation is counted
    refine fun _ => ⟨fun _ => Allowance.within_of_none (fun call h_call => ?_) (le_refl _), ?_⟩
    · match call, h_call with
      | 0, h_call => exact not_committed_counting h_call
      | _ + 1, h_call => exact not_committed_called h_call
    · rintro ⟨call, -, -, h_charged, -⟩
      cases h_charged
  · -- the ledger has the row of what is granted
    rintro - durable h_durable
    cases h_durable
    have h_none : Within twoBacktests.amount (fun _ => False) 0 :=
      Allowance.within_of_none (fun _ h => h) (le_refl _)
    refine (h_none.insert 0 (by decide) fun call h_call => ?_)
    match call, h_call with
    | 0, _ => exact .inl rfl
    | 1, h_call => exact absurd h_call (not_committed_seeding 1)
    | _ + 2, h_call => exact absurd h_call not_committed_called
  · refine fun _ => ⟨nofun, ?_⟩
    rintro ⟨call, h_ne, h_key, h_charged, -⟩
    match call, h_ne, h_key, h_charged with
    | 0, _, h_key, _ => exact absurd h_key (by decide)
    | 1, h_ne, _, _ => exact absurd rfl h_ne
    | _ + 2, _, _, h_charged => cases h_charged

/-- A client sends the request for a backtest once more. -/
def retriedBacktest : Requests := unitRequests 10 (by decide) fun _ => "backtest-1"

def retry : List Action :=
  [.readMeter 0 true, .readLedger 0 true, .count 0 .answered, .record 0 .answered,
    .readMeter 1 true, .count 1 .answered, .record 1 .answered]

/-- The meter counts it twice, the ledger once. -/
theorem not_safe_retry :
    ¬ ∀ (requests : Requests) (actions : List Action),
      Safe requests (Run.final (step requests) (start requests) actions) := by
  intro h
  have h_once := (h retriedBacktest retry).once 0 1 (by decide) rfl rfl rfl
  rcases h_once with h_phase | h_phase <;> cases h_phase

/-- A grant whose row was lost is forgotten with the meter. -/
example :
    let requests := unitRequests 1 (by decide) fun call => if call = 0 then "a" else "b"
    let s := Run.final (step requests) (start requests)
      [.readMeter 0 true, .readLedger 0 true, .count 0 .answered, .record 0 .lost, .lose,
        .readMeter 1 true, .readLedger 1 true, .count 1 .answered, .record 1 .answered]
    s.phase 0 = .granted ∧ s.phase 1 = .granted := ⟨rfl, rfl⟩

end VyomQuant.UsageLedger
