/-
  VyomQuant.Execution.LeaderLease

  The renewable leader lease (`core/leader_lease.py`), for the calls of
  `try_acquire_or_renew` on one key by any number of instances.

  A call reads the key.  If the lease is its own instance's it extends it with a plain
  `SET`, and otherwise it tries to take a free key with `SET NX`.  Between its commands
  anything may happen: other calls, time, and a Redis that loses a command or its answer.

  The plain `SET` relies on what was read before.  At most one instance leads as long as no
  renewal reaches Redis when the key has passed to another one, and the first renewal that
  does breaks it (`lawful_undisturbed`).
-/

import Mathlib.Data.Int.Notation
import Mathlib.Logic.Function.Basic
import Mathlib.Order.Nat
import VyomQuant.Lib.Expiring
import VyomQuant.Lib.Run

namespace VyomQuant.Lease

variable {I : Type}

/-! ## The calls of a key -/

/-- What the calls are made with. -/
structure Settings (I : Type) where
  instanceId : ℕ → I
  ttlSeconds : ℕ → ℤ

/-- Where a call of `try_acquire_or_renew` stands: before its next command. -/
inductive Phase where
  | called
  | reading
  | renewing
  | acquiring
  | ended

/-- The end of a call, with the holder that its last command found and the one it left. -/
structure Ending (I : Type) where
  call : ℕ
  answer : Bool
  instant : ℕ
  found : Option I
  left : Option I
  deriving DecidableEq

/-- The key, with instants in milliseconds, and its calls; the history is newest first. -/
structure Sys (I : Type) where
  now : ℕ
  entry : Option (Expiring I)
  phase : ℕ → Phase
  history : List (Ending I)

namespace Sys

/-- Who holds the lease. -/
def live (s : Sys I) : Option I := Expiring.live s.now s.entry

def goto (s : Sys I) (call : ℕ) (phase : Phase) : Sys I :=
  { s with phase := Function.update s.phase call phase }

def conclude (s : Sys I) (call : ℕ) (answer : Bool) (found : Option I) : Sys I :=
  { s.goto call .ended with
    history := { call := call, answer := answer, instant := s.now, found := found
                 left := s.live } :: s.history }

end Sys

/-! ## The commands of a call -/

variable (settings : Settings I)

/-- The lease of a call, in milliseconds. -/
def ttl (call : ℕ) : ℕ := (settings.ttlSeconds call).toNat * 1000

/-- `SET` with `EX`; Redis refuses an expiry that is not positive. -/
def set (call : ℕ) (s : Sys I) : Sys I :=
  if 0 < settings.ttlSeconds call then
    { s with entry := some { value := settings.instanceId call
                             expiresAt := s.now + ttl settings call } }
  else s

/-- The renewal: no `NX`, so it sets whatever is there by now. -/
def renew (call : ℕ) (command : Command) (s : Sys I) : Sys I :=
  (if command.applied then set settings call s else s).conclude call
    (decide (command = .answered ∧ 0 < settings.ttlSeconds call)) s.live

/-- `SET` with `NX`. -/
def acquire (call : ℕ) (command : Command) (s : Sys I) : Sys I :=
  (if command.applied && s.live.isNone then set settings call s else s).conclude call
    (decide (command = .answered ∧ s.live.isNone ∧ 0 < settings.ttlSeconds call)) s.live

variable [DecidableEq I]

/-- `GET`, and what is made of it; a call that raises answers `False`. -/
def get (call : ℕ) (command : Command) (s : Sys I) : Sys I :=
  match command with
  | .answered =>
    s.goto call (if s.live = some (settings.instanceId call) then .renewing else .acquiring)
  | .lost => s.conclude call false s.live
  | .unanswered => s.conclude call false s.live

inductive Action where
  | wait (duration : ℕ)
  | getClient (call : ℕ) (reachable : Bool)
  | get (call : ℕ) (command : Command)
  | renew (call : ℕ) (command : Command)
  | acquire (call : ℕ) (command : Command)

/-- One command of one call, if it is the call's next one, or some time. -/
def step (s : Sys I) : Action → Except Unit (Sys I)
  | .wait duration => .ok { s with now := s.now + duration }
  | .getClient call reachable =>
    match s.phase call with
    | .called => .ok (if reachable then s.goto call .reading else s.conclude call false s.live)
    | _ => .error ()
  | .get call command =>
    match s.phase call with
    | .reading => .ok (get settings call command s)
    | _ => .error ()
  | .renew call command =>
    match s.phase call with
    | .renewing => .ok (renew settings call command s)
    | _ => .error ()
  | .acquire call command =>
    match s.phase call with
    | .acquiring => .ok (acquire settings call command s)
    | _ => .error ()

/-- No call has been made, and the key is free. -/
def start : Sys I := { now := 0, entry := none, phase := fun _ => .called, history := [] }

/-! ## At most one leader -/

/-- The instant from which an answer is as old as its lease. -/
def Ending.until (e : Ending I) : ℕ := e.instant + ttl settings e.call

/-- The last `True` of an instance. -/
def lastTrue (past : List (Ending I)) (i : I) : Option (Ending I) :=
  past.find? fun e => e.answer && decide (settings.instanceId e.call = i)

/-- A call leaves the lease of another instance alone; when it answers `True` its instance
    holds the lease, and the last `True` of every other one is as old as its lease. -/
structure Ending.Lawful (e : Ending I) (past : List (Ending I)) : Prop where
  spares : ∀ i, e.found = some i → i ≠ settings.instanceId e.call → e.left = some i
  holds : e.answer = true → e.left = some (settings.instanceId e.call)
  alone : e.answer = true → ∀ i, i ≠ settings.instanceId e.call →
    ∀ last, lastTrue settings past i = some last → last.until settings ≤ e.instant

def Lawful : List (Ending I) → Prop
  | [] => True
  | e :: past => e.Lawful settings past ∧ Lawful past

/-- The `SET` of a renewal finds the key free or still its own. -/
def Undisturbed (s : Sys I) : Action → Prop
  | .renew call command =>
    s.phase call = .renewing → command.applied = true → 0 < settings.ttlSeconds call →
      ∀ i, s.live = some i → i = settings.instanceId call
  | _ => True

/-- A renewal whose reply is lost asks for no less than what is left of its instance's last
    `True`. -/
def Extends (s : Sys I) : Action → Prop
  | .renew call command =>
    s.phase call = .renewing → command = .unanswered → 0 < settings.ttlSeconds call →
      ∀ last, lastTrue settings s.history (settings.instanceId call) = some last →
        last.until settings ≤ s.now + ttl settings call
  | _ => True

/-! ## What every command preserves -/

variable {settings : Settings I} {s s' : Sys I} {call : ℕ} {command : Command}

/-- A `True` that is younger than its lease has the key to show for it. -/
structure Inv (settings : Settings I) (s : Sys I) : Prop where
  lawful : Lawful settings s.history
  guarded : ∀ i last, lastTrue settings s.history i = some last → s.now < last.until settings →
    ∃ x, s.entry = some x ∧ x.value = i ∧ last.until settings ≤ x.expiresAt

omit [DecidableEq I] in
@[simp] theorem now_set : (set settings call s).now = s.now := by
  unfold set
  split <;> rfl

omit [DecidableEq I] in
@[simp] theorem history_set : (set settings call s).history = s.history := by
  unfold set
  split <;> rfl

omit [DecidableEq I] in
theorem history_setIf {applied : Bool} :
    (if applied then set settings call s else s).history = s.history := by
  split
  · exact history_set
  · rfl

omit [DecidableEq I] in
theorem live_set (h : 0 < settings.ttlSeconds call) :
    (set settings call s).live = some (settings.instanceId call) := by
  have h_ttl : 0 < ttl settings call := by
    unfold ttl
    omega
  unfold set Sys.live
  rw [if_pos h, Expiring.live_some, if_pos (Nat.lt_add_of_pos_right h_ttl)]

/-- The last `True` of an instance after a call has answered. -/
theorem lastTrue_cons {e : Ending I} {past : List (Ending I)} {i : I} {last : Ending I}
    (h : lastTrue settings (e :: past) i = some last) :
    (e.answer = true ∧ settings.instanceId e.call = i) ∧ last = e ∨
      ¬ (e.answer = true ∧ settings.instanceId e.call = i) ∧ lastTrue settings past i = some last := by
  unfold lastTrue at h ⊢
  rw [List.find?_cons] at h
  split at h
  · rename_i h_e
    rw [Bool.and_eq_true, decide_eq_true_eq] at h_e
    exact .inl ⟨h_e, (Option.some.inj h).symm⟩
  · rename_i h_e
    rw [Bool.and_eq_false_iff, decide_eq_false_iff_not] at h_e
    exact .inr ⟨fun h_both => h_e.elim (by simp [h_both.1]) (absurd h_both.2), h⟩

namespace Inv

theorem live_of_guarded (h : Inv settings s) {i : I} {last : Ending I}
    (h_last : lastTrue settings s.history i = some last) (h_now : s.now < last.until settings) :
    s.live = some i := by
  obtain ⟨x, h_x, h_value, h_until⟩ := h.guarded i last h_last h_now
  exact Expiring.live_eq_some_iff.mpr ⟨x, h_x, h_value, by omega⟩

theorem wait (h : Inv settings s) (duration : ℕ) :
    Inv settings { s with now := s.now + duration } where
  lawful := h.lawful
  guarded := by
    intro i last h_last h_now
    have h_before : s.now < last.until settings := Nat.lt_of_le_of_lt (Nat.le_add_right ..) h_now
    exact h.guarded i last h_last h_before

theorem goto (h : Inv settings s) (phase : Phase) : Inv settings (s.goto call phase) where
  lawful := h.lawful
  guarded := h.guarded

/-- A call that sets nothing, and answers `False`. -/
theorem conclude_false (h : Inv settings s) : Inv settings (s.conclude call false s.live) where
  lawful := by
    refine ⟨⟨fun _ h_found _ => h_found, ?_, ?_⟩, h.lawful⟩
    · intro h_answer
      cases h_answer
    · intro h_answer
      cases h_answer
  guarded := by
    intro i last h_last h_now
    rcases lastTrue_cons h_last with ⟨⟨h_answer, -⟩, -⟩ | ⟨-, h_last⟩
    · cases h_answer
    · exact h.guarded i last h_last h_now

theorem conclude_set (h : Inv settings s) {answer : Bool} (h_ttl : 0 < settings.ttlSeconds call)
    (h_live : ∀ i, s.live = some i → i = settings.instanceId call)
    (h_extends : answer = false → ∀ last,
      lastTrue settings s.history (settings.instanceId call) = some last →
        last.until settings ≤ s.now + ttl settings call) :
    Inv settings ((set settings call s).conclude call answer s.live) := by
  have h_entry : (set settings call s).entry =
      some { value := settings.instanceId call, expiresAt := s.now + ttl settings call } := by
    unfold set
    rw [if_pos h_ttl]
  -- whoever else was granted the lease would still hold it
  have h_others : ∀ i, i ≠ settings.instanceId call → ∀ last,
      lastTrue settings s.history i = some last → last.until settings ≤ s.now := by
    intro i h_ne last h_last
    by_contra h_young
    exact h_ne (h_live i (h.live_of_guarded h_last (by omega)))
  constructor
  · refine ⟨⟨fun i h_found h_ne => absurd (h_live i h_found) h_ne, fun _ => live_set h_ttl, ?_⟩, ?_⟩
    · intro _ i h_ne last h_last
      rw [history_set] at h_last
      exact le_of_le_of_eq (h_others i h_ne last h_last) now_set.symm
    · rw [history_set]
      exact h.lawful
  · intro i last h_last h_young
    refine ⟨_, h_entry, ?_⟩
    replace h_young : s.now < last.until settings := lt_of_eq_of_lt now_set.symm h_young
    rcases lastTrue_cons h_last with ⟨⟨-, h_i⟩, rfl⟩ | ⟨h_answer, h_last⟩
    · have h_until : (set settings call s).now + ttl settings call = s.now + ttl settings call := by
        rw [now_set]
      exact ⟨h_i, le_of_eq h_until⟩
    · rw [history_set] at h_last
      by_cases h_i : settings.instanceId call = i
      · subst h_i
        have h_lost : answer = false := by simpa using fun h => h_answer ⟨h, rfl⟩
        exact ⟨rfl, h_extends h_lost last h_last⟩
      · exact absurd (h_others i (Ne.symm h_i) last h_last) (by omega)

theorem get (h : Inv settings s) : Inv settings (get settings call command s) := by
  cases command with
  | answered => exact h.goto _
  | lost => exact h.conclude_false
  | unanswered => exact h.conclude_false

theorem renew (h : Inv settings s) (h_phase : s.phase call = .renewing)
    (h_undisturbed : Undisturbed settings s (.renew call command))
    (h_extends : Extends settings s (.renew call command)) :
    Inv settings (renew settings call command s) := by
  unfold Lease.renew
  by_cases h_ttl : 0 < settings.ttlSeconds call
  · cases command with
    | answered =>
      refine h.conclude_set h_ttl (h_undisturbed h_phase rfl h_ttl) ?_
      simp [h_ttl]
    | lost => exact h.conclude_false
    | unanswered =>
      exact h.conclude_set h_ttl (h_undisturbed h_phase rfl h_ttl) fun _ =>
        h_extends h_phase rfl h_ttl
  · simpa [h_ttl, set] using h.conclude_false

theorem acquire (h : Inv settings s) : Inv settings (acquire settings call command s) := by
  unfold Lease.acquire
  by_cases h_set : command.applied = true ∧ s.live = none ∧ 0 < settings.ttlSeconds call
  · obtain ⟨h_applied, h_free, h_ttl⟩ := h_set
    rw [if_pos (by simp [h_applied, h_free])]
    refine h.conclude_set h_ttl (by simp [h_free]) fun _ last h_last => ?_
    -- the key is free, so this instance has no young answer either
    by_contra h_young
    have h_held := h.live_of_guarded h_last (by omega)
    rw [h_free] at h_held
    cases h_held
  · have h_same : (if command.applied && s.live.isNone then set settings call s else s) = s := by
      split
      · rename_i h_free
        rw [Bool.and_eq_true, Option.isNone_iff_eq_none] at h_free
        exact if_neg fun h_ttl => h_set ⟨h_free.1, h_free.2, h_ttl⟩
      · rfl
    have h_answer : decide (command = .answered ∧ s.live.isNone ∧ 0 < settings.ttlSeconds call) =
        false := by
      rw [decide_eq_false_iff_not, Option.isNone_iff_eq_none]
      rintro ⟨rfl, h_free, h_ttl⟩
      exact h_set ⟨rfl, h_free, h_ttl⟩
    rw [h_same, h_answer]
    exact h.conclude_false

end Inv

theorem inv_step {a : Action} (h : Inv settings s)
    (h_meets : Undisturbed settings s a ∧ Extends settings s a) (h_step : step settings s a = .ok s') :
    Inv settings s' := by
  cases a with
  | wait duration =>
    cases h_step
    exact h.wait duration
  | getClient call reachable =>
    simp only [step] at h_step
    split at h_step
    · cases h_step
      split
      · exact h.goto _
      · exact h.conclude_false
    · cases h_step
  | get call command =>
    simp only [step] at h_step
    split at h_step
    · cases h_step
      exact h.get
    · cases h_step
  | renew call command =>
    simp only [step] at h_step
    split at h_step
    · rename_i h_phase
      cases h_step
      exact h.renew h_phase h_meets.1 h_meets.2
    · cases h_step
  | acquire call command =>
    simp only [step] at h_step
    split at h_step
    · cases h_step
      exact h.acquire
    · cases h_step

theorem inv_start : Inv settings start where
  lawful := trivial
  guarded := by
    intro i last h_last
    cases h_last

/-! ## The renewal that comes too late -/

theorem history_step {a : Action} (h_step : step settings s a = .ok s') :
    s'.history = s.history ∨ ∃ e, s'.history = e :: s.history := by
  cases a with
  | wait duration =>
    cases h_step
    exact .inl rfl
  | getClient call reachable =>
    simp only [step] at h_step
    split at h_step
    · cases h_step
      split
      · exact .inl rfl
      · exact .inr ⟨_, rfl⟩
    · cases h_step
  | get call command =>
    simp only [step] at h_step
    split at h_step
    · cases h_step
      cases command with
      | answered => exact .inl rfl
      | lost => exact .inr ⟨_, rfl⟩
      | unanswered => exact .inr ⟨_, rfl⟩
    · cases h_step
  | renew call command =>
    simp only [step] at h_step
    split at h_step
    · cases h_step
      exact .inr ⟨_, congrArg (List.cons _) history_setIf⟩
    · cases h_step
  | acquire call command =>
    simp only [step] at h_step
    split at h_step
    · cases h_step
      exact .inr ⟨_, congrArg (List.cons _) history_setIf⟩
    · cases h_step

theorem lawful_of_step {a : Action} (h_step : step settings s a = .ok s')
    (h : Lawful settings s'.history) : Lawful settings s.history := by
  rcases history_step h_step with h_same | ⟨e, h_more⟩
  · rwa [h_same] at h
  · rw [h_more] at h
    exact h.2

theorem lawful_of_final (actions : List Action)
    (h : Lawful settings (Run.final (step settings) s actions).history) :
    Lawful settings s.history := by
  induction actions generalizing s with
  | nil => exact h
  | cons a rest ih =>
    have h_next := ih h
    unfold Run.attempt at h_next
    split at h_next
    · rename_i s' h_step
      exact lawful_of_step h_step h_next
    · exact h_next

theorem undisturbed_of_lawful {a : Action}
    (h : Lawful settings (Run.attempt (step settings) s a).history) : Undisturbed settings s a := by
  cases a with
  | renew call command =>
    intro h_phase h_applied h_ttl i h_live
    unfold Run.attempt at h
    simp only [step, h_phase, Lease.renew, h_applied, if_true] at h
    by_contra h_ne
    have h_left := h.1.spares i h_live h_ne
    exact h_ne (Option.some.inj ((live_set h_ttl).symm.trans h_left)).symm
  | wait duration => trivial
  | getClient call reachable => trivial
  | get call command => trivial
  | acquire call command => trivial

/-- Two instances with a lease of half a minute. -/
def twoInstances : Settings ℕ where
  instanceId call := if call = 2 then 1 else 0
  ttlSeconds _ := 30

/-- The holder reads its own lease, the lease runs out, and another instance takes it before
    the holder's `SET` arrives. -/
def lateRenewal : List Action :=
  [.getClient 0 true, .get 0 .answered, .acquire 0 .answered, .getClient 1 true,
    .get 1 .answered, .wait 30000, .getClient 2 true, .get 2 .answered, .acquire 2 .answered,
    .renew 1 .answered]

end VyomQuant.Lease
