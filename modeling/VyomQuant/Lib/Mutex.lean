/-
  VyomQuant.Lib.Mutex

  Computations over a state under one non-reentrant lock.  A computation knows
  whether its caller holds the lock; acquiring a held lock never returns, and
  leaving a locked section, by a return or by an exception, releases it, so
  between two calls the lock is free unless a call is blocked for good.
-/

import Mathlib.Data.Nat.Notation
import Mathlib.Tactic.TypeStar

namespace Mutex

/-- How a computation ends, with the state that it leaves. -/
inductive Outcome (σ α : Type*) where
  | returned (a : α) (s : σ)
  | raised (s : σ)
  | blocked (s : σ)

/-- A computation over `σ`; the first argument tells whether the lock is held. -/
def Guarded (σ α : Type*) := Bool → σ → Outcome σ α

namespace Guarded

variable {σ α β : Type}

def pure (a : α) : Guarded σ α := fun _ s => .returned a s

def bind (m : Guarded σ α) (f : α → Guarded σ β) : Guarded σ β := fun held s =>
  match m held s with
  | .returned a s' => f a held s'
  | .raised s' => .raised s'
  | .blocked s' => .blocked s'

instance : Monad (Guarded σ) where
  pure := pure
  bind := bind

def get : Guarded σ σ := fun _ s => .returned s s

def modify (f : σ → σ) : Guarded σ Unit := fun _ s => .returned () (f s)

/-- An exception where `c` holds. -/
def raiseIf (c : Prop) [Decidable c] : Guarded σ Unit := fun _ s =>
  if c then .raised s else .returned () s

/-- A section of the lock: entered while the lock is held, it never returns. -/
def withLock (body : Guarded σ α) : Guarded σ α := fun held s =>
  if held then .blocked s else body true s

/-! ## What each operation does -/

@[simp] theorem pure_apply (a : α) (held : Bool) (s : σ) :
    (Pure.pure a : Guarded σ α) held s = .returned a s := rfl

@[simp] theorem bind_apply (m : Guarded σ α) (f : α → Guarded σ β) (held : Bool) (s : σ) :
    (m >>= f) held s = match m held s with
      | .returned a s' => f a held s'
      | .raised s' => .raised s'
      | .blocked s' => .blocked s' := rfl

@[simp] theorem get_apply (held : Bool) (s : σ) :
    (get : Guarded σ σ) held s = .returned s s := rfl

@[simp] theorem modify_apply (f : σ → σ) (held : Bool) (s : σ) :
    modify f held s = .returned () (f s) := rfl

@[simp] theorem withLock_free (body : Guarded σ α) (s : σ) :
    withLock body false s = body true s := rfl

@[simp] theorem withLock_held (body : Guarded σ α) (s : σ) :
    withLock body true s = .blocked s := rfl

end Guarded

namespace Outcome

variable {σ α : Type}

/-- The state that the computation leaves. -/
def state : Outcome σ α → σ
  | returned _ s => s
  | raised s => s
  | blocked s => s

def Returned : Outcome σ α → Prop
  | returned _ _ => True
  | raised _ => False
  | blocked _ => False

instance : (o : Outcome σ α) → Decidable o.Returned
  | returned _ _ => .isTrue trivial
  | raised _ => .isFalse id
  | blocked _ => .isFalse id

@[simp] theorem returned_state (a : α) (s : σ) : (returned a s).state = s := rfl

@[simp] theorem raised_state (s : σ) : (raised s : Outcome σ α).state = s := rfl

@[simp] theorem blocked_state (s : σ) : (blocked s : Outcome σ α).state = s := rfl

@[simp] theorem returned_returned (a : α) (s : σ) : (returned a s).Returned := trivial

@[simp] theorem not_returned_raised (s : σ) : ¬ (raised s : Outcome σ α).Returned := id

@[simp] theorem not_returned_blocked (s : σ) : ¬ (blocked s : Outcome σ α).Returned := id

@[simp] theorem bind_pure_state {β : Type} (m : Guarded σ α) (f : α → β) (held : Bool) (s : σ) :
    ((m >>= fun a => Pure.pure (f a)) held s).state = (m held s).state := by
  rw [Guarded.bind_apply]
  cases m held s <;> rfl

@[simp] theorem bind_pure_returned {β : Type} (m : Guarded σ α) (f : α → β) (held : Bool)
    (s : σ) : ((m >>= fun a => Pure.pure (f a)) held s).Returned ↔ (m held s).Returned := by
  rw [Guarded.bind_apply]
  cases m held s <;> rfl

end Outcome

/-! ## Sequences of calls -/

/-- One call of a sequence: the state it meets and how it ends. -/
structure Event (σ ι α : Type*) where
  before : σ
  call : ι
  outcome : Outcome σ α

variable {σ ι α : Type}

/-- The calls of a sequence on a lock that is free at first.  A raised call leaves
    its state to the next one; after a call that blocks there is none. -/
def trace (perform : ι → Guarded σ α) : σ → List ι → List (Event σ ι α)
  | _, [] => []
  | s, c :: rest =>
    ⟨s, c, perform c false s⟩ ::
      match perform c false s with
      | .returned _ s' => trace perform s' rest
      | .raised s' => trace perform s' rest
      | .blocked _ => []

variable {perform : ι → Guarded σ α}

theorem trace_invariant {I : σ → Prop} (h_step : ∀ s c, I s → I (perform c false s).state)
    {s : σ} (h_init : I s) (calls : List ι) : ∀ e ∈ trace perform s calls, I e.before := by
  induction calls generalizing s with
  | nil => simp [trace]
  | cons c rest ih =>
    intro e h_e
    have h_next := h_step s c h_init
    unfold trace at h_e
    obtain rfl | h_e := List.mem_cons.mp h_e
    · exact h_init
    · cases h : perform c false s with
      | returned a s' =>
        rw [h] at h_e h_next
        exact ih h_next e h_e
      | raised s' =>
        rw [h] at h_e h_next
        exact ih h_next e h_e
      | blocked s' =>
        rw [h] at h_e
        cases h_e

theorem outcome_of_mem_trace {s : σ} {calls : List ι} :
    ∀ e ∈ trace perform s calls, e.outcome = perform e.call false e.before := by
  induction calls generalizing s with
  | nil => simp [trace]
  | cons c rest ih =>
    intro e h_e
    unfold trace at h_e
    obtain rfl | h_e := List.mem_cons.mp h_e
    · rfl
    · cases h : perform c false s with
      | returned a s' =>
        rw [h] at h_e
        exact ih e h_e
      | raised s' =>
        rw [h] at h_e
        exact ih e h_e
      | blocked s' =>
        rw [h] at h_e
        cases h_e

/-- What comes after an event of a sequence is a sequence from the state it left. -/
theorem trace_after {s : σ} {calls : List ι} {pre post : List (Event σ ι α)}
    {e : Event σ ι α} (h : trace perform s calls = pre ++ e :: post) :
    ∃ rest, post = trace perform e.outcome.state rest := by
  induction calls generalizing s pre with
  | nil =>
    rw [trace] at h
    exact absurd h.symm (by simp)
  | cons c calls ih =>
    unfold trace at h
    cases pre with
    | nil =>
      obtain ⟨rfl, h_post⟩ := List.cons_eq_cons.mp h
      cases h_c : perform c false s with
      | returned a s' =>
        rw [h_c] at h_post
        exact ⟨calls, h_post.symm⟩
      | raised s' =>
        rw [h_c] at h_post
        exact ⟨calls, h_post.symm⟩
      | blocked s' =>
        rw [h_c] at h_post
        exact ⟨[], h_post.symm⟩
    | cons d pre =>
      rw [List.cons_append] at h
      obtain ⟨-, h_rest⟩ := List.cons_eq_cons.mp h
      cases h_c : perform c false s with
      | returned a s' =>
        rw [h_c] at h_rest
        exact ih h_rest
      | raised s' =>
        rw [h_c] at h_rest
        exact ih h_rest
      | blocked s' =>
        rw [h_c] at h_rest
        exact absurd h_rest.symm (by simp)

end Mutex
