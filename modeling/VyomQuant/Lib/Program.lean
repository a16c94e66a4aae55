/-
  VyomQuant.Lib.Program

  Programs over a store, as trees of the operations they issue: a program returns,
  raises, or issues an operation and continues with its answer, which may itself
  be a failure.  One tree has every execution the operations allow:

    * `run` executes it alone, each operation answered by a handler;
    * `runWith` executes it while an oracle makes chosen operations fail before
      they have any effect;
    * `Optimistic.Step` lets many programs issue operations in any order, one
      operation being one atomic step.
-/

import Mathlib.Data.Nat.Notation
import Mathlib.Logic.Function.Basic
import Mathlib.Logic.Relation

/-- A program issuing operations `Op` with answers `Res`, raising `ε`, returning `α`. -/
inductive Program {Op : Type} (Res : Op → Type) (ε α : Type) : Type where
  | ret (a : α)
  | raise (e : ε)
  | call (op : Op) (next : Except ε (Res op) → Program Res ε α)

namespace Program

variable {Op : Type} {Res : Op → Type} {ε α β σ : Type}

/-- Sequencing. -/
def bind : Program Res ε α → (α → Program Res ε β) → Program Res ε β
  | ret a, f => f a
  | raise e, _ => raise e
  | call op next, f => call op fun answer => (next answer).bind f

/-- Handling of what a program raises. -/
def tryCatch : Program Res ε α → (ε → Program Res ε α) → Program Res ε α
  | ret a, _ => ret a
  | raise e, recover => recover e
  | call op next, recover => call op fun answer => (next answer).tryCatch recover

instance : Monad (Program Res ε) where
  pure := ret
  bind := bind

/-- Issue one operation and return its answer, or raise its failure. -/
def perform (op : Op) : Program Res ε (Res op) :=
  call op fun
    | .ok answer => ret answer
    | .error e => raise e

/-- A pure computation as a program. -/
def lift : Except ε α → Program Res ε α
  | .ok a => ret a
  | .error e => raise e

/-- A guard: raise `e` when `c` holds. -/
def refuseIf (c : Prop) [Decidable c] (e : ε) : Program Res ε Unit :=
  if c then raise e else ret ()

@[simp] theorem pure_eq_ret (a : α) : (pure a : Program Res ε α) = ret a := rfl

@[simp] theorem bind_eq_bind (p : Program Res ε α) (f : α → Program Res ε β) :
    (p >>= f) = p.bind f := rfl

@[simp] theorem ret_bind (a : α) (f : α → Program Res ε β) : (ret a).bind f = f a := rfl

@[simp] theorem raise_bind (e : ε) (f : α → Program Res ε β) :
    (raise e : Program Res ε α).bind f = raise e := rfl

@[simp] theorem call_bind (op : Op) (next : Except ε (Res op) → Program Res ε α)
    (f : α → Program Res ε β) :
    (call op next).bind f = call op fun answer => (next answer).bind f := rfl

@[simp] theorem ret_tryCatch (a : α) (recover : ε → Program Res ε α) :
    (ret a).tryCatch recover = ret a := rfl

@[simp] theorem raise_tryCatch (e : ε) (recover : ε → Program Res ε α) :
    (raise e).tryCatch recover = recover e := rfl

@[simp] theorem call_tryCatch (op : Op) (next : Except ε (Res op) → Program Res ε α)
    (recover : ε → Program Res ε α) :
    (call op next).tryCatch recover
      = call op fun answer => (next answer).tryCatch recover := rfl

theorem bind_assoc {γ : Type} (p : Program Res ε α) (f : α → Program Res ε β)
    (g : β → Program Res ε γ) : (p.bind f).bind g = p.bind fun a => (f a).bind g := by
  induction p with
  | ret a => rfl
  | raise e => rfl
  | call op next ih =>
    rw [call_bind, call_bind, call_bind]
    congr 1
    funext answer
    exact ih answer

/-! ## Sequential execution -/

/-- The state of the store survives a failure: the answer and the state are
    returned side by side. -/
abbrev Handler (Res : Op → Type) (ε σ : Type) :=
  (op : Op) → σ → Except ε (Res op) × σ

/-- Execute a program alone. -/
def run (handle : Handler Res ε σ) : Program Res ε α → σ → Except ε α × σ
  | ret a, s => (.ok a, s)
  | raise e, s => (.error e, s)
  | call op next, s => (next (handle op s).1).run handle (handle op s).2

variable {handle : Handler Res ε σ}

@[simp] theorem run_ret (a : α) (s : σ) :
    (ret a : Program Res ε α).run handle s = (.ok a, s) := rfl

@[simp] theorem run_raise (e : ε) (s : σ) :
    (raise e : Program Res ε α).run handle s = (.error e, s) := rfl

@[simp] theorem run_call (op : Op) (next : Except ε (Res op) → Program Res ε α) (s : σ) :
    (call op next).run handle s = (next (handle op s).1).run handle (handle op s).2 := rfl

theorem run_bind (p : Program Res ε α) (f : α → Program Res ε β) (s : σ) :
    (p.bind f).run handle s = match p.run handle s with
      | (.ok a, s') => (f a).run handle s'
      | (.error e, s') => (.error e, s') := by
  induction p generalizing s with
  | ret a => rfl
  | raise e => rfl
  | call op next ih => exact ih _ _

theorem run_tryCatch (p : Program Res ε α) (recover : ε → Program Res ε α) (s : σ) :
    (p.tryCatch recover).run handle s = match p.run handle s with
      | (.ok a, s') => (.ok a, s')
      | (.error e, s') => (recover e).run handle s' := by
  induction p generalizing s with
  | ret a => rfl
  | raise e => rfl
  | call op next ih => exact ih _ _

theorem run_bind_eq_ok {p : Program Res ε α} {f : α → Program Res ε β} {s s'' : σ} {b : β} :
    (p.bind f).run handle s = (.ok b, s'') ↔
      ∃ a s', p.run handle s = (.ok a, s') ∧ (f a).run handle s' = (.ok b, s'') := by
  rw [run_bind]
  constructor
  · intro h
    split at h
    · rename_i a s' h_p
      exact ⟨a, s', h_p, h⟩
    · cases h
  · rintro ⟨a, s', h_p, h_f⟩
    rw [h_p]
    exact h_f

theorem run_perform (op : Op) (s : σ) :
    (perform op : Program Res ε (Res op)).run handle s = handle op s := by
  unfold perform
  rw [run_call]
  cases h : handle op s with
  | mk answer s' => cases answer <;> rfl

theorem run_lift (x : Except ε α) (s : σ) : (lift x : Program Res ε α).run handle s = (x, s) := by
  cases x <;> rfl

theorem run_lift_eq_ok {x : Except ε α} {s s' : σ} {a : α} :
    (lift x : Program Res ε α).run handle s = (.ok a, s') ↔ x = .ok a ∧ s' = s := by
  rw [run_lift, Prod.mk.injEq, @eq_comm _ s]

/-! ## Execution under injected failures -/

/-- Execute a program while the oracle decides, by the number of the operation,
    whether it fails before it has any effect. -/
def runWith (handle : Handler Res ε σ) (oracle : ℕ → Option ε) :
    Program Res ε α → ℕ → σ → Except ε α × ℕ × σ
  | ret a, n, s => (.ok a, n, s)
  | raise e, n, s => (.error e, n, s)
  | call op next, n, s =>
    match oracle n with
    | some e => (next (.error e)).runWith handle oracle (n + 1) s
    | none => (next (handle op s).1).runWith handle oracle (n + 1) (handle op s).2

/-! ## Retries -/

/-- Run `attempt` up to `n` times as long as it raises something retryable. -/
def retrying (retryable : ε → Bool) (exhausted : ε) (attempt : Program Res ε α) :
    ℕ → Program Res ε α
  | 0 => raise exhausted
  | n + 1 => attempt.tryCatch fun e =>
      if retryable e then retrying retryable exhausted attempt n else raise e

theorem run_retrying_of_ok {retryable : ε → Bool} {exhausted : ε} {attempt : Program Res ε α}
    {n : ℕ} {s s' : σ} {a : α} (h : attempt.run handle s = (.ok a, s')) :
    (retrying retryable exhausted attempt (n + 1)).run handle s = (.ok a, s') := by
  rw [retrying, run_tryCatch, h]

/-! ## What a program returns -/

/-- Whatever the program is answered, it returns in `R` if it returns. -/
def Returns (R : α → Prop) : Program Res ε α → Prop
  | ret a => R a
  | raise _ => True
  | call _ next => ∀ answer, (next answer).Returns R

namespace Returns

variable {R R' : α → Prop} {p : Program Res ε α}

theorem trivial_of (h : ∀ a, R a) (p : Program Res ε α) : p.Returns R := by
  induction p with
  | ret a => exact h a
  | raise e => trivial
  | call op next ih => exact ih

theorem mono (h : p.Returns R) (h_R : ∀ a, R a → R' a) : p.Returns R' := by
  induction p with
  | ret a => exact h_R a h
  | raise e => trivial
  | call op next ih => exact fun answer => ih answer (h answer)

theorem bind {f : α → Program Res ε β} {R : β → Prop}
    (h : p.Returns fun a => (f a).Returns R) : (p.bind f).Returns R := by
  induction p with
  | ret a => exact h
  | raise e => trivial
  | call op next ih => exact fun answer => ih answer (h answer)

theorem tryCatch {recover : ε → Program Res ε α} (h : p.Returns R)
    (h_recover : ∀ e, (recover e).Returns R) : (p.tryCatch recover).Returns R := by
  induction p with
  | ret a => exact h
  | raise e => exact h_recover e
  | call op next ih => exact fun answer => ih answer (h answer)

theorem perform_bind {op : Op} {f : Res op → Program Res ε α} (h : ∀ answer, (f answer).Returns R) :
    ((perform op).bind f).Returns R := by
  intro answer
  cases answer with
  | ok answer => exact h answer
  | error e => trivial

theorem lift_bind {x : Except ε β} {f : β → Program Res ε α}
    (h : ∀ b, x = .ok b → (f b).Returns R) : ((Program.lift x).bind f).Returns R := by
  cases x with
  | ok b => exact h b rfl
  | error e => trivial

theorem refuseIf_bind {c : Prop} [Decidable c] {e : ε} {f : Unit → Program Res ε α}
    (h : (f ()).Returns R) : ((Program.refuseIf c e).bind f).Returns R := by
  unfold Program.refuseIf
  split
  · trivial
  · exact h

theorem retrying {retryable : ε → Bool} {exhausted : ε} {attempt : Program Res ε α}
    (h : attempt.Returns R) (n : ℕ) :
    (Program.retrying retryable exhausted attempt n).Returns R := by
  induction n with
  | zero => trivial
  | succ n ih =>
    refine h.tryCatch fun e => ?_
    show Returns R (if retryable e then _ else _)
    split
    · exact ih
    · trivial

end Returns

end Program
