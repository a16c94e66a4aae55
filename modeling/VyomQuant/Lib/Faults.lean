/-
  VyomQuant.Lib.Faults

  What a program ensures when any of its operations may fail before it has any effect.

  `Ensures` is the weakest precondition of a program against every placement of such
  failures: one postcondition for a return and one for an exception.  `Ensures.runWith`
  says that it covers every oracle of `runWith`, and `Ensures.run` that it covers the
  execution without failures.  `Reads` is the other direction: what one given oracle
  does to a program that first only reads.
-/

import VyomQuant.Lib.Program

namespace Program

variable {Op : Type} {Res : Op → Type} {ε α β σ : Type}

/-! ## Against every placement of failures -/

/-- An execution that returned ended in `R`, and one that raised in `E`. -/
def Ends (R : α → σ → Prop) (E : ε → σ → Prop) : Except ε α → σ → Prop
  | .ok a, s => R a s
  | .error e, s => E e s

/-- However the operations of the program fail with `faults`, it returns into `R` or
    raises into `E`. -/
def Ensures (handle : Handler Res ε σ) (faults : ε → Prop) (R : α → σ → Prop)
    (E : ε → σ → Prop) : Program Res ε α → σ → Prop
  | ret a, s => R a s
  | raise e, s => E e s
  | call op next, s =>
    (next (handle op s).1).Ensures handle faults R E (handle op s).2 ∧
      ∀ e, faults e → (next (.error e)).Ensures handle faults R E s

namespace Ensures

variable {handle : Handler Res ε σ} {faults : ε → Prop} {R R' : α → σ → Prop}
  {E E' : ε → σ → Prop} {s : σ}

theorem mono {p : Program Res ε α} (h : p.Ensures handle faults R E s)
    (h_ok : ∀ a s, R a s → R' a s) (h_error : ∀ e s, E e s → E' e s) :
    p.Ensures handle faults R' E' s := by
  induction p generalizing s with
  | ret a => exact h_ok a s h
  | raise e => exact h_error e s h
  | call op next ih => exact ⟨ih _ h.1, fun e h_e => ih _ (h.2 e h_e)⟩

theorem bind {p : Program Res ε α} {f : α → Program Res ε β} {R : β → σ → Prop}
    (h : p.Ensures handle faults (fun a s => (f a).Ensures handle faults R E s) E s) :
    (p.bind f).Ensures handle faults R E s := by
  induction p generalizing s with
  | ret a => exact h
  | raise e => exact h
  | call op next ih => exact ⟨ih _ h.1, fun e h_e => ih _ (h.2 e h_e)⟩

theorem tryCatch {p : Program Res ε α} {recover : ε → Program Res ε α}
    (h : p.Ensures handle faults R (fun e s => (recover e).Ensures handle faults R E s) s) :
    (p.tryCatch recover).Ensures handle faults R E s := by
  induction p generalizing s with
  | ret a => exact h
  | raise e => exact h
  | call op next ih => exact ⟨ih _ h.1, fun e h_e => ih _ (h.2 e h_e)⟩

/-- An operation that answers `answer` and may fail. -/
theorem perform {op : Op} {R : Res op → σ → Prop}
    (h_ok : ∀ answer s', handle op s = (.ok answer, s') → R answer s')
    (h_error : ∀ e s', handle op s = (.error e, s') → E e s')
    (h_fault : ∀ e, faults e → E e s) :
    (Program.perform op).Ensures handle faults R E s := by
  refine ⟨?_, h_fault⟩
  rcases h : handle op s with ⟨answer | answer, s'⟩
  · exact h_error _ _ h
  · exact h_ok _ _ h

theorem lift {x : Except ε α} (h_ok : ∀ a, x = .ok a → R a s)
    (h_error : ∀ e, x = .error e → E e s) : (Program.lift x).Ensures handle faults R E s := by
  cases x with
  | ok a => exact h_ok a rfl
  | error e => exact h_error e rfl

theorem refuseIf {c : Prop} [Decidable c] {e : ε} {R : Unit → σ → Prop} (h_ok : ¬ c → R () s)
    (h_error : c → E e s) : (Program.refuseIf c e).Ensures handle faults R E s := by
  unfold Program.refuseIf
  split
  · rename_i h_c
    exact h_error h_c
  · rename_i h_c
    exact h_ok h_c

theorem retrying {retryable : ε → Bool} {exhausted : ε} {attempt : Program Res ε α}
    (I : σ → Prop)
    (h_attempt : ∀ s, I s → attempt.Ensures handle faults R
      (fun e s => if retryable e then I s else E e s) s)
    (h_exhausted : ∀ s, I s → E exhausted s) (n : ℕ) (h : I s) :
    (Program.retrying retryable exhausted attempt n).Ensures handle faults R E s := by
  induction n generalizing s with
  | zero => exact h_exhausted s h
  | succ n ih =>
    apply tryCatch
    refine (h_attempt s h).mono (fun _ _ h_ok => h_ok) fun e s' h_e => ?_
    cases h_retry : retryable e with
    | false =>
      rw [h_retry] at h_e
      exact h_e
    | true =>
      rw [h_retry] at h_e
      exact ih h_e

theorem invariant {I : σ → Prop} (h_op : ∀ op s, I s → I (handle op s).2) (p : Program Res ε α)
    (h : I s) : p.Ensures handle faults (fun _ => I) (fun _ => I) s := by
  induction p generalizing s with
  | ret a => exact h
  | raise e => exact h
  | call op next ih => exact ⟨ih _ (h_op op s h), fun e _ => ih _ h⟩

/-- `Ensures` covers every oracle that only fails operations with `faults`. -/
theorem runWith {p : Program Res ε α} {oracle : ℕ → Option ε}
    (h : p.Ensures handle faults R E s) (h_oracle : ∀ n e, oracle n = some e → faults e) (n : ℕ) :
    Ends R E (p.runWith handle oracle n s).1 (p.runWith handle oracle n s).2.2 := by
  induction p generalizing s n with
  | ret a => exact h
  | raise e => exact h
  | call op next ih =>
    rw [Program.runWith]
    cases h_fault : oracle n with
    | some e => exact ih _ (h.2 e (h_oracle n e h_fault)) (n + 1)
    | none => exact ih _ h.1 (n + 1)

end Ensures

/-! ## Programs that give up -/

/-- A program that handles none of `faults`: an operation that fails with one ends it. -/
inductive GivesUp (faults : ε → Prop) : Program Res ε α → Prop
  | ret (a : α) : GivesUp faults (.ret a)
  | raise (e : ε) : GivesUp faults (.raise e)
  | call {op : Op} {next : Except ε (Res op) → Program Res ε α}
      (h_fault : ∀ e, faults e → next (.error e) = .raise e)
      (h_next : ∀ answer, GivesUp faults (next answer)) : GivesUp faults (.call op next)

namespace GivesUp

variable {faults : ε → Prop}

theorem perform (op : Op) : GivesUp faults (Program.perform op : Program Res ε (Res op)) :=
  .call (fun _ _ => rfl) fun answer => by
    cases answer with
    | ok answer => exact .ret answer
    | error e => exact .raise e

theorem lift (x : Except ε α) : GivesUp faults (Program.lift x : Program Res ε α) := by
  cases x with
  | ok a => exact .ret a
  | error e => exact .raise e

theorem bind {p : Program Res ε α} {f : α → Program Res ε β} (h : GivesUp faults p)
    (h_f : ∀ a, GivesUp faults (f a)) : GivesUp faults (p.bind f) := by
  induction h with
  | ret a => exact h_f a
  | raise e => exact .raise e
  | @call op next h_fault _ ih =>
    refine .call (fun e h_e => ?_) ih
    rw [h_fault e h_e]
    rfl

end GivesUp

/-! ## Under one oracle -/

section Oracle

variable (handle : Handler Res ε σ) (oracle : ℕ → Option ε)

theorem runWith_bind (p : Program Res ε α) (f : α → Program Res ε β) (n : ℕ) (s : σ) :
    (p.bind f).runWith handle oracle n s = match p.runWith handle oracle n s with
      | (.ok a, n', s') => (f a).runWith handle oracle n' s'
      | (.error e, n', s') => (.error e, n', s') := by
  induction p generalizing n s with
  | ret a => rfl
  | raise e => rfl
  | call op next ih =>
    rw [call_bind, runWith, runWith]
    split
    · exact ih _ _ _
    · exact ih _ _ _

theorem runWith_tryCatch (p : Program Res ε α) (recover : ε → Program Res ε α) (n : ℕ) (s : σ) :
    (p.tryCatch recover).runWith handle oracle n s = match p.runWith handle oracle n s with
      | (.ok a, n', s') => (.ok a, n', s')
      | (.error e, n', s') => (recover e).runWith handle oracle n' s' := by
  induction p generalizing n s with
  | ret a => rfl
  | raise e => rfl
  | call op next ih =>
    rw [call_tryCatch, runWith, runWith]
    split
    · exact ih _ _ _
    · exact ih _ _ _

theorem runWith_perform_bind (op : Op) (f : Res op → Program Res ε α) (n : ℕ) (s : σ) :
    ((perform op).bind f).runWith handle oracle n s = match oracle n with
      | some e => (.error e, n + 1, s)
      | none => match handle op s with
        | (.ok answer, s') => (f answer).runWith handle oracle (n + 1) s'
        | (.error e, s') => (.error e, n + 1, s') := by
  rw [perform, call_bind, runWith]
  cases oracle n with
  | some e => rfl
  | none => rcases handle op s with ⟨e | answer, s'⟩ <;> rfl

theorem runWith_retrying_succ (retryable : ε → Bool) (exhausted : ε) (attempt : Program Res ε α)
    (k n : ℕ) (s : σ) :
    (retrying retryable exhausted attempt (k + 1)).runWith handle oracle n s
      = match attempt.runWith handle oracle n s with
        | (.ok a, n', s') => (.ok a, n', s')
        | (.error e, n', s') =>
          if retryable e then (retrying retryable exhausted attempt k).runWith handle oracle n' s'
          else (.error e, n', s') := by
  rw [retrying, runWith_tryCatch]
  rcases attempt.runWith handle oracle n s with ⟨e | a, n', s'⟩
  · show Program.runWith _ _ (if retryable e then _ else _) n' s' = if retryable e then _ else _
    split <;> rfl
  · rfl

/-- The first of `k` operations from the `n`-th on that fails: the number of the operation
    after it, and its failure. -/
def firstFailure : ℕ → ℕ → Option (ℕ × ε)
  | _, 0 => none
  | n, k + 1 =>
    match oracle n with
    | some e => some (n + 1, e)
    | none => firstFailure (n + 1) k

/-- On the store `s`, the program issues `k` operations that leave it as it is, raising
    the failure of any of them, and goes on as `q`. -/
inductive Reads (s : σ) : ℕ → Program Res ε α → Program Res ε α → Prop
  | done (q : Program Res ε α) : Reads s 0 q q
  | read (op : Op) (answer : Res op) {f : Res op → Program Res ε α} {k : ℕ}
      {q : Program Res ε α} (h : handle op s = (.ok answer, s)) (h_rest : Reads s k (f answer) q) :
      Reads s (k + 1) ((perform op).bind f) q

/-- Whether, of `k` attempts from the `n`-th operation on that each end with their first
    failure, one gets through its first `steps` operations. -/
def reaches (steps : ℕ) : ℕ → ℕ → Bool
  | 0, _ => false
  | k + 1, n =>
    match firstFailure oracle n steps with
    | none => true
    | some (m, _) => reaches steps k m

variable {handle oracle}

theorem firstFailure_succ (n k : ℕ) : firstFailure oracle n (k + 1) =
    (firstFailure oracle n k).or ((oracle (n + k)).map fun e => (n + k + 1, e)) := by
  induction k generalizing n with
  | zero =>
    show (match oracle n with | some e => some (n + 1, e) | none => none) = _
    rw [Nat.add_zero]
    cases h : oracle n <;> rfl
  | succ k ih =>
    show (match oracle n with | some e => some (n + 1, e) | none => firstFailure oracle (n + 1) (k + 1))
      = (match oracle n with | some e => some (n + 1, e) | none => firstFailure oracle (n + 1) k).or _
    rw [ih (n + 1), Nat.add_assoc n 1 k, Nat.add_comm 1 k]
    cases oracle n <;> rfl

theorem Reads.runWith {s : σ} {k : ℕ} {p q : Program Res ε α} (h : Reads handle s k p q) (n : ℕ) :
    p.runWith handle oracle n s = match firstFailure oracle n k with
      | some (m, e) => (.error e, m, s)
      | none => q.runWith handle oracle (n + k) s := by
  induction h generalizing n with
  | done q => rfl
  | @read op answer f k q h_handle _ ih =>
    rw [perform, call_bind, Program.runWith, firstFailure]
    cases oracle n with
    | some e => rfl
    | none =>
      simp only [h_handle, ret_bind]
      rw [ih (n + 1), Nat.add_assoc, Nat.add_comm 1 k]

theorem firstFailure_mem {n k m : ℕ} {e : ε} (h : firstFailure oracle n k = some (m, e)) :
    ∃ i, oracle i = some e := by
  induction k generalizing n with
  | zero => cases h
  | succ k ih =>
    unfold firstFailure at h
    split at h
    · rename_i e' h_oracle
      cases h
      exact ⟨n, h_oracle⟩
    · exact ih h

section Retried

variable {retryable : ε → Bool} {exhausted : ε} {attempt : Program Res ε α} {steps : ℕ} {s : σ}

theorem runWith_retrying_again {k n m : ℕ} {s t : σ} {e : ε}
    (h : attempt.runWith handle oracle n s = (.error e, m, t)) (h_retry : retryable e = true) :
    (retrying retryable exhausted attempt (k + 1)).runWith handle oracle n s
      = (retrying retryable exhausted attempt k).runWith handle oracle m t := by
  rw [runWith_retrying_succ, h]
  exact if_pos h_retry

theorem runWith_retrying_refused {k n m : ℕ} {s t : σ} {e : ε}
    (h : attempt.runWith handle oracle n s = (.error e, m, t)) (h_final : ¬ retryable e = true) :
    (retrying retryable exhausted attempt (k + 1)).runWith handle oracle n s = (.error e, m, t) := by
  rw [runWith_retrying_succ, h]
  exact if_neg h_final

theorem runWith_retrying_returned {k n m : ℕ} {s t : σ} {a : α}
    (h : attempt.runWith handle oracle n s = (.ok a, m, t)) :
    (retrying retryable exhausted attempt (k + 1)).runWith handle oracle n s = (.ok a, m, t) := by
  rw [runWith_retrying_succ, h]

theorem runWith_retrying_of_not_reaches
    (h_oracle : ∀ n e, oracle n = some e → retryable e = true)
    (h_attempt : ∀ n m e, firstFailure oracle n steps = some (m, e) →
      attempt.runWith handle oracle n s = (.error e, m, s)) {k n : ℕ}
    (h : reaches oracle steps k n = false) :
    ∃ m, (retrying retryable exhausted attempt k).runWith handle oracle n s
      = (.error exhausted, m, s) := by
  induction k generalizing n with
  | zero => exact ⟨n, rfl⟩
  | succ k ih =>
    unfold reaches at h
    split at h
    · cases h
    · rename_i m e h_first
      obtain ⟨i, h_i⟩ := firstFailure_mem h_first
      rw [runWith_retrying_again (h_attempt n m e h_first) (h_oracle i e h_i)]
      exact ih h

theorem runWith_retrying_of_reaches
    (h_oracle : ∀ n e, oracle n = some e → retryable e = true)
    (h_attempt : ∀ n m e, firstFailure oracle n steps = some (m, e) →
      attempt.runWith handle oracle n s = (.error e, m, s)) {k n : ℕ}
    (h : reaches oracle steps k n = true) :
    ∃ k' n', firstFailure oracle n' steps = none ∧
      (retrying retryable exhausted attempt k).runWith handle oracle n s
        = (retrying retryable exhausted attempt (k' + 1)).runWith handle oracle n' s := by
  induction k generalizing n with
  | zero => cases h
  | succ k ih =>
    unfold reaches at h
    split at h
    · rename_i h_first
      exact ⟨k, n, h_first, rfl⟩
    · rename_i m e h_first
      obtain ⟨i, h_i⟩ := firstFailure_mem h_first
      obtain ⟨k', n', h_none, h_run⟩ := ih h
      refine ⟨k', n', h_none, ?_⟩
      rw [runWith_retrying_again (h_attempt n m e h_first) (h_oracle i e h_i), h_run]

end Retried

end Oracle

end Program
