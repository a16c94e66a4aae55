/-
  VyomQuant.Lib.Optimistic

  Optimistic concurrency: calls that first read a version of the store, then read
  what they need, and at last issue one operation that takes effect only if the
  version is still the one they read, and moves it.  Failed calls are retried.

  `linearizable` says that every interleaving of such calls leaves the store in
  the state of a serial run of the calls that took effect.  The invariant behind
  it: a call in flight whose version is still current computes from here exactly
  what a fresh attempt would (`InFlight.running`), because every operation that
  changed the store has moved the version.
-/

import VyomQuant.Lib.Faults

namespace Optimistic

open Program

variable {Op : Type} {Res : Op → Type} {ε α σ ι : Type}

/-! ## Interleavings -/

/-- A store and the programs running over it. -/
structure Config (Res : Op → Type) (ε α σ ι : Type) where
  store : σ
  pool : ι → Program Res ε α

/-- One program issues its next operation. -/
inductive Step [DecidableEq ι] (handle : Handler Res ε σ) :
    Config Res ε α σ ι → Config Res ε α σ ι → Prop
  | issue {c : Config Res ε α σ ι} (i : ι) {op : Op} {next : Except ε (Res op) → Program Res ε α}
      (h : c.pool i = .call op next) :
      Step handle c ⟨(handle op c.store).2,
        Function.update c.pool i (next (handle op c.store).1)⟩

/-- The next operation of program `i`, if it has one. -/
def issueBy [DecidableEq ι] (handle : Handler Res ε σ) (c : Config Res ε α σ ι) (i : ι) :
    Config Res ε α σ ι :=
  match c.pool i with
  | .call op next =>
    ⟨(handle op c.store).2, Function.update c.pool i (next (handle op c.store).1)⟩
  | _ => c

/-- The configuration a schedule leads to. -/
def execute [DecidableEq ι] (handle : Handler Res ε σ) (c : Config Res ε α σ ι)
    (schedule : List ι) : Config Res ε α σ ι :=
  schedule.foldl (issueBy handle) c

theorem execute_reachable [DecidableEq ι] (handle : Handler Res ε σ) (c : Config Res ε α σ ι)
    (schedule : List ι) : Relation.ReflTransGen (Step handle) c (execute handle c schedule) := by
  induction schedule generalizing c with
  | nil => exact .refl
  | cons i rest ih =>
    show Relation.ReflTransGen _ c (execute handle (issueBy handle c i) rest)
    refine .trans ?_ (ih _)
    unfold issueBy
    split
    · rename_i op next h
      exact .single (.issue i h)
    · exact .refl

/-! ## Calls guarded by a version -/

section Guarded

variable (handle : Handler Res ε σ) (version : σ → ℕ) (applied : α → Prop)

/-- The guarded operation: at the version read it may take effect, moving the
    version and ending the call; otherwise it leaves the store alone and the call
    ends without having been applied. -/
def Settles (v : ℕ) (op : Op) (next : Except ε (Res op) → Program Res ε α) (s : σ) : Prop :=
  (version s = v ∧ version s < version (handle op s).2 ∧
      ∃ a, applied a ∧ next (handle op s).1 = .ret a) ∨
    ((handle op s).2 = s ∧
      ((∃ e, next (handle op s).1 = .raise e) ∨
        ∃ a, ¬ applied a ∧ next (handle op s).1 = .ret a))

/-- A program that only reads until it issues an operation guarded by `v`. -/
inductive Guarded (v : ℕ) : Program Res ε α → Prop
  | ret {a : α} (h : ¬ applied a) : Guarded v (.ret a)
  | raise {e : ε} : Guarded v (.raise e)
  | read {op : Op} {next : Except ε (Res op) → Program Res ε α}
      (h_read : ∀ s, (handle op s).2 = s) (h_next : ∀ answer, Guarded v (next answer)) :
      Guarded v (.call op next)
  | commit {op : Op} {next : Except ε (Res op) → Program Res ε α}
      (h : ∀ s, Settles handle version applied v op next s) : Guarded v (.call op next)

/-- An attempt: it reads first, and is guarded by the version it read at. -/
def Attempt (attempt : Program Res ε α) : Prop :=
  ∃ op next, attempt = .call op next ∧ (∀ s, (handle op s).2 = s) ∧
    ∀ s, Guarded handle version applied (version s) (next (handle op s).1)

variable {handle version applied} {β : Type}

theorem Guarded.perform_bind {v : ℕ} {op : Op} {f : Res op → Program Res ε α}
    (h_read : ∀ s, (handle op s).2 = s) (h : ∀ answer, Guarded handle version applied v (f answer)) :
    Guarded handle version applied v ((perform op).bind f) := by
  refine .read h_read fun answer => ?_
  cases answer with
  | ok answer => exact h answer
  | error e => exact .raise

theorem Guarded.lift_bind {v : ℕ} {x : Except ε β} {f : β → Program Res ε α}
    (h : ∀ b, x = .ok b → Guarded handle version applied v (f b)) :
    Guarded handle version applied v ((lift x).bind f) := by
  cases x with
  | ok b => exact h b rfl
  | error e => exact .raise

/-- What running a guarded program alone does: it returns an applied answer at the
    version it is guarded by, or it changes nothing and is not applied. -/
theorem Guarded.run_cases {v : ℕ} {q : Program Res ε α}
    (h : Guarded handle version applied v q) (s : σ) :
    (∃ a s', q.run handle s = (.ok a, s') ∧ applied a ∧ version s = v ∧ version s < version s') ∨
      (q.run handle s).2 = s ∧ ∀ a, (q.run handle s).1 = .ok a → ¬ applied a := by
  induction h with
  | ret h_not =>
    refine Or.inr ⟨rfl, fun a h_eq => ?_⟩
    cases h_eq
    exact h_not
  | raise => exact Or.inr ⟨rfl, fun a h_eq => by cases h_eq⟩
  | read h_read _ ih =>
    rename_i op next h_next
    rw [run_call, h_read s]
    exact ih _
  | commit h_settles =>
    rename_i op next
    rw [run_call]
    rcases h_settles s with ⟨h_eq, h_moved, a, h_applied, h_ret⟩ | ⟨h_same, h_end⟩
    · rw [h_ret]
      exact Or.inl ⟨a, _, rfl, h_applied, h_eq, h_moved⟩
    · rcases h_end with ⟨e, h_raise⟩ | ⟨a, h_not, h_ret⟩
      · rw [h_raise]
        exact Or.inr ⟨h_same, fun a h_eq => by cases h_eq⟩
      · rw [h_ret]
        refine Or.inr ⟨h_same, fun b h_eq => ?_⟩
        cases h_eq
        exact h_not

theorem Attempt.run_cases {attempt : Program Res ε α}
    (h : Attempt handle version applied attempt) (s : σ) :
    (∃ a s', attempt.run handle s = (.ok a, s') ∧ applied a ∧ version s < version s') ∨
      (attempt.run handle s).2 = s ∧ ∀ a, (attempt.run handle s).1 = .ok a → ¬ applied a := by
  obtain ⟨op, next, rfl, h_read, h_guarded⟩ := h
  rw [run_call, h_read s]
  rcases (h_guarded s).run_cases s with ⟨a, s', h_run, h_applied, _, h_moved⟩ | h_same
  · exact Or.inl ⟨a, s', h_run, h_applied, h_moved⟩
  · exact Or.inr h_same

/-- A guarded program that gives up on a failure does, whatever operations fail, what
    it does alone, or nothing. -/
theorem Guarded.ensures {v : ℕ} {q : Program Res ε α} {faults : ε → Prop}
    (h : Guarded handle version applied v q) (h_gives : GivesUp faults q) (s : σ) :
    q.Ensures handle faults (fun a s' => q.run handle s = (.ok a, s')) (fun _ s' => s' = s) s := by
  induction h with
  | ret _ => exact rfl
  | raise => exact rfl
  | @read op next h_read _ ih =>
    cases h_gives with
    | call h_fault h_next =>
      refine ⟨?_, fun e h_e => ?_⟩
      · simp only [run_call, h_read s]
        exact ih _ (h_next _)
      · rw [h_fault e h_e]
        exact rfl
  | @commit op next h_settles =>
    cases h_gives with
    | call h_fault _ =>
      refine ⟨?_, fun e h_e => ?_⟩
      · rw [run_call]
        rcases h_settles s with ⟨_, _, a, _, h_ret⟩ | ⟨h_same, ⟨e, h_raise⟩ | ⟨a, _, h_ret⟩⟩
        · rw [h_ret]
          exact rfl
        · rw [h_raise]
          exact h_same
        · rw [h_ret]
          exact rfl
      · rw [h_fault e h_e]
        exact rfl

theorem Attempt.ensures_retrying {attempt : Program Res ε α} {faults : ε → Prop}
    {retryable : ε → Bool} {exhausted : ε} (h : Attempt handle version applied attempt)
    (h_gives : GivesUp faults attempt) (n : ℕ) (s : σ) :
    (retrying retryable exhausted attempt n).Ensures handle faults
      (fun a s' => attempt.run handle s = (.ok a, s')) (fun _ s' => s' = s) s := by
  refine Ensures.retrying (fun s' => s' = s) ?_ (fun _ h_same => h_same) n rfl
  rintro s rfl
  obtain ⟨op, next, rfl, h_read, h_guarded⟩ := h
  cases h_gives with
  | call h_fault h_next =>
    refine Ensures.mono ⟨?_, fun e h_e => ?_⟩ (fun _ _ h_run => h_run)
      (fun e s' (h_same : s' = s) => by split <;> exact h_same)
    · simp only [run_call, h_read s]
      exact (h_guarded s).ensures (h_next _) s
    · rw [h_fault e h_e]
      exact rfl

/-- Run alone, a retried attempt either ends as one of its attempts does on the
    store it found, or has failed without a trace. -/
theorem Attempt.run_retrying {retryable : ε → Bool} {exhausted : ε} {attempt : Program Res ε α}
    (h : Attempt handle version applied attempt) (n : ℕ) (s : σ) :
    (retrying retryable exhausted attempt n).run handle s = attempt.run handle s ∨
      ∃ e, (retrying retryable exhausted attempt n).run handle s = (.error e, s) := by
  induction n with
  | zero => exact Or.inr ⟨exhausted, rfl⟩
  | succ n ih =>
    rw [retrying, run_tryCatch]
    cases h_run : attempt.run handle s with
    | mk answer s' =>
      cases answer with
      | ok a => exact Or.inl rfl
      | error e =>
        have h_same : s' = s := by
          rcases h.run_cases s with ⟨a, s'', h_ok, _⟩ | ⟨h_store, _⟩
          · rw [h_run] at h_ok
            cases h_ok
          · rw [h_run] at h_store
            exact h_store
        subst h_same
        rw [h_run] at ih
        simp only
        cases retryable e with
        | false => exact Or.inl rfl
        | true => exact ih

theorem Attempt.run_of_retrying {retryable : ε → Bool} {exhausted : ε}
    {attempt : Program Res ε α} (h : Attempt handle version applied attempt) {n : ℕ} {s s' : σ}
    {a : α} (h_run : (retrying retryable exhausted attempt n).run handle s = (.ok a, s')) :
    attempt.run handle s = (.ok a, s') := by
  rcases h.run_retrying n s with h_eq | ⟨e, h_eq⟩
  · rw [← h_eq]
    exact h_run
  · rw [h_run] at h_eq
    cases h_eq

variable (handle version applied)

/-- A serial run: each entry is a call with what it returned when run alone. -/
inductive Serial (calls : ι → Program Res ε α) (s₀ : σ) : List (ι × α) → σ → Prop
  | nil : Serial calls s₀ [] s₀
  | snoc {l : List (ι × α)} {s s' : σ} {i : ι} {a : α} (h : Serial calls s₀ l s)
      (h_run : (calls i).run handle s = (.ok a, s')) (h_applied : applied a) :
      Serial calls s₀ (l ++ [(i, a)]) s'

end Guarded

/-! ## The state of a call in flight -/

section InFlight

variable {handle : Handler Res ε σ} {version : σ → ℕ} {applied : α → Prop}
  (retryable : ε → Bool) (exhausted : ε)

/-- What a call can be doing while the store is `s`. -/
inductive InFlight (handle : Handler Res ε σ) (version : σ → ℕ) (applied : α → Prop)
    (retryable : ε → Bool) (exhausted : ε) (attempt : Program Res ε α) (s : σ) :
    Program Res ε α → Prop
  | returned (a : α) : InFlight handle version applied retryable exhausted attempt s (.ret a)
  | raised (e : ε) : InFlight handle version applied retryable exhausted attempt s (.raise e)
  | fresh (n : ℕ) : InFlight handle version applied retryable exhausted attempt s
      (retrying retryable exhausted attempt n)
  | running (n : ℕ) {v : ℕ} {q : Program Res ε α} (h_v : v ≤ version s)
      (h_guarded : Guarded handle version applied v q)
      (h_same : version s = v → q.run handle s = attempt.run handle s) :
      InFlight handle version applied retryable exhausted attempt s
        (q.tryCatch fun e =>
          if retryable e then retrying retryable exhausted attempt n else .raise e)

variable {retryable exhausted} {attempt : Program Res ε α} {s s' : σ} {p : Program Res ε α}

theorem InFlight.of_moved
    (h : InFlight handle version applied retryable exhausted attempt s p)
    (h_moved : version s < version s') :
    InFlight handle version applied retryable exhausted attempt s' p := by
  cases h with
  | returned a => exact .returned a
  | raised e => exact .raised e
  | fresh n => exact .fresh n
  | running n h_v h_guarded _ =>
    exact .running n (by omega) h_guarded fun h_eq => absurd h_eq (by omega)

/-- What one operation of a call in flight does: either it changes nothing and the
    call goes on without having been applied, or it is the call's effect. -/
theorem InFlight.issue (h_attempt : Attempt handle version applied attempt) {op : Op}
    {next : Except ε (Res op) → Program Res ε α}
    (h : InFlight handle version applied retryable exhausted attempt s (.call op next)) :
    ((handle op s).2 = s ∧
        InFlight handle version applied retryable exhausted attempt s (next (handle op s).1) ∧
        ∀ a, next (handle op s).1 = .ret a → ¬ applied a) ∨
      (version s < version (handle op s).2 ∧ ∃ a, applied a ∧ next (handle op s).1 = .ret a ∧
        attempt.run handle s = (.ok a, (handle op s).2)) := by
  obtain ⟨op₀, next₀, rfl, h_read₀, h_guarded₀⟩ := h_attempt
  -- A program that ends in a failure goes on with a fresh attempt, or has raised.
  have h_recover : ∀ (e : ε) (n : ℕ),
      InFlight handle version applied retryable exhausted (.call op₀ next₀) s
          (if retryable e then retrying retryable exhausted (.call op₀ next₀) n else .raise e) ∧
        ∀ a, (if retryable e then retrying retryable exhausted (.call op₀ next₀) n
          else .raise e) ≠ .ret a := by
    intro e n
    cases retryable e with
    | false => exact ⟨.raised e, fun a h_eq => by cases h_eq⟩
    | true =>
      refine ⟨.fresh n, fun a h_eq => ?_⟩
      cases n with
      | zero => cases h_eq
      | succ n => cases h_eq
  -- The continuation of a guarded program is in flight and not applied.
  have h_continue : ∀ (n v : ℕ) (q : Program Res ε α), v ≤ version s →
      Guarded handle version applied v q →
      (version s = v → q.run handle s = (Program.call op₀ next₀).run handle s) →
      InFlight handle version applied retryable exhausted (.call op₀ next₀) s
          (q.tryCatch fun e => if retryable e then
            retrying retryable exhausted (.call op₀ next₀) n else .raise e) ∧
        ∀ a, (q.tryCatch fun e => if retryable e then
          retrying retryable exhausted (.call op₀ next₀) n else .raise e) = .ret a →
          ¬ applied a := by
    intro n v q h_v h_guarded h_same
    refine ⟨.running n h_v h_guarded h_same, fun a h_eq => ?_⟩
    cases h_guarded with
    | ret h_not =>
      cases h_eq
      exact h_not
    | raise => exact absurd h_eq ((h_recover _ n).2 a)
    | read _ _ => cases h_eq
    | commit _ => cases h_eq
  -- The first operation of a fresh attempt is its read.
  have h_first : ∀ n, retrying retryable exhausted (.call op₀ next₀) n = .call op next →
      ((handle op s).2 = s ∧
        InFlight handle version applied retryable exhausted (.call op₀ next₀) s
          (next (handle op s).1) ∧ ∀ a, next (handle op s).1 = .ret a → ¬ applied a) := by
    intro n h_eq
    cases n with
    | zero => cases h_eq
    | succ n =>
      cases h_eq
      refine ⟨h_read₀ s, h_continue n (version s) _ (Nat.le_refl _) (h_guarded₀ s) fun _ => ?_⟩
      rw [run_call, h_read₀ s]
  generalize h_p : (Program.call op next : Program Res ε α) = p at h
  cases h with
  | returned a => cases h_p
  | raised e => cases h_p
  | fresh n => exact Or.inl (h_first n h_p.symm)
  | running n h_v h_guarded h_same =>
    cases h_guarded with
    | ret _ => cases h_p
    | raise =>
      rename_i v e
      cases h_retry : retryable e with
      | false =>
        simp only [raise_tryCatch, h_retry] at h_p
        cases h_p
      | true =>
        simp only [raise_tryCatch, h_retry, if_true] at h_p
        exact Or.inl (h_first n h_p.symm)
    | read h_read h_next =>
      cases h_p
      refine Or.inl ⟨h_read s, h_continue n _ _ h_v (h_next _) fun h_eq => ?_⟩
      rw [← h_same h_eq, run_call, h_read s]
    | commit h_settles =>
      cases h_p
      rcases h_settles s with ⟨h_eq, h_moved, a, h_applied, h_ret⟩ | ⟨h_same_store, h_end⟩
      · refine Or.inr ⟨h_moved, a, h_applied, ?_, ?_⟩
        · simp only [h_ret, ret_tryCatch]
        · rw [← h_same h_eq, run_call, h_ret, run_ret]
      · refine Or.inl ⟨h_same_store, ?_⟩
        rcases h_end with ⟨e, h_raise⟩ | ⟨a, h_not, h_ret⟩
        · simp only [h_raise, raise_tryCatch]
          exact ⟨(h_recover e n).1, fun a h_eq => absurd h_eq ((h_recover e n).2 a)⟩
        · simp only [h_ret, ret_tryCatch]
          exact ⟨.returned a, fun b h_eq => by cases h_eq; exact h_not⟩

end InFlight

/-! ## Linearizability -/

section Linearizable

variable {handle : Handler Res ε σ} {version : σ → ℕ} {applied : α → Prop}
  {retryable : ε → Bool} {exhausted : ε} {attempts calls : ι → Program Res ε α} {tries : ℕ}
  {s₀ : σ}

/-- Each call retries its attempt, or is refused before it issues anything. -/
def Retried (retryable : ε → Bool) (exhausted : ε) (tries : ℕ)
    (attempts calls : ι → Program Res ε α) : Prop :=
  ∀ i, calls i = retrying retryable exhausted (attempts i) (tries + 1) ∨ ∃ e, calls i = .raise e

/-- A configuration accounted for by a serial run of the calls that took effect. -/
structure Accounted (handle : Handler Res ε σ) (version : σ → ℕ) (applied : α → Prop)
    (retryable : ε → Bool) (exhausted : ε) (attempts calls : ι → Program Res ε α)
    (s₀ : σ) (c : Config Res ε α σ ι) : Prop where
  flight : ∀ i, InFlight handle version applied retryable exhausted (attempts i) c.store (c.pool i)
  refused : ∀ i e, calls i = .raise e → c.pool i = .raise e
  serial : ∃ l : List (ι × α), (l.map Prod.fst).Nodup ∧
    (∀ i a, (i, a) ∈ l ↔ c.pool i = .ret a ∧ applied a) ∧
    Serial handle applied calls s₀ l c.store

theorem accounted_init (h_attempt : ∀ i, Attempt handle version applied (attempts i))
    (h_calls : Retried retryable exhausted tries attempts calls) :
    Accounted handle version applied retryable exhausted attempts calls s₀ ⟨s₀, calls⟩ where
  flight := by
    intro i
    show InFlight handle version applied retryable exhausted (attempts i) s₀ (calls i)
    rcases h_calls i with h_eq | ⟨e, h_eq⟩
    · rw [h_eq]
      exact .fresh (tries + 1)
    · rw [h_eq]
      exact .raised e
  refused := fun _ _ h_eq => h_eq
  serial := by
    refine ⟨[], List.nodup_nil, fun i a => ?_, .nil⟩
    obtain ⟨op, next, h_attempt_eq, _⟩ := h_attempt i
    rcases h_calls i with h_eq | ⟨e, h_eq⟩
    · simp [h_eq, h_attempt_eq, retrying]
    · simp [h_eq]

variable [DecidableEq ι]

theorem accounted_step (h_attempt : ∀ i, Attempt handle version applied (attempts i))
    (h_calls : Retried retryable exhausted tries attempts calls) {c c' : Config Res ε α σ ι}
    (h : Accounted handle version applied retryable exhausted attempts calls s₀ c)
    (h_step : Step handle c c') :
    Accounted handle version applied retryable exhausted attempts calls s₀ c' := by
  obtain ⟨h_flight, h_refused, l, h_nodup, h_mem, h_serial⟩ := h
  cases h_step with
  | issue i h_call =>
    rename_i op next
    have h_i := h_flight i
    rw [h_call] at h_i
    have h_retried : calls i = retrying retryable exhausted (attempts i) (tries + 1) := by
      rcases h_calls i with h_eq | ⟨e, h_eq⟩
      · exact h_eq
      · have h_raise := h_refused i e h_eq
        rw [h_call] at h_raise
        cases h_raise
    have h_refused' : ∀ j e, calls j = .raise e →
        Function.update c.pool i (next (handle op c.store).1) j = .raise e := by
      intro j e h_eq
      by_cases h_j : j = i
      · subst h_j
        have h_raise := h_refused j e h_eq
        rw [h_call] at h_raise
        cases h_raise
      · rw [Function.update_of_ne h_j]
        exact h_refused j e h_eq
    rcases h_i.issue (h_attempt i) with
      ⟨h_store, h_next, h_not⟩ | ⟨h_moved, a, h_applied, h_ret, h_run⟩
    · -- Nothing changed: the serial run is the same.
      refine ⟨fun j => ?_, h_refused', l, h_nodup, fun j a => ?_,
        by rw [h_store]; exact h_serial⟩
      · show InFlight _ _ _ _ _ _ (handle op c.store).2 (Function.update c.pool i _ j)
        rw [h_store]
        by_cases h_j : j = i
        · subst h_j
          rw [Function.update_self]
          exact h_next
        · rw [Function.update_of_ne h_j]
          exact h_flight j
      · show (j, a) ∈ l ↔ Function.update c.pool i _ j = .ret a ∧ applied a
        rw [h_mem]
        by_cases h_j : j = i
        · subst h_j
          rw [Function.update_self, h_call]
          constructor
          · rintro ⟨h_eq, _⟩
            cases h_eq
          · rintro ⟨h_eq, h_applied⟩
            exact absurd h_applied (h_not a h_eq)
        · rw [Function.update_of_ne h_j]
    · -- The call took effect: it is appended to the serial run.
      have h_new : ∀ b, (i, b) ∉ l := by
        intro b h_b
        have h_eq := ((h_mem i b).mp h_b).1
        rw [h_call] at h_eq
        cases h_eq
      refine ⟨fun j => ?_, h_refused', l ++ [(i, a)], ?_, fun j b => ?_,
        .snoc h_serial (by rw [h_retried]; exact run_retrying_of_ok h_run) h_applied⟩
      · show InFlight _ _ _ _ _ _ (handle op c.store).2 (Function.update c.pool i _ j)
        by_cases h_j : j = i
        · subst h_j
          rw [Function.update_self, h_ret]
          exact .returned a
        · rw [Function.update_of_ne h_j]
          exact (h_flight j).of_moved h_moved
      · rw [List.map_append, List.nodup_append]
        refine ⟨h_nodup, by simp, fun x h_x y h_y h_eq => ?_⟩
        obtain ⟨⟨j, b⟩, h_b, rfl⟩ := List.mem_map.mp h_x
        simp only [List.map_cons, List.map_nil, List.mem_singleton] at h_y
        subst h_y
        exact h_new b (h_eq ▸ h_b)
      · show (j, b) ∈ l ++ [(i, a)] ↔ Function.update c.pool i _ j = .ret b ∧ applied b
        rw [List.mem_append, List.mem_singleton, h_mem]
        by_cases h_j : j = i
        · subst h_j
          rw [Function.update_self, h_ret, h_call]
          constructor
          · rintro (⟨h_eq, _⟩ | h_eq)
            · cases h_eq
            · cases h_eq
              exact ⟨rfl, h_applied⟩
          · rintro ⟨h_eq, _⟩
            cases h_eq
            exact Or.inr rfl
        · rw [Function.update_of_ne h_j]
          simp [h_j]

/-- Every interleaving leaves the store of a serial run of the calls that took
    effect, each returning there what it returned in the interleaving. -/
theorem linearizable (h_attempt : ∀ i, Attempt handle version applied (attempts i))
    (h_calls : Retried retryable exhausted tries attempts calls) {c : Config Res ε α σ ι}
    (h : Relation.ReflTransGen (Step handle) ⟨s₀, calls⟩ c) :
    ∃ l : List (ι × α), (l.map Prod.fst).Nodup ∧
      (∀ i a, (i, a) ∈ l ↔ c.pool i = .ret a ∧ applied a) ∧
      Serial handle applied calls s₀ l c.store := by
  have h_accounted : Accounted handle version applied retryable exhausted attempts calls s₀ c := by
    induction h with
    | refl => exact accounted_init h_attempt h_calls
    | tail _ h_step ih => exact accounted_step h_attempt h_calls ih h_step
  exact h_accounted.serial

end Linearizable

end Optimistic
