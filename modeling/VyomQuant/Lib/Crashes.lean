/-
  VyomQuant.Lib.Crashes

  One program alone, whose operations may fail before their effect or lose their answer
  after it, and whose process may die between any two of them.

  `ExecutesWhere` are its executions when `stops` says before which operations it may be
  stopped (`Executes`: before every one), and `WithstandsWhere` the weakest precondition
  against all of them: one condition for every store the process can die on, and one for
  how the program ends.  `WithstandsWhere.executes` is the rule that connects them, and
  `Returns.executes` the one for what is returned whatever the program is answered.
-/

import VyomQuant.Lib.RelyGuarantee

namespace Program

variable {Op : Type} {Res : Op → Type} {ε α β σ : Type}

/-- An execution: `none` when the process died.  `stops` says where an operation may fail, or
    the process die before it, and `loses` where an operation that took effect may lose its
    answer. -/
inductive ExecutesWhere (handle : Handler Res ε σ) (stops loses : Op → σ → Prop) :
    Program Res ε α → σ → Option (Except ε α) → σ → Prop
  | ret (a : α) (s : σ) : ExecutesWhere handle stops loses (.ret a) s (some (.ok a)) s
  | raise (e : ε) (s : σ) : ExecutesWhere handle stops loses (.raise e) s (some (.error e)) s
  | died {op : Op} {next : Except ε (Res op) → Program Res ε α} {s : σ} (h_stops : stops op s) :
      ExecutesWhere handle stops loses (.call op next) s none s
  | answered {op : Op} {next : Except ε (Res op) → Program Res ε α} {s t : σ}
      {r : Option (Except ε α)}
      (h : ExecutesWhere handle stops loses (next (handle op s).1) (handle op s).2 r t) :
      ExecutesWhere handle stops loses (.call op next) s r t
  | lost {op : Op} {next : Except ε (Res op) → Program Res ε α} {s t : σ}
      {r : Option (Except ε α)} (e : ε) (h_loses : loses op s)
      (h : ExecutesWhere handle stops loses (next (.error e)) (handle op s).2 r t) :
      ExecutesWhere handle stops loses (.call op next) s r t
  | failed {op : Op} {next : Except ε (Res op) → Program Res ε α} {s t : σ}
      {r : Option (Except ε α)} (e : ε) (h_stops : stops op s)
      (h : ExecutesWhere handle stops loses (next (.error e)) s r t) :
      ExecutesWhere handle stops loses (.call op next) s r t

/-- An execution that may be stopped before any operation. -/
abbrev Executes (handle : Handler Res ε σ) (loses : Op → σ → Prop) :
    Program Res ε α → σ → Option (Except ε α) → σ → Prop :=
  ExecutesWhere handle (fun _ _ => True) loses

/-- Whatever fails, loses its answer or dies: every store the program can be stopped on meets
    `D`, and it ends in `Q`. -/
def WithstandsWhere (handle : Handler Res ε σ) (stops loses : Op → σ → Prop) (D : σ → Prop)
    (Q : Except ε α → σ → Prop) : Program Res ε α → σ → Prop
  | ret a, s => D s ∧ Q (.ok a) s
  | raise e, s => D s ∧ Q (.error e) s
  | call op next, s =>
    (stops op s → D s ∧
      ∀ e, (next (.error e)).WithstandsWhere handle stops loses D Q s) ∧
    (next (handle op s).1).WithstandsWhere handle stops loses D Q (handle op s).2 ∧
    ∀ e, loses op s → (next (.error e)).WithstandsWhere handle stops loses D Q (handle op s).2

/-- Against being stopped before any operation. -/
abbrev Withstands (handle : Handler Res ε σ) (loses : Op → σ → Prop) (D : σ → Prop)
    (Q : Except ε α → σ → Prop) : Program Res ε α → σ → Prop :=
  WithstandsWhere handle (fun _ _ => True) loses D Q

variable {handle : Handler Res ε σ} {stops loses : Op → σ → Prop}

theorem ExecutesWhere.run (p : Program Res ε α) (s : σ) :
    p.ExecutesWhere handle stops loses s (some (p.run handle s).1) (p.run handle s).2 := by
  induction p generalizing s with
  | ret a => exact .ret a s
  | raise e => exact .raise e s
  | call op next ih => exact .answered (ih _ _)

theorem ExecutesWhere.stops_of_died {p : Program Res ε α} {s t : σ}
    (h : p.ExecutesWhere handle stops loses s none t) : ∃ op, stops op t := by
  generalize h_result : none = r at h
  induction h with
  | ret a s => cases h_result
  | raise e s => cases h_result
  | died h_stops => exact ⟨_, h_stops⟩
  | answered _ ih => exact ih h_result
  | lost e _ _ ih => exact ih h_result
  | failed e _ _ ih => exact ih h_result

theorem Returns.executes {R : α → Prop} {p : Program Res ε α} {s t : σ} {a : α} (h : p.Returns R)
    (h_run : p.ExecutesWhere handle stops loses s (some (.ok a)) t) : R a := by
  generalize h_result : some (Except.ok (ε := ε) a) = r at h_run
  induction h_run with
  | ret a' s =>
    cases h_result
    exact h
  | raise e s => cases h_result
  | died h_stops => cases h_result
  | answered _ ih => exact ih (h _) h_result
  | lost e _ _ ih => exact ih (h _) h_result
  | failed e _ _ ih => exact ih (h _) h_result

namespace WithstandsWhere

variable {D : σ → Prop} {Q Q' : Except ε α → σ → Prop} {p : Program Res ε α} {s t : σ}

theorem call_of {op : Op} {next : Except ε (Res op) → Program Res ε α} (h_D : D s)
    (h_answered : (next (handle op s).1).WithstandsWhere handle stops loses D Q (handle op s).2)
    (h_lost : ∀ e, loses op s →
      (next (.error e)).WithstandsWhere handle stops loses D Q (handle op s).2)
    (h_failed : ∀ e, (next (.error e)).WithstandsWhere handle stops loses D Q s) :
    (call op next).WithstandsWhere handle stops loses D Q s :=
  ⟨fun _ => ⟨h_D, h_failed⟩, h_answered, h_lost⟩

theorem mono (h : p.WithstandsWhere handle stops loses D Q s)
    (h_Q : ∀ r s, D s → Q r s → Q' r s) : p.WithstandsWhere handle stops loses D Q' s := by
  induction p generalizing s with
  | ret a => exact ⟨h.1, h_Q _ _ h.1 h.2⟩
  | raise e => exact ⟨h.1, h_Q _ _ h.1 h.2⟩
  | call op next ih =>
    obtain ⟨h_stopped, h_answered, h_lost⟩ := h
    exact ⟨fun h_stops => ⟨(h_stopped h_stops).1, fun e => ih _ ((h_stopped h_stops).2 e)⟩,
      ih _ h_answered, fun e h_loses => ih _ (h_lost e h_loses)⟩

theorem bind {p : Program Res ε β} {f : β → Program Res ε α}
    (h : p.WithstandsWhere handle stops loses D (fun r s => match r with
      | .ok b => (f b).WithstandsWhere handle stops loses D Q s
      | .error e => Q (.error e) s) s) : (p.bind f).WithstandsWhere handle stops loses D Q s := by
  induction p generalizing s with
  | ret b => exact h.2
  | raise e => exact h
  | call op next ih =>
    obtain ⟨h_stopped, h_answered, h_lost⟩ := h
    exact ⟨fun h_stops => ⟨(h_stopped h_stops).1, fun e => ih _ ((h_stopped h_stops).2 e)⟩,
      ih _ h_answered, fun e h_loses => ih _ (h_lost e h_loses)⟩

theorem tryCatch {recover : ε → Program Res ε α}
    (h : p.WithstandsWhere handle stops loses D (fun r s => match r with
      | .ok a => Q (.ok a) s
      | .error e => (recover e).WithstandsWhere handle stops loses D Q s) s) :
    (p.tryCatch recover).WithstandsWhere handle stops loses D Q s := by
  induction p generalizing s with
  | ret a => exact h
  | raise e => exact h.2
  | call op next ih =>
    obtain ⟨h_stopped, h_answered, h_lost⟩ := h
    exact ⟨fun h_stops => ⟨(h_stopped h_stops).1, fun e => ih _ ((h_stopped h_stops).2 e)⟩,
      ih _ h_answered, fun e h_loses => ih _ (h_lost e h_loses)⟩

theorem lift_bind {x : Except ε β} {f : β → Program Res ε α} (h_D : D s)
    (h_error : ∀ e, Q (.error e) s)
    (h_ok : ∀ b, x = .ok b → (f b).WithstandsWhere handle stops loses D Q s) :
    ((Program.lift x).bind f).WithstandsWhere handle stops loses D Q s := by
  cases x with
  | ok b => exact h_ok b rfl
  | error e => exact ⟨h_D, h_error e⟩

theorem read_bind {op : Op} {f : Res op → Program Res ε α} (h_same : (handle op s).2 = s)
    (h_D : D s) (h_error : ∀ e, Q (.error e) s)
    (h_ok : ∀ answer, handle op s = (.ok answer, s) →
      (f answer).WithstandsWhere handle stops loses D Q s) :
    ((perform op).bind f).WithstandsWhere handle stops loses D Q s := by
  refine call_of h_D ?_ (fun e _ => ?_) fun e => ⟨h_D, h_error e⟩
  · rw [h_same]
    rcases h : handle op s with ⟨e | answer, s'⟩
    · exact ⟨h_D, h_error e⟩
    · rw [h] at h_same
      subst h_same
      exact h_ok answer h
  · rw [h_same]
    exact ⟨h_D, h_error e⟩

theorem write_bind {op : Op} {f : Res op → Program Res ε α} (h_D : D s)
    (h_D' : D (handle op s).2) (h_failed : ∀ e, stops op s → Q (.error e) s)
    (h_refused : ∀ e, (handle op s).1 = .error e → Q (.error e) (handle op s).2)
    (h_lost : ∀ e, loses op s → Q (.error e) (handle op s).2)
    (h_ok : ∀ answer, (handle op s).1 = .ok answer →
      (f answer).WithstandsWhere handle stops loses D Q (handle op s).2) :
    ((perform op).bind f).WithstandsWhere handle stops loses D Q s := by
  refine ⟨fun h_stops => ⟨h_D, fun e => ⟨h_D, h_failed e h_stops⟩⟩, ?_,
    fun e h_loses => ⟨h_D', h_lost e h_loses⟩⟩
  cases h : (handle op s).1 with
  | ok answer => exact h_ok answer h
  | error e => exact ⟨h_D', h_refused e h⟩

theorem of_issues {L : Op → Prop} {I : σ → Prop} (h : p.Issues L)
    (h_op : ∀ op s, L op → I s → I (handle op s).2) (h_init : I s) :
    p.WithstandsWhere handle stops loses I (fun _ => I) s := by
  induction p generalizing s with
  | ret a => exact ⟨h_init, h_init⟩
  | raise e => exact ⟨h_init, h_init⟩
  | call op next ih =>
    have h_after := h_op op s h.1 h_init
    exact call_of h_init (ih _ (h.2 _) h_after) (fun e _ => ih _ (h.2 _) h_after)
      fun e => ih _ (h.2 _) h_init

theorem retrying {retryable : ε → Bool} {exhausted : ε} {attempt : Program Res ε α} {I : σ → Prop}
    (h_attempt : ∀ s, I s → attempt.WithstandsWhere handle stops loses I (fun _ => I) s) (n : ℕ)
    (h : I s) :
    (Program.retrying retryable exhausted attempt n).WithstandsWhere handle stops loses I
      (fun _ => I) s := by
  induction n generalizing s with
  | zero => exact ⟨h, h⟩
  | succ n ih =>
    refine tryCatch ((h_attempt s h).mono fun r s' _ h_I => ?_)
    cases r with
    | ok a => exact h_I
    | error e =>
      show WithstandsWhere _ _ _ _ _ (if retryable e then _ else _) s'
      split
      · exact ih h_I
      · exact ⟨h_I, h_I⟩

theorem executes {r : Option (Except ε α)} (h : p.WithstandsWhere handle stops loses D Q s)
    (h_run : p.ExecutesWhere handle stops loses s r t) :
    D t ∧ ∀ result, r = some result → Q result t := by
  induction h_run with
  | ret a s =>
    refine ⟨h.1, fun result h_result => ?_⟩
    cases h_result
    exact h.2
  | raise e s =>
    refine ⟨h.1, fun result h_result => ?_⟩
    cases h_result
    exact h.2
  | died h_stops => exact ⟨(h.1 h_stops).1, nofun⟩
  | answered _ ih => exact ih h.2.1
  | lost e h_loses _ ih => exact ih (h.2.2 e h_loses)
  | failed e h_stops _ ih => exact ih ((h.1 h_stops).2 e)

end WithstandsWhere

/-! ## A process that dies -/

/-- The store after the first `n` operations of an execution without failures. -/
def afterOperations (handle : Handler Res ε σ) : ℕ → Program Res ε α → σ → σ
  | 0, _, s => s
  | _ + 1, ret _, s => s
  | _ + 1, raise _, s => s
  | n + 1, call op next, s => afterOperations handle n (next (handle op s).1) (handle op s).2

/-- Whether an execution without failures issues more than `n` operations. -/
def hasMore (handle : Handler Res ε σ) : ℕ → Program Res ε α → σ → Bool
  | 0, call _ _, _ => true
  | n + 1, call op next, s => hasMore handle n (next (handle op s).1) (handle op s).2
  | _, _, _ => false

/-- A process that dies after `n` operations. -/
theorem executes_afterOperations {n : ℕ} {p : Program Res ε α} {s : σ}
    (h : hasMore handle n p s = true) :
    p.Executes handle loses s none (afterOperations handle n p s) := by
  induction n generalizing p s with
  | zero =>
    cases p with
    | call op next => exact .died trivial
    | ret a => cases h
    | raise e => cases h
  | succ n ih =>
    cases p with
    | call op next => exact .answered (ih h)
    | ret a => cases h
    | raise e => cases h

end Program
