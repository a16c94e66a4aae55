/-
  VyomQuant.Lib.Commits

  Programs whose operations commit one by one, when one operation fails.

  A `Script` lists what a program issues on a store by what a failure leaves
  behind, and `raisesAfter` says which operations went through before the program
  raises.  What the store is viewed by is as it was exactly when no commit is
  among them (`Script.unchanged_iff`).
-/

import VyomQuant.Lib.Faults

namespace Program

/-- What an operation is to the program that issues it. -/
inductive Effect where
  /-- It leaves the view of the store as it is. -/
  | reads
  /-- After it the view is not the one that the program started from. -/
  | commits
  /-- It leaves the view as it is, and the program handles its failure. -/
  | audits
  /-- The program raises here. -/
  | refuses
  deriving DecidableEq

/-- The operations that go through before the program raises, the `fault`-th one failing;
    `survives` says whether a handled failure is one that the program goes on after. -/
def raisesAfter (survives : Bool) (fault : ℕ) : ℕ → List Effect → Option (List Effect)
  | _, [] => none
  | _, .refuses :: _ => some []
  | n, .audits :: rest =>
    if n = fault ∧ survives = false then some []
    else (raisesAfter survives fault (n + 1) rest).map (.audits :: ·)
  | n, effect :: rest =>
    if n = fault then some []
    else (raisesAfter survives fault (n + 1) rest).map (effect :: ·)

/-- The oracle that fails one operation. -/
def failAt {ε : Type} (failure : ε) (fault : ℕ) : ℕ → Option ε := fun n =>
  if n = fault then some failure else none

variable {Op : Type} {Res : Op → Type} {ε α σ V : Type}

/-- A program of `k` operations that handles the failure of each of them. -/
def Handles (handle : Handler Res ε σ) (failure : ε) (fault : ℕ) (survives : Bool) (view : σ → V)
    (block : Program Res ε Unit) (k : ℕ) : Prop :=
  ∀ n s, ∃ n' s', view s' = view s ∧
    (n ≤ fault ∧ fault < n + k → fault < n' ∧
      block.runWith handle (failAt failure fault) n s
        = (if survives then .ok () else .error failure, n', s')) ∧
    (¬ (n ≤ fault ∧ fault < n + k) → n' = n + k ∧
      block.runWith handle (failAt failure fault) n s = (.ok (), n', s'))

/-- The effects of a program on a store, seen from the view `base`. -/
inductive Script (handle : Handler Res ε σ) (failure : ε) (fault : ℕ) (survives : Bool)
    (view : σ → V) (base : V) : Program Res ε α → σ → List Effect → Prop
  | ret (a : α) (s : σ) : Script handle failure fault survives view base (.ret a) s []
  | raise (e : ε) (s : σ) : Script handle failure fault survives view base (.raise e) s [.refuses]
  | refuse {op : Op} {e : ε} {s : σ} (f : Res op → Program Res ε α)
      (h_handle : handle op s = (.error e, s)) :
      Script handle failure fault survives view base ((perform op).bind f) s [.refuses]
  | read {op : Op} {answer : Res op} {s s' : σ} {f : Res op → Program Res ε α}
      {rest : List Effect} (h_handle : handle op s = (.ok answer, s'))
      (h_view : view s' = base ↔ view s = base)
      (h_rest : Script handle failure fault survives view base (f answer) s' rest) :
      Script handle failure fault survives view base ((perform op).bind f) s (.reads :: rest)
  | commit {op : Op} {answer : Res op} {s s' : σ} {f : Res op → Program Res ε α}
      {rest : List Effect} (h_handle : handle op s = (.ok answer, s')) (h_view : view s' ≠ base)
      (h_rest : Script handle failure fault survives view base (f answer) s' rest) :
      Script handle failure fault survives view base ((perform op).bind f) s (.commits :: rest)
  | audit {block : Program Res ε Unit} {k : ℕ} {s : σ} {f : Unit → Program Res ε α}
      {rest : List Effect}
      (h_block : Handles handle failure fault survives view block k)
      (h_rest : ∀ s', view s' = view s →
        Script handle failure fault survives view base (f ()) s' rest) :
      Script handle failure fault survives view base (block.bind f) s
        (List.replicate k .audits ++ rest)

/-! ## Where it raises -/

variable {survives : Bool} {fault : ℕ}

theorem raisesAfter_of_lt {n m : ℕ} (h_n : fault < n) (h_m : fault < m) (effects : List Effect) :
    raisesAfter survives fault n effects = raisesAfter survives fault m effects := by
  induction effects generalizing n m with
  | nil => rfl
  | cons effect rest ih =>
    have h_n' : n ≠ fault := by omega
    have h_m' : m ≠ fault := by omega
    have h_rest := ih (n := n + 1) (m := m + 1) (by omega) (by omega)
    cases effect with
    | reads => simp [raisesAfter, h_n', h_m', h_rest]
    | commits => simp [raisesAfter, h_n', h_m', h_rest]
    | audits => simp [raisesAfter, h_n', h_m', h_rest]
    | refuses => rfl

theorem raisesAfter_audits {n k : ℕ} (h : ¬ (n ≤ fault ∧ fault < n + k ∧ survives = false))
    (rest : List Effect) :
    raisesAfter survives fault n (List.replicate k .audits ++ rest)
      = (raisesAfter survives fault (n + k) rest).map (List.replicate k .audits ++ ·) := by
  induction k generalizing n with
  | zero => simp
  | succ k ih =>
    have h_here : ¬ (n = fault ∧ survives = false) := by
      rintro ⟨h_n, h_s⟩
      exact h ⟨by omega, by omega, h_s⟩
    have h_later : ¬ (n + 1 ≤ fault ∧ fault < n + 1 + k ∧ survives = false) := by
      rintro ⟨h_n, h_k, h_s⟩
      exact h ⟨by omega, by omega, h_s⟩
    rw [List.replicate_succ, List.cons_append, raisesAfter, if_neg h_here, ih h_later,
      Option.map_map, show n + 1 + k = n + (k + 1) by omega]
    rfl

theorem raisesAfter_audits_lost {n k : ℕ} (h_n : n ≤ fault) (h_k : fault < n + k)
    (rest : List Effect) :
    raisesAfter false fault n (List.replicate k .audits ++ rest)
      = some (List.replicate (fault - n) .audits) := by
  induction k generalizing n with
  | zero => omega
  | succ k ih =>
    rw [List.replicate_succ, List.cons_append, raisesAfter]
    by_cases h_here : n = fault
    · simp [h_here]
    · rw [if_neg (by simp [h_here]), ih (by omega) (by omega), Option.map_some,
        show fault - n = fault - (n + 1) + 1 by omega, List.replicate_succ]

/-! ## What is left behind -/

variable {handle : Handler Res ε σ} {failure : ε} {view : σ → V} {base : V}

theorem runWith_failAt (op : Op) (f : Res op → Program Res ε α) (n : ℕ) (s : σ) :
    ((perform op).bind f).runWith handle (failAt failure fault) n s =
      if n = fault then (.error failure, n + 1, s)
      else match handle op s with
        | (.ok answer, s') => (f answer).runWith handle (failAt failure fault) (n + 1) s'
        | (.error e, s') => (.error e, n + 1, s') := by
  rw [runWith_perform_bind, failAt]
  by_cases h : n = fault
  · rw [if_pos h, if_pos h]
  · simp only [if_neg h] <;> rfl

/-- A program that returns, or that raises with the view as the operations that went through
    left it. -/
structure Raises (view : σ → V) (base : V) (s : σ) (raised : Option (List Effect))
    (result : Except ε α × ℕ × σ) : Prop where
  returned : raised = none → ∃ a, result.1 = .ok a
  raised : ∀ before, raised = some before →
    (∃ e, result.1 = .error e) ∧ (view result.2.2 = base ↔ view s = base ∧ .commits ∉ before)

namespace Raises

variable {s s' : σ} {raised : Option (List Effect)} {result : Except ε α × ℕ × σ}

theorem here {e : ε} {n : ℕ} {before : List Effect} (h : .commits ∉ before) (h_view : view s' = view s) :
    Raises view base s (some before) ((.error e, n, s') : Except ε α × ℕ × σ) := by
  refine ⟨fun h_none => (by cases h_none), fun before' h_eq => ?_⟩
  cases h_eq
  exact ⟨⟨e, rfl⟩, by simp [h, h_view]⟩

theorem after_reads {effects : List Effect} (h : Raises view base s' raised result)
    (h_view : view s' = base ↔ view s = base) (h_reads : .commits ∉ effects) :
    Raises view base s (raised.map (effects ++ ·)) result := by
  refine ⟨fun h_none => h.returned (by simpa using h_none), fun before h_eq => ?_⟩
  obtain ⟨before', h_raised, rfl⟩ := Option.map_eq_some_iff.mp h_eq
  obtain ⟨h_error, h_iff⟩ := h.raised before' h_raised
  refine ⟨h_error, ?_⟩
  rw [h_iff, h_view, List.mem_append, not_or]
  simp [h_reads]

theorem after_commit (h : Raises view base s' raised result) (h_view : view s' ≠ base) :
    Raises view base s (raised.map (.commits :: ·)) result := by
  refine ⟨fun h_none => h.returned (by simpa using h_none), fun before h_eq => ?_⟩
  obtain ⟨before', h_raised, rfl⟩ := Option.map_eq_some_iff.mp h_eq
  obtain ⟨h_error, h_iff⟩ := h.raised before' h_raised
  refine ⟨h_error, ?_⟩
  rw [h_iff]
  simp [h_view]

end Raises

namespace Script

variable {p : Program Res ε α} {s : σ} {effects : List Effect}

theorem raises (h : Script handle failure fault survives view base p s effects) (n : ℕ) :
    Raises view base s (raisesAfter survives fault n effects)
      (p.runWith handle (failAt failure fault) n s) := by
  induction h generalizing n with
  | ret a s => exact ⟨fun _ => ⟨a, rfl⟩, fun before h_eq => (by cases h_eq)⟩
  | raise e s => exact Raises.here List.not_mem_nil rfl
  | @refuse op e s f h_handle =>
    rw [runWith_failAt, h_handle]
    split
    · exact Raises.here List.not_mem_nil rfl
    · exact Raises.here List.not_mem_nil rfl
  | @read op answer s s' f rest h_handle h_view _ ih =>
    rw [runWith_failAt, h_handle, raisesAfter]
    · split
      · exact Raises.here List.not_mem_nil rfl
      · have h_reads : Effect.commits ∉ [Effect.reads] := by simp
        exact (ih (n + 1)).after_reads h_view h_reads
    · intro h_eq
      cases h_eq
    · intro h_eq
      cases h_eq
  | @commit op answer s s' f rest h_handle h_view _ ih =>
    rw [runWith_failAt, h_handle, raisesAfter]
    · split
      · exact Raises.here List.not_mem_nil rfl
      · exact (ih (n + 1)).after_commit h_view
    · intro h_eq
      cases h_eq
    · intro h_eq
      cases h_eq
  | @audit block k s f rest h_block _ ih =>
    have h_audits : ∀ j, Effect.commits ∉ List.replicate j Effect.audits := by
      intro j
      simp
    obtain ⟨n', s', h_view, h_failed, h_through⟩ := h_block n s
    rw [runWith_bind]
    by_cases h_fault : n ≤ fault ∧ fault < n + k
    · obtain ⟨h_lt, h_run⟩ := h_failed h_fault
      rw [h_run]
      by_cases h_survives : survives = true
      · rw [if_pos h_survives, raisesAfter_audits (by simp [h_survives]),
          raisesAfter_of_lt h_fault.2 h_lt]
        exact (ih s' h_view n').after_reads (by rw [h_view]) (h_audits k)
      · rw [if_neg h_survives, eq_false_of_ne_true h_survives,
          raisesAfter_audits_lost h_fault.1 h_fault.2]
        exact Raises.here (h_audits _) h_view
    · obtain ⟨rfl, h_run⟩ := h_through h_fault
      rw [h_run, raisesAfter_audits fun h => h_fault ⟨h.1, h.2.1⟩]
      exact (ih s' h_view (n + k)).after_reads (by rw [h_view]) (h_audits k)

theorem unchanged_iff (h : Script handle failure fault survives view base p s effects)
    (h_base : view s = base) :
    (∀ e, (p.runWith handle (failAt failure fault) 0 s).1 = .error e →
      view (p.runWith handle (failAt failure fault) 0 s).2.2 = base) ↔
      ∀ before ∈ raisesAfter survives fault 0 effects, .commits ∉ before := by
  obtain ⟨h_returned, h_raised⟩ := h.raises 0
  constructor
  · intro h_unchanged before h_before
    obtain ⟨⟨e, h_error⟩, h_iff⟩ := h_raised before h_before
    exact (h_iff.mp (h_unchanged e h_error)).2
  · intro h_before e h_error
    cases h_eq : raisesAfter survives fault 0 effects with
    | none =>
      obtain ⟨a, h_ok⟩ := h_returned h_eq
      rw [h_ok] at h_error
      cases h_error
    | some before => exact (h_raised before h_eq).2.mpr ⟨h_base, h_before before h_eq⟩

end Script

end Program
