/-
  VyomQuant.Lib.AppendLog

  Transactions that append rows to one table under one lock.

  An insertion takes the lock, reads a snapshot of the committed rows with the rows of its
  own transaction, and appends a row formed from what it read when the table accepts it.
  The lock is kept until the transaction ends.  Sessions interleave between any two of
  these steps.

  `Reachable.invariant` is the rule: what one appended row preserves holds of the committed
  rows of every state reached.
-/

import Mathlib.Data.List.Basic

namespace AppendLog

variable {S ρ κ : Type*} [DecidableEq S]

/-- Where the insertion of a session stands. -/
inductive Phase (ρ κ : Type*) where
  | idle
  | locked (request : κ)
  | seen (request : κ) (rows : List ρ)

/-- The committed rows, and what each open transaction has appended. -/
structure State (S ρ κ : Type*) where
  committed : List ρ
  pending : S → List ρ
  phase : S → Phase ρ κ
  holder : Option S

/-- No transaction is open and the table is empty. -/
def initial : State S ρ κ where
  committed := []
  pending _ := []
  phase _ := .idle
  holder := none

variable (form : List ρ → κ → ρ) (accepts : List ρ → ρ → Prop)

inductive Step : State S ρ κ → State S ρ κ → Prop
  /-- An insertion is granted the lock. -/
  | lock (t : State S ρ κ) (s : S) (request : κ) (h_phase : t.phase s = .idle)
      (h_free : t.holder = none ∨ t.holder = some s) :
      Step t { t with
        phase := Function.update t.phase s (.locked request)
        holder := some s }
  /-- It reads the first `snapshot` committed rows and those of its own transaction. -/
  | read (t : State S ρ κ) (s : S) (request : κ) (snapshot : Nat)
      (h_phase : t.phase s = .locked request) :
      Step t { t with
        phase := Function.update t.phase s
          (.seen request (t.committed.take snapshot ++ t.pending s)) }
  /-- The table accepts the row that was formed from them. -/
  | insert (t : State S ρ κ) (s : S) (request : κ) (rows : List ρ)
      (h_phase : t.phase s = .seen request rows)
      (h_accepts : accepts (t.committed ++ t.pending s) (form rows request)) :
      Step t { t with
        pending := Function.update t.pending s (t.pending s ++ [form rows request])
        phase := Function.update t.phase s .idle }
  /-- The row is not inserted and the transaction goes on. -/
  | skip (t : State S ρ κ) (s : S) :
      Step t { t with phase := Function.update t.phase s .idle }
  | commit (t : State S ρ κ) (s : S) (h_phase : t.phase s = .idle) :
      Step t {
        committed := t.committed ++ t.pending s
        pending := Function.update t.pending s []
        phase := t.phase
        holder := if t.holder = some s then none else t.holder }
  /-- The transaction fails, or its session ends. -/
  | abort (t : State S ρ κ) (s : S) :
      Step t { t with
        pending := Function.update t.pending s []
        phase := Function.update t.phase s .idle
        holder := if t.holder = some s then none else t.holder }

inductive Reachable : State S ρ κ → Prop
  | initial : Reachable initial
  | step {t t' : State S ρ κ} (h : Reachable t) (h_step : Step form accepts t t') : Reachable t'

/-- Only the holder of the lock has anything open, and its insertion has read a prefix of
    the committed rows and all of its own. -/
structure Exclusive (t : State S ρ κ) : Prop where
  idle : ∀ s, t.holder ≠ some s → t.pending s = [] ∧ t.phase s = .idle
  seen : ∀ s request rows, t.phase s = .seen request rows →
    ∃ snapshot, rows = t.committed.take snapshot ++ t.pending s

variable {form accepts}

omit [DecidableEq S] in
theorem Exclusive.initial : Exclusive (initial : State S ρ κ) where
  idle _ _ := ⟨rfl, rfl⟩
  seen _ _ _ h := by cases h

variable {t t' : State S ρ κ}

theorem Exclusive.holder_eq (h : Exclusive t) {s : S} (h_phase : t.phase s ≠ .idle) :
    t.holder = some s := by
  by_contra h_other
  exact h_phase (h.idle s h_other).2

theorem of_update {β : Type*} {f : S → β} {s s' : S} {a b : β} (h : Function.update f s a s' = b)
    (h_ne : a ≠ b) : s' ≠ s ∧ f s' = b := by
  by_cases h_eq : s' = s
  · subst h_eq
    exact absurd ((Function.update_self ..).symm.trans h) h_ne
  · exact ⟨h_eq, (Function.update_of_ne h_eq ..).symm.trans h⟩

theorem Exclusive.step (h : Exclusive t) (h_step : Step form accepts t t') : Exclusive t' := by
  cases h_step with
  | lock s request h_phase h_free =>
    refine ⟨fun s' h_other => ?_, fun s' request' rows h_seen => ?_⟩
    · have h_ne : s' ≠ s := by
        rintro rfl
        exact h_other rfl
      have h_before : t.holder ≠ some s' := by
        rcases h_free with h_free | h_free <;> rw [h_free]
        · nofun
        · exact fun h_eq => h_ne (Option.some.inj h_eq).symm
      simp only [Function.update_of_ne h_ne]
      exact h.idle s' h_before
    · exact h.seen s' request' rows (of_update h_seen nofun).2
  | read s request snapshot h_phase =>
    have h_holder := h.holder_eq (s := s) (by rw [h_phase]; nofun)
    refine ⟨fun s' h_other => ?_, fun s' request' rows h_seen => ?_⟩
    · have h_ne : s' ≠ s := by
        rintro rfl
        exact h_other h_holder
      simp only [Function.update_of_ne h_ne]
      exact h.idle s' h_other
    · by_cases h_eq : s' = s
      · subst h_eq
        simp only [Function.update_self] at h_seen
        cases h_seen
        exact ⟨snapshot, rfl⟩
      · simp only [Function.update_of_ne h_eq] at h_seen
        exact h.seen s' request' rows h_seen
  | insert s request rows h_phase h_accepts =>
    have h_holder := h.holder_eq (s := s) (by rw [h_phase]; nofun)
    refine ⟨fun s' h_other => ?_, fun s' request' rows' h_seen => ?_⟩
    · have h_ne : s' ≠ s := by
        rintro rfl
        exact h_other h_holder
      simp only [Function.update_of_ne h_ne]
      exact h.idle s' h_other
    · obtain ⟨h_eq, h_seen⟩ := of_update h_seen nofun
      simp only [Function.update_of_ne h_eq]
      exact h.seen s' request' rows' h_seen
  | skip s =>
    refine ⟨fun s' h_other => ?_, fun s' request' rows' h_seen => ?_⟩
    · obtain ⟨h_pending, h_phase⟩ := h.idle s' h_other
      refine ⟨h_pending, ?_⟩
      by_cases h_eq : s' = s
      · subst h_eq
        exact Function.update_self ..
      · simp only [Function.update_of_ne h_eq]
        exact h_phase
    · exact h.seen s' request' rows' (of_update h_seen nofun).2
  | commit s h_phase =>
    refine ⟨fun s' h_other => ?_, fun s' request' rows' h_seen => ?_⟩
    · by_cases h_eq : s' = s
      · subst h_eq
        exact ⟨Function.update_self .., h_phase⟩
      · simp only [Function.update_of_ne h_eq]
        refine h.idle s' fun h_holder => h_other ?_
        have h_ne : t.holder ≠ some s := by
          rw [h_holder]
          exact fun h_same => h_eq (Option.some.inj h_same)
        simp only [if_neg h_ne]
        exact h_holder
    · -- The committing session is idle, so another one has read: then it holds the lock,
      -- and this one has nothing to commit.
      have h_ne : s' ≠ s := by
        rintro rfl
        have h_idle : t.phase s' = .idle := h_phase
        rw [show t.phase s' = .seen request' rows' from h_seen] at h_idle
        cases h_idle
      have h_holder := h.holder_eq (s := s') (by
        rw [show t.phase s' = .seen request' rows' from h_seen]
        nofun)
      have h_empty := (h.idle s (by
        rw [h_holder]
        exact fun h_same => h_ne (Option.some.inj h_same))).1
      obtain ⟨snapshot, h_rows⟩ := h.seen s' request' rows' h_seen
      refine ⟨snapshot, ?_⟩
      simp only [Function.update_of_ne h_ne, h_empty, List.append_nil]
      exact h_rows
  | abort s =>
    refine ⟨fun s' h_other => ?_, fun s' request' rows' h_seen => ?_⟩
    · by_cases h_eq : s' = s
      · subst h_eq
        exact ⟨Function.update_self .., Function.update_self ..⟩
      · simp only [Function.update_of_ne h_eq]
        refine h.idle s' fun h_holder => h_other ?_
        have h_ne : t.holder ≠ some s := by
          rw [h_holder]
          exact fun h_same => h_eq (Option.some.inj h_same)
        simp only [if_neg h_ne]
        exact h_holder
    · obtain ⟨h_eq, h_seen⟩ := of_update h_seen nofun
      simp only [Function.update_of_ne h_eq]
      exact h.seen s' request' rows' h_seen

/-- The rows of every session that are there or will be once it commits. -/
def Holds (I : List ρ → Prop) (t : State S ρ κ) : Prop :=
  I t.committed ∧ ∀ s, I (t.committed ++ t.pending s)

theorem Holds.step {I : List ρ → Prop}
    (h_append : ∀ rows own snapshot request, I (rows ++ own) →
      accepts (rows ++ own) (form (rows.take snapshot ++ own) request) →
      I (rows ++ own ++ [form (rows.take snapshot ++ own) request]))
    (h_exclusive : Exclusive t) (h : Holds I t) (h_step : Step form accepts t t') :
    Holds I t' := by
  cases h_step with
  | lock s request h_phase h_free => exact h
  | read s request snapshot h_phase => exact h
  | skip s => exact h
  | insert s request rows h_phase h_accepts =>
    refine ⟨h.1, fun s' => ?_⟩
    by_cases h_eq : s' = s
    · subst h_eq
      obtain ⟨snapshot, rfl⟩ := h_exclusive.seen s' request rows h_phase
      simp only [Function.update_self, ← List.append_assoc]
      exact h_append _ _ snapshot request (h.2 s') h_accepts
    · simp only [Function.update_of_ne h_eq]
      exact h.2 s'
  | commit s h_phase =>
    refine ⟨h.2 s, fun s' => ?_⟩
    by_cases h_eq : s' = s
    · subst h_eq
      simp only [Function.update_self, List.append_nil]
      exact h.2 s'
    · -- Two sessions cannot both have something to commit.
      simp only [Function.update_of_ne h_eq]
      by_cases h_holder : t.holder = some s'
      · have h_other : t.holder ≠ some s := by
          rw [h_holder]
          exact fun h_same => h_eq (Option.some.inj h_same)
        rw [(h_exclusive.idle s h_other).1, List.append_nil]
        exact h.2 s'
      · rw [(h_exclusive.idle s' h_holder).1, List.append_nil]
        exact h.2 s
  | abort s =>
    refine ⟨h.1, fun s' => ?_⟩
    by_cases h_eq : s' = s
    · subst h_eq
      simp only [Function.update_self, List.append_nil]
      exact h.1
    · simp only [Function.update_of_ne h_eq]
      exact h.2 s'

/-- What holds of the empty table, and of every table with one more row that it accepts,
    holds of the committed rows of every state reached. -/
theorem Reachable.invariant {I : List ρ → Prop} (h_nil : I [])
    (h_append : ∀ rows own snapshot request, I (rows ++ own) →
      accepts (rows ++ own) (form (rows.take snapshot ++ own) request) →
      I (rows ++ own ++ [form (rows.take snapshot ++ own) request]))
    (h : Reachable form accepts t) : I t.committed := by
  have h_both : Exclusive t ∧ Holds I t := by
    induction h with
    | initial => exact ⟨Exclusive.initial, h_nil, fun _ => h_nil⟩
    | step _ h_step ih => exact ⟨ih.1.step h_step, ih.2.step h_append ih.1 h_step⟩
  exact h_both.2.1

end AppendLog
