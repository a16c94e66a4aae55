/-
  VyomQuant.Lib.RelyGuarantee

  Programs that share a store, each operation of one of them an atomic step, in any
  order, with operations that may fail before their effect or lose their answer after it.

  Two kinds of facts about one program carry over to all interleavings:

    * `Issues L`: whatever it is answered, it only issues operations of the form `L`;
    * `Relies`: if the others change the store only along `R`, each operation it issues
      meets `L` where it is issued, and it ends in `Q`.

  `Issues.invariant` and `Relies.interleaving` are the two rules; both let a run be
  restricted to steps that meet a condition `P`.

  `Certain L` is for what a program has still to do: whatever it is answered, it issues an
  operation of the form `L` before it returns.  `StepUnder` restricts a run by conditions
  that look at the programs as well.
-/

import VyomQuant.Lib.Optimistic

namespace Program

variable {Op : Type} {Res : Op → Type} {ε α β σ ι : Type}

/-! ## Operations issued -/

/-- Whatever the program is answered, it only issues operations of the form `L`. -/
def Issues (L : Op → Prop) : Program Res ε α → Prop
  | ret _ => True
  | raise _ => True
  | call op next => L op ∧ ∀ answer, (next answer).Issues L

variable {p : Program Res ε α}

namespace Issues

variable {L L' : Op → Prop}

theorem ret (a : α) : (Program.ret a : Program Res ε α).Issues L := trivial

theorem bind {f : α → Program Res ε β} (h : p.Issues L) (h_f : ∀ a, (f a).Issues L) :
    (p.bind f).Issues L := by
  induction p with
  | ret a => exact h_f a
  | raise e => trivial
  | call op next ih => exact ⟨h.1, fun answer => ih answer (h.2 answer)⟩

theorem tryCatch {recover : ε → Program Res ε α} (h : p.Issues L)
    (h_recover : ∀ e, (recover e).Issues L) : (p.tryCatch recover).Issues L := by
  induction p with
  | ret a => trivial
  | raise e => exact h_recover e
  | call op next ih => exact ⟨h.1, fun answer => ih answer (h.2 answer)⟩

theorem perform {op : Op} (h : L op) : (Program.perform op : Program Res ε (Res op)).Issues L :=
  ⟨h, fun answer => by cases answer <;> trivial⟩

theorem lift (x : Except ε α) : (Program.lift x : Program Res ε α).Issues L := by
  cases x <;> trivial

theorem refuseIf_bind {c : Prop} [Decidable c] {e : ε} {f : Unit → Program Res ε α}
    (h : ¬ c → (f ()).Issues L) : ((Program.refuseIf c e).bind f).Issues L := by
  unfold Program.refuseIf
  split
  · trivial
  · rename_i h_not
    exact h h_not

end Issues

/-! ## Operations that are certain to come -/

/-- Whatever the program is answered, it issues an operation of the form `L` before it ends. -/
def Certain (L : Op → Prop) : Program Res ε α → Prop
  | ret _ => False
  | raise _ => False
  | call op next => L op ∨ ∀ answer, (next answer).Certain L

def Ended : Program Res ε α → Prop
  | ret _ => True
  | raise _ => True
  | call _ _ => False

instance : (p : Program Res ε α) → Decidable p.Ended
  | ret _ => inferInstanceAs (Decidable True)
  | raise _ => inferInstanceAs (Decidable True)
  | call _ _ => inferInstanceAs (Decidable False)

namespace Certain

variable {L : Op → Prop}

theorem not_ended (h : p.Certain L) : ¬ p.Ended := by
  cases p with
  | ret a => exact fun _ => h
  | raise e => exact fun _ => h
  | call op next => exact id

theorem next {op : Op} {next : Except ε (Res op) → Program Res ε α}
    (h : (Program.call op next).Certain L) (h_op : ¬ L op) (answer : Except ε (Res op)) :
    (next answer).Certain L :=
  (h.resolve_left h_op) answer

end Certain

/-! ## How an operation may end -/

/-- An operation takes effect and is answered, or takes effect and its answer is lost, or
    fails before it has any effect. -/
inductive Responds (handle : Handler Res ε σ) (faults : ε → Prop) (op : Op) (s : σ) :
    Except ε (Res op) → σ → Prop
  | answered : Responds handle faults op s (handle op s).1 (handle op s).2
  | lost {e : ε} (h : faults e) : Responds handle faults op s (.error e) (handle op s).2
  | failed {e : ε} (h : faults e) : Responds handle faults op s (.error e) s

variable {handle : Handler Res ε σ} {faults : ε → Prop}

variable {s : σ}

theorem Responds.store {op : Op} {s' : σ} {answer : Except ε (Res op)}
    (h : Responds handle faults op s answer s') : s' = (handle op s).2 ∨ s' = s := by
  cases h with
  | answered => exact Or.inl rfl
  | lost => exact Or.inl rfl
  | failed => exact Or.inr rfl

/-! ## One program among others -/

section Relies

variable (handle faults) (R : σ → σ → Prop) (L : Op → σ → Prop) (Q : Except ε α → σ → Prop)

/-- While the others change the store along `R`, each operation of the program meets `L`
    where it is issued, and the program ends in `Q`. -/
def Relies : Program Res ε α → σ → Prop
  | ret a, s => ∀ s', R s s' → Q (.ok a) s'
  | raise e, s => ∀ s', R s s' → Q (.error e) s'
  | call op next, s => ∀ s', R s s' →
      L op s' ∧ ∀ answer s'', Responds handle faults op s' answer s'' → (next answer).Relies s''

end Relies

variable {I : σ → Prop}

namespace Relies

variable {R : σ → σ → Prop} {L : Op → σ → Prop} {Q Q' : Except ε α → σ → Prop}

theorem stable (h_trans : ∀ s s' s'', R s s' → R s' s'' → R s s'') {s' : σ}
    (h : p.Relies handle faults R L Q s) (h_R : R s s') : p.Relies handle faults R L Q s' := by
  cases p with
  | ret a => exact fun s'' h_R' => h s'' (h_trans s s' s'' h_R h_R')
  | raise e => exact fun s'' h_R' => h s'' (h_trans s s' s'' h_R h_R')
  | call op next => exact fun s'' h_R' => h s'' (h_trans s s' s'' h_R h_R')

theorem mono (h : p.Relies handle faults R L Q s) (h_Q : ∀ r s, Q r s → Q' r s) :
    p.Relies handle faults R L Q' s := by
  induction p generalizing s with
  | ret a => exact fun s' h_R => h_Q _ _ (h s' h_R)
  | raise e => exact fun s' h_R => h_Q _ _ (h s' h_R)
  | call op next ih =>
    exact fun s' h_R => ⟨(h s' h_R).1, fun answer s'' h_responds =>
      ih answer ((h s' h_R).2 answer s'' h_responds)⟩

theorem weaken {L' : Op → σ → Prop} (h : p.Relies handle faults R L Q s)
    (h_L : ∀ op s, L op s → L' op s) : p.Relies handle faults R L' Q s := by
  induction p generalizing s with
  | ret a => exact h
  | raise e => exact h
  | call op next ih =>
    exact fun s' h_R => ⟨h_L op s' (h s' h_R).1, fun answer s'' h_responds =>
      ih answer ((h s' h_R).2 answer s'' h_responds)⟩

theorem frame {F : σ → Prop} (h_stable : ∀ s s', F s → R s s' → F s')
    (h_handle : ∀ op s, F s → F (handle op s).2) (h : p.Relies handle faults R L Q s) (h_F : F s) :
    p.Relies handle faults R (fun op s => L op s ∧ F s) (fun r s => Q r s ∧ F s) s := by
  induction p generalizing s with
  | ret a => exact fun s' h_R => ⟨h s' h_R, h_stable s s' h_F h_R⟩
  | raise e => exact fun s' h_R => ⟨h s' h_R, h_stable s s' h_F h_R⟩
  | call op next ih =>
    intro s' h_R
    have h_F' : F s' := h_stable s s' h_F h_R
    refine ⟨⟨(h s' h_R).1, h_F'⟩, fun answer s'' h_responds =>
      ih answer ((h s' h_R).2 answer s'' h_responds) ?_⟩
    rcases h_responds.store with rfl | rfl
    · exact h_handle op s' h_F'
    · exact h_F'

theorem bind (h_refl : ∀ s, R s s) {p : Program Res ε β} {f : β → Program Res ε α}
    (h : p.Relies handle faults R L (fun r s => match r with | .ok b => (f b).Relies handle faults R L Q s | .error e => ∀ s', R s s' → Q (.error e) s') s) :
    (p.bind f).Relies handle faults R L Q s := by
  induction p generalizing s with
  | ret b => exact h s (h_refl s)
  | raise e => exact h s (h_refl s)
  | call op next ih =>
    exact fun s' h_R => ⟨(h s' h_R).1, fun answer s'' h_responds =>
      ih answer ((h s' h_R).2 answer s'' h_responds)⟩

theorem run (h_refl : ∀ s, R s s) (h_op : ∀ op s, I s → L op s → I (handle op s).2)
    (h : p.Relies handle faults R L Q s) (h_init : I s) :
    I (p.run handle s).2 ∧ Q (p.run handle s).1 (p.run handle s).2 := by
  induction p generalizing s with
  | ret a => exact ⟨h_init, h s (h_refl s)⟩
  | raise e => exact ⟨h_init, h s (h_refl s)⟩
  | call op next ih =>
    obtain ⟨h_L, h_next⟩ := h s (h_refl s)
    exact ih _ (h_next _ _ .answered) (h_op op s h_init h_L)

end Relies

/-! ## Interleavings -/

open Optimistic (Config)

/-- One program of the pool issues its next operation, where `P` allows it. -/
inductive StepWhere [DecidableEq ι] (handle : Handler Res ε σ) (faults : ε → Prop)
    (P : Op → σ → Prop) : Config Res ε α σ ι → Config Res ε α σ ι → Prop
  | issue {c : Config Res ε α σ ι} (i : ι) {op : Op}
      {next : Except ε (Res op) → Program Res ε α} {answer : Except ε (Res op)} {s' : σ}
      (h : c.pool i = .call op next) (h_P : P op c.store)
      (h_responds : Responds handle faults op c.store answer s') :
      StepWhere handle faults P c ⟨s', Function.update c.pool i (next answer)⟩

variable [DecidableEq ι] {P : Op → σ → Prop} {c c' : Config Res ε α σ ι}

/-- The next operation of program `i`, where it has one and `P` allows it. -/
def issueWhere (handle : Handler Res ε σ) (P : Op → σ → Prop) [∀ op s, Decidable (P op s)]
    (c : Config Res ε α σ ι) (i : ι) : Config Res ε α σ ι :=
  match c.pool i with
  | .call op next =>
    if P op c.store then
      ⟨(handle op c.store).2, Function.update c.pool i (next (handle op c.store).1)⟩
    else c
  | _ => c

theorem issueWhere_step [∀ op s, Decidable (P op s)] {i : ι} (h_more : ¬ (c.pool i).Ended)
    (h_P : ∀ op next, c.pool i = .call op next → P op c.store) :
    StepWhere handle faults P c (issueWhere handle P c i) := by
  unfold issueWhere
  split
  · rename_i op next h
    rw [if_pos (h_P op next h)]
    exact .issue i h (h_P op next h) .answered
  · rename_i h_ended
    cases h : c.pool i with
    | ret a =>
      rw [h] at h_more
      exact absurd trivial h_more
    | raise e =>
      rw [h] at h_more
      exact absurd trivial h_more
    | call op next => exact absurd h (h_ended op next)

/-- The configuration a schedule leads to, every operation answered. -/
def executeWhere (handle : Handler Res ε σ) (P : Op → σ → Prop) [∀ op s, Decidable (P op s)]
    (c : Config Res ε α σ ι) (schedule : List ι) : Config Res ε α σ ι :=
  schedule.foldl (issueWhere handle P) c

theorem executeWhere_reachable [∀ op s, Decidable (P op s)] (schedule : List ι) :
    Relation.ReflTransGen (StepWhere handle faults P) c (executeWhere handle P c schedule) := by
  induction schedule generalizing c with
  | nil => exact .refl
  | cons i rest ih =>
    show Relation.ReflTransGen _ c (executeWhere handle P (issueWhere handle P c i) rest)
    refine .trans ?_ ih
    unfold issueWhere
    split
    · rename_i op next h
      split
      · rename_i h_P
        exact .single (.issue i h h_P .answered)
      · exact .refl
    · exact .refl

/-- An invariant that operations of the form `L` keep where `P` holds is an invariant of
    every interleaving of programs that issue no others. -/
theorem Issues.invariant {L : Op → Prop} (h_op : ∀ op s, L op → P op s → I s → I (handle op s).2)
    (h_run : Relation.ReflTransGen (StepWhere handle faults P) c c')
    (h_pool : ∀ i, (c.pool i).Issues L) (h_init : I c.store) :
    I c'.store ∧ ∀ i, (c'.pool i).Issues L := by
  induction h_run with
  | refl => exact ⟨h_init, h_pool⟩
  | tail _ h_step ih =>
    obtain ⟨h_I, h_issues⟩ := ih
    cases h_step with
    | @issue i op next answer s' h h_P h_responds =>
      rename_i c _
      have h_call := h_issues i
      rw [h] at h_call
      refine ⟨?_, fun j => ?_⟩
      · rcases h_responds.store with rfl | rfl
        · exact h_op _ _ h_call.1 h_P h_I
        · exact h_I
      · show (Function.update c.pool i (next answer) j).Issues L
        by_cases h_j : j = i
        · subst h_j
          rw [Function.update_self]
          exact h_call.2 _
        · rw [Function.update_of_ne h_j]
          exact h_issues j

/-- What each program achieves while the others keep to `R`, every program achieves in
    every interleaving in which each step keeps to `R` and to the invariant. -/
theorem Relies.interleaving {R : σ → σ → Prop} {L : ι → Op → σ → Prop}
    {Q : ι → Except ε α → σ → Prop} (h_refl : ∀ s, R s s)
    (h_trans : ∀ s s' s'', R s s' → R s' s'' → R s s'')
    (h_op : ∀ i op s, I s → L i op s → P op s → I (handle op s).2 ∧ R s (handle op s).2)
    (h_run : Relation.ReflTransGen (StepWhere handle faults P) c c') (h_init : I c.store)
    (h_pool : ∀ i, (c.pool i).Relies handle faults R (L i) (Q i) c.store) :
    I c'.store ∧ ∀ i, (c'.pool i).Relies handle faults R (L i) (Q i) c'.store := by
  induction h_run with
  | refl => exact ⟨h_init, h_pool⟩
  | tail _ h_step ih =>
    obtain ⟨h_I, h_relies⟩ := ih
    cases h_step with
    | @issue i op next answer s' h h_P h_responds =>
      rename_i c _
      have h_call := h_relies i
      rw [h] at h_call
      obtain ⟨h_L, h_next⟩ := h_call c.store (h_refl _)
      have h_effect := h_op i op c.store h_I h_L h_P
      have h_store : I s' ∧ R c.store s' := by
        rcases h_responds.store with rfl | rfl
        · exact h_effect
        · exact ⟨h_I, h_refl _⟩
      refine ⟨h_store.1, fun j => ?_⟩
      show (Function.update c.pool i (next answer) j).Relies handle faults R (L j) (Q j) s'
      by_cases h_j : j = i
      · subst h_j
        rw [Function.update_self]
        exact h_next answer s' h_responds
      · rw [Function.update_of_ne h_j]
        exact (h_relies j).stable h_trans h_store.2

/-- One program of the pool issues its next operation, where `P` allows it with its answer. -/
inductive StepUnder (handle : Handler Res ε σ) (faults : ε → Prop)
    (P : Config Res ε α σ ι → (op : Op) → Except ε (Res op) → Prop) :
    Config Res ε α σ ι → Config Res ε α σ ι → Prop
  | issue {c : Config Res ε α σ ι} (i : ι) {op : Op}
      {next : Except ε (Res op) → Program Res ε α} {answer : Except ε (Res op)} {s' : σ}
      (h : c.pool i = .call op next) (h_P : P c op answer)
      (h_responds : Responds handle faults op c.store answer s') :
      StepUnder handle faults P c ⟨s', Function.update c.pool i (next answer)⟩

theorem StepWhere.stepUnder (h : StepWhere handle faults P c c') :
    StepUnder handle faults (fun c op _ => P op c.store) c c' := by
  cases h with
  | issue i h h_P h_responds => exact .issue i h h_P h_responds

theorem StepUnder.stepWhere {P' : Config Res ε α σ ι → (op : Op) → Except ε (Res op) → Prop}
    (h : StepUnder handle faults P' c c') : StepWhere handle faults (fun _ _ => True) c c' := by
  cases h with
  | issue i h _ h_responds => exact .issue i h trivial h_responds

theorem Relies.of_ret {R : σ → σ → Prop} {L : Op → σ → Prop} {Q : Except ε α → σ → Prop}
    (h_refl : ∀ s, R s s) {a : α}
    (h : (Program.ret a : Program Res ε α).Relies handle faults R L Q s) : Q (.ok a) s :=
  h s (h_refl s)

/-! ## One program and one interference -/

/-- Run a program alone, but for one change of the store: `some k` puts it right after the
    answer of operation `k`, `none` leaves it out. -/
def runAmid (handle : Handler Res ε σ) (change : σ → σ) :
    Option ℕ → Program Res ε α → σ → Except ε α × σ
  | _, ret a, s => (.ok a, s)
  | _, raise e, s => (.error e, s)
  | none, call op next, s =>
    (next (handle op s).1).runAmid handle change none (handle op s).2
  | some 0, call op next, s =>
    (next (handle op s).1).runAmid handle change none (change (handle op s).2)
  | some (k + 1), call op next, s =>
    (next (handle op s).1).runAmid handle change (some k) (handle op s).2

theorem runAmid_invariant {handle : Handler Res ε σ} {change : σ → σ}
    (h_op : ∀ op s, I s → I (handle op s).2) (h_change : ∀ s, I s → I (change s))
    (during : Option ℕ) (h_init : I s) : I (p.runAmid handle change during s).2 := by
  induction p generalizing during s with
  | ret a => cases during <;> exact h_init
  | raise e => cases during <;> exact h_init
  | call op next ih =>
    match during with
    | none => exact ih _ none (h_op op s h_init)
    | some 0 => exact ih _ none (h_change _ (h_op op s h_init))
    | some (k + 1) => exact ih _ (some k) (h_op op s h_init)

end Program
