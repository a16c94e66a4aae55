/-
  VyomQuant.Lib.Alternation

  Two signals that take turns.  Along a list of bars a trader that is flat acts on the
  first bar that wants an entry, and one that is long on the first bar after that wants an
  exit (`turns`, `turns_append_of_quiet`).

  A gate that vetoes signals can stand before the turns are taken or after.  The two give
  the same signals exactly when no signal passes the gate while an odd number of the turns
  taken before it were vetoed (`vetoed_eq_turns_iff`).
-/

import Mathlib.Algebra.Group.Even
import Mathlib.Algebra.Ring.Parity
import Mathlib.Data.List.Basic

namespace Alternation

inductive Turn where
  | enter
  | leave

namespace Turn

def other : Turn → Turn
  | enter => leave
  | leave => enter

@[simp] theorem other_other (t : Turn) : t.other.other = t := by cases t <;> rfl

@[simp] theorem other_ne_self (t : Turn) : t.other ≠ t := by cases t <;> simp [other]

@[simp] theorem self_ne_other (t : Turn) : t ≠ t.other := by cases t <;> simp [other]

end Turn

/-- The turns `next, next.other, next, …`, as far as they go. -/
def Alternating : Turn → List Turn → Prop
  | _, [] => True
  | next, t :: ts => t = next ∧ Alternating next.other ts

variable {β : Type*} (wants passes : Turn → β → Bool)

/-- The turn taken on a bar, if one is: the next one in turn, where it is wanted. -/
def taken (next : Turn) (b : β) : Option Turn := if wants next b then some next else none

def after (next : Turn) (b : β) : Turn := if wants next b then next.other else next

/-- The turn taken on each bar. -/
def turns : Turn → List β → List (Option Turn)
  | _, [] => []
  | next, b :: bars => taken wants next b :: turns (after wants next b) bars

/-- The turn that is next after the bars. -/
def upcoming : Turn → List β → Turn
  | next, [] => next
  | next, b :: bars => upcoming (after wants next b) bars

/-- What the gate leaves of a turn taken on the bar. -/
def veto (turn : Option Turn) (b : β) : Option Turn := turn.filter (passes · b)

/-- The turns taken first and the gate applied to each of them after. -/
def vetoed (next : Turn) (bars : List β) : List (Option Turn) :=
  List.zipWith (veto passes) (turns wants next bars) bars

def gated (t : Turn) (b : β) : Bool := wants t b && passes t b

/-- How many of the turns taken the gate vetoes. -/
def vetoes : Turn → List β → ℕ
  | _, [] => 0
  | next, b :: bars =>
    (if wants next b && !passes next b then 1 else 0) + vetoes (after wants next b) bars

variable {next : Turn} {b : β}

section Turns

variable {wants}

theorem taken_of_wants (h : wants next b = true) : taken wants next b = some next := if_pos h

theorem taken_of_quiet (h : wants next b = false) : taken wants next b = none := by simp [taken, h]

theorem after_of_wants (h : wants next b = true) : after wants next b = next.other := if_pos h

theorem after_of_quiet (h : wants next b = false) : after wants next b = next := by simp [after, h]

@[simp] theorem turns_length (next : Turn) (bars : List β) :
    (turns wants next bars).length = bars.length := by
  induction bars generalizing next with
  | nil => rfl
  | cons b bars ih => simp [turns, ih]

theorem turns_eq_none_iff (next : Turn) (bars : List β) :
    (∀ turn ∈ turns wants next bars, turn = none) ↔ ∀ b ∈ bars, wants next b = false := by
  induction bars with
  | nil => simp [turns]
  | cons b bars ih =>
    rw [turns, List.forall_mem_cons, List.forall_mem_cons]
    cases h_b : wants next b with
    | true => simp [taken_of_wants h_b]
    | false => simp [taken_of_quiet h_b, after_of_quiet h_b, ih]

theorem turns_alternating (next : Turn) (bars : List β) :
    Alternating next ((turns wants next bars).filterMap id) := by
  induction bars generalizing next with
  | nil => trivial
  | cons b bars ih =>
    cases h_b : wants next b with
    | true =>
      simpa [turns, taken_of_wants h_b, after_of_wants h_b, Alternating] using ih next.other
    | false => simpa [turns, taken_of_quiet h_b, after_of_quiet h_b] using ih next

end Turns

/-! ## The gate before and after -/

/-- After an odd number of vetoes the trader that gates first is one turn behind. -/
def apart (next : Turn) (n : ℕ) : Turn := if Even n then next else next.other

@[simp] theorem apart_zero (next : Turn) : apart next 0 = next := by simp [apart]

@[simp] theorem apart_other (next : Turn) (n : ℕ) :
    (apart next n).other = apart next.other n := by
  unfold apart
  split <;> rfl

theorem apart_succ (next : Turn) (n : ℕ) : apart next (n + 1) = (apart next n).other := by
  by_cases h : Even n <;> simp [apart, Nat.even_add_one, h]

theorem isSome_taken (next : Turn) (b : β) : (taken wants next b).isSome = wants next b := by
  unfold taken
  cases wants next b <;> rfl

theorem taken_veto (next : Turn) (b : β) :
    veto passes (taken wants next b) b = taken (gated wants passes) next b := by
  cases h_b : wants next b with
  | true => simp [taken, gated, veto, h_b, Option.filter]
  | false => simp [taken, gated, veto, h_b]

theorem forall_split_cons {c : β} {bars : List β} {P : List β → β → Prop} :
    (∀ pre b post, c :: bars = pre ++ b :: post → P pre b) ↔
      P [] c ∧ ∀ pre b post, bars = pre ++ b :: post → P (c :: pre) b := by
  constructor
  · intro h
    exact ⟨h [] c bars rfl, fun pre b post h_bars => h (c :: pre) b post (by rw [h_bars]; rfl)⟩
  · rintro ⟨h_head, h_tail⟩ pre b post h_bars
    cases pre with
    | nil =>
      obtain ⟨rfl, -⟩ := List.cons.inj h_bars
      exact h_head
    | cons a pre =>
      obtain ⟨rfl, h_rest⟩ := List.cons.inj h_bars
      exact h_tail pre b post h_rest

theorem after_apart {n : ℕ} (rename : Turn → Turn)
    (h : (taken (gated wants passes) next b).map rename = taken (gated wants passes) (apart next n) b) :
    after (gated wants passes) (apart next n) b =
      apart (after wants next b) (n + if wants next b && !passes next b then 1 else 0) := by
  have h_acts : gated wants passes (apart next n) b = gated wants passes next b := by
    have h_some := congrArg Option.isSome h
    rw [Option.isSome_map, isSome_taken, isSome_taken] at h_some
    exact h_some.symm
  unfold after
  rw [h_acts]
  cases h_wants : wants next b with
  | false => simp [gated, h_wants]
  | true =>
    cases h_passes : passes next b with
    | false => simp [gated, h_wants, h_passes, apart_succ]
    | true => simp [gated, h_wants, h_passes]

/-- Whatever the turns taken first are renamed to, the two lists agree exactly when on each
    bar the turn that one takes and the gate leaves is the turn that the other takes. -/
theorem map_vetoed_eq_turns_iff (rename : Turn → Turn) (next : Turn) (n : ℕ)
    (bars : List β) :
    (vetoed wants passes next bars).map (Option.map rename) =
        turns (gated wants passes) (apart next n) bars ↔
      ∀ pre b post, bars = pre ++ b :: post →
        (taken (gated wants passes) (upcoming wants next pre) b).map rename =
          taken (gated wants passes)
            (apart (upcoming wants next pre) (n + vetoes wants passes next pre)) b := by
  induction bars generalizing next n with
  | nil => simp [vetoed, turns]
  | cons c bars ih =>
    rw [forall_split_cons, vetoed, turns, turns, List.zipWith_cons_cons, List.map_cons,
      taken_veto, List.cons.injEq]
    simp only [upcoming, vetoes, Nat.add_zero]
    refine and_congr_right fun h_head => ?_
    rw [after_apart wants passes rename h_head]
    simp only [← Nat.add_assoc]
    exact ih _ _

theorem Turn.forall_iff {P : Turn → Prop} (t : Turn) : (∀ t, P t) ↔ P t ∧ P t.other := by
  constructor
  · intro h
    exact ⟨h t, h t.other⟩
  · rintro ⟨h_self, h_other⟩ u
    cases t <;> cases u <;> assumption

theorem taken_eq_taken_other_iff (next : Turn) (b : β) :
    taken wants next b = taken wants next.other b ↔ ∀ t, wants t b = false := by
  rw [Turn.forall_iff next]
  cases h_next : wants next b <;> cases h_other : wants next.other b <;>
    simp [taken, h_next, h_other]

theorem map_other_taken_eq_taken_iff (next : Turn) (b : β) :
    (taken wants next b).map Turn.other = taken wants next b ↔ wants next b = false := by
  cases h_next : wants next b <;> simp [taken, h_next]

theorem map_other_taken_eq_taken_other_iff (next : Turn) (b : β) :
    (taken wants next b).map Turn.other = taken wants next.other b ↔
      wants next b = wants next.other b := by
  cases h_next : wants next b <;> cases h_other : wants next.other b <;>
    simp [taken, h_next, h_other]

/-- Gating after the turns are taken is gating before, exactly when no signal passes the gate
    while an odd number of the turns taken earlier were vetoed. -/
theorem vetoed_eq_turns_iff (next : Turn) (bars : List β) :
    vetoed wants passes next bars = turns (gated wants passes) next bars ↔
      ∀ pre b post, bars = pre ++ b :: post → Odd (vetoes wants passes next pre) →
        ∀ t, gated wants passes t b = false := by
  have h_iff := map_vetoed_eq_turns_iff wants passes id next 0 bars
  simp only [Option.map_id_fun, List.map_id_fun, id_eq, apart_zero, Nat.zero_add] at h_iff
  rw [h_iff]
  refine forall_congr' fun pre => forall_congr' fun b => forall₂_congr fun post _ => ?_
  rw [apart]
  by_cases h_even : Even (vetoes wants passes next pre)
  · simp [h_even]
  · simp only [h_even, if_false, taken_eq_taken_other_iff, Nat.not_even_iff_odd.mp h_even,
      forall_const]

/-- With every turn reversed the two agree exactly when, after an even number of vetoes, the
    turn that is next does not pass the gate, and after an odd number both pass or neither. -/
theorem map_other_vetoed_eq_turns_iff (next : Turn) (bars : List β) :
    (vetoed wants passes next bars).map (Option.map Turn.other) =
        turns (gated wants passes) next bars ↔
      ∀ pre b post, bars = pre ++ b :: post →
        (Even (vetoes wants passes next pre) →
          gated wants passes (upcoming wants next pre) b = false) ∧
        (Odd (vetoes wants passes next pre) →
          gated wants passes .enter b = gated wants passes .leave b) := by
  have h_iff := map_vetoed_eq_turns_iff wants passes Turn.other next 0 bars
  simp only [apart_zero, Nat.zero_add] at h_iff
  rw [h_iff]
  refine forall_congr' fun pre => forall_congr' fun b => forall₂_congr fun post _ => ?_
  rw [apart]
  by_cases h_even : Even (vetoes wants passes next pre)
  · simp [h_even, map_other_taken_eq_taken_iff]
  · simp only [h_even, if_false, false_implies, true_and, Nat.not_even_iff_odd.mp h_even,
      forall_const, map_other_taken_eq_taken_other_iff]
    cases upcoming wants next pre with
    | enter => rfl
    | leave => exact eq_comm

end Alternation
