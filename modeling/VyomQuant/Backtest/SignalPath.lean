/-
  VyomQuant.Backtest.SignalPath

  From the strategy's entry and exit series to the signals that the simulator is given: the
  position filter, the ML gate, the sizes and the two series read off them again.

  The filter runs before the gate, so it counts signals that the gate then vetoes.  What the
  simulator is given is the sequential rule exactly when no signal passes the gate while an
  odd number of counted ones were vetoed (`tradesRule_iff`); without a model nothing is
  vetoed (`tradesRule_of_no_model`).

  Prices, predictions and sizes are any type with the comparisons of the source, so that
  binary floats with their NaN are an instance.
-/

import VyomQuant.Lib.Alternation
import Mathlib.Algebra.Order.Ring.Rat
import Mathlib.Tactic.NormNum

namespace VyomQuant.Backtest

open Alternation

/-- What the signal path does with numbers: the comparisons are those of IEEE floats, and
    `sub` may round. -/
class Number (α : Type) where
  zero : α
  one : α
  nan : α
  literal : ℚ → α
  neg : α → α
  sub : α → α → α
  lt : α → α → Bool
  le : α → α → Bool
  isNaN : α → Bool
  format : α → String
  isNaN_nan : isNaN nan = true
  isNaN_neg : ∀ a, isNaN (neg a) = isNaN a
  lt_of_isNaN : ∀ a b, isNaN a || isNaN b → lt a b = false
  zero_lt_neg_eq : ∀ a, lt zero (neg a) = lt a zero
  neg_lt_zero_eq : ∀ a, lt (neg a) zero = lt zero a
  lt_asymm : ∀ a b, lt a b = true → lt b a = false

open Number

/-- Exact numbers with a NaN. -/
instance : Number (Option ℚ) where
  zero := some 0
  one := some 1
  nan := none
  literal := some
  neg := Option.map (- ·)
  sub := fun a b => a.bind fun x => b.map (x - ·)
  lt := fun a b => (a.bind fun x => b.map fun y => decide (x < y)).getD false
  le := fun a b => (a.bind fun x => b.map fun y => decide (x ≤ y)).getD false
  isNaN := Option.isNone
  format := fun a => (a.map toString).getD "nan"
  isNaN_nan := rfl
  isNaN_neg := fun _ => Option.isNone_map
  lt_of_isNaN := by
    intro a b h
    cases a <;> cases b <;> simp_all
  zero_lt_neg_eq := by
    intro a
    cases a <;> simp
  neg_lt_zero_eq := by
    intro a
    cases a <;> simp
  lt_asymm := by
    intro a b h
    cases a <;> cases b <;> simp_all [le_of_lt]

/-! ## The signal path -/

/-- One bar of the aligned series: `prediction` is read when there is a model. -/
structure Bar (α : Type) where
  entry : Bool
  exit : Bool
  prediction : α

/-- One bar of `entries` and `exits`. -/
structure Signal where
  entry : Bool
  exit : Bool
  deriving DecidableEq

namespace Signal

def hold : Signal := ⟨false, false⟩

def long : Signal := ⟨true, false⟩

def short : Signal := ⟨false, true⟩

end Signal

structure Params (α : Type) where
  mlThreshold : Option α
  tradeSizePct : Option α

inductive RunError (α : Type) where
  | tooFewBars (bars : ℕ)
  | noSignals (entries exits : ℕ) (mlThreshold : Option α)

def MIN_BARS : ℕ := 50

variable {α : Type} [Number α]

def RunError.message : RunError α → String
  | .tooFewBars bars =>
    s!"Backtest requires at least 50 bars. Got {bars}. Fetch more historical data."
  | .noSignals entries exits mlThreshold =>
    "Strategy generated 0 signals. The strategy produced " ++
      s!"{entries} entry and {exits} exit signals that were open/close-consistent" ++
      match mlThreshold with
      | some threshold =>
        s!", and the ML gate at threshold {format threshold} admitted none of them."
      | none => " -- relax the technical conditions or widen the date range."

/-- The loop over the bars: `holding` is its variable. -/
def positionFilter : Bool → List (Bar α) → List Signal
  | _, [] => []
  | holding, bar :: bars =>
    if bar.entry && !holding then .long :: positionFilter true bars
    else if bar.exit && holding then .short :: positionFilter false bars
    else .hold :: positionFilter holding bars

/-- `np.clip`, which hands a NaN through. -/
def clip (a low high : α) : α :=
  if isNaN a then a else if lt a low then low else if lt high a then high else a

def mlThreshold (params : Params α) : α :=
  clip (params.mlThreshold.getD (literal 0.80)) (literal 0.5) (literal 0.99)

def tradeSize (params : Params α) : α := params.tradeSizePct.getD (literal 0.10)

def longMask (hasModel : Bool) (params : Params α) (bar : Bar α) (techLong : Bool) : Bool :=
  if hasModel then techLong && le (mlThreshold params) bar.prediction else techLong

def shortMask (hasModel : Bool) (params : Params α) (bar : Bar α) (techShort : Bool) : Bool :=
  if hasModel then techShort && le bar.prediction (sub one (mlThreshold params))
  else techShort

/-- The element of `sizes`: NaN is to hold. -/
def size (hasModel : Bool) (params : Params α) (bar : Bar α) (kept : Signal) : α :=
  if shortMask hasModel params bar kept.exit then neg (tradeSize params)
  else if longMask hasModel params bar kept.entry then tradeSize params
  else nan

/-- The series `entries` and `exits` that `from_signals` is given. -/
def signals (hasModel : Bool) (params : Params α) (bars : List (Bar α)) :
    Except (RunError α) (List Signal) :=
  if bars.length < MIN_BARS then .error (.tooFewBars bars.length)
  else
    let kept := positionFilter false bars
    let sizes := List.zipWith (size hasModel params) bars kept
    if sizes.all isNaN then
      .error (.noSignals (kept.countP Signal.entry) (kept.countP Signal.exit)
        (if hasModel then some (mlThreshold params) else none))
    else .ok (sizes.map fun s => ⟨lt zero s, lt s zero⟩)

/-! ## The sequential rule -/

def Signal.ofTurn : Option Turn → Signal
  | some .enter => .long
  | some .leave => .short
  | none => .hold

/-- The entry or exit condition of a bar. -/
def wants : Turn → Bar α → Bool
  | .enter, bar => bar.entry
  | .leave, bar => bar.exit

/-- The ML gate on an entry or an exit of a bar. -/
def passes (hasModel : Bool) (params : Params α) : Turn → Bar α → Bool
  | .enter, bar => !hasModel || le (mlThreshold params) bar.prediction
  | .leave, bar => !hasModel || le bar.prediction (sub one (mlThreshold params))

/-- When flat act on the first bar whose entry passes the gate, when long on the first later
    bar whose exit passes it (`turns_append_of_quiet`). -/
def rule (hasModel : Bool) (params : Params α) (bars : List (Bar α)) : List Signal :=
  (turns (gated wants (passes hasModel params)) .enter bars).map .ofTurn

/-- At most one signal a bar, an entry first, and entries and exits in turn. -/
def Alternates (handed : List Signal) : Prop :=
  ∃ acts : List (Option Turn), handed = acts.map .ofTurn ∧ Alternating .enter (acts.filterMap id)

/-- The simulator is given the sequential rule; a run refused for want of signals is one
    whose rule acts on no bar. -/
def TradesRule (hasModel : Bool) (params : Params α) (bars : List (Bar α)) : Prop :=
  match signals hasModel params bars with
  | .ok handed => Alternates handed ∧ handed = rule hasModel params bars
  | .error (.noSignals _ _ _) => ∀ s ∈ rule hasModel params bars, s = .hold
  | .error (.tooFewBars _) => True

/-- When the filter and the rule act on the same bars.  With a positive size: no signal
    passes the gate after an odd number of vetoed ones.  A negative size turns entries into
    exits and back, and any other gives no signal at all. -/
def InStep (hasModel : Bool) (params : Params α) (bars : List (Bar α)) : Prop :=
  let passing := gated wants (passes hasModel params)
  let vetoesBefore := vetoes wants (passes hasModel params) .enter
  if lt zero (tradeSize params) then
    ∀ pre bar post, bars = pre ++ bar :: post → Odd (vetoesBefore pre) →
      ∀ t, passing t bar = false
  else if lt (tradeSize params) zero then
    ∀ pre bar post, bars = pre ++ bar :: post →
      (Even (vetoesBefore pre) → passing (upcoming wants .enter pre) bar = false) ∧
      (Odd (vetoesBefore pre) → passing .enter bar = passing .leave bar)
  else ∀ bar ∈ bars, passing .enter bar = false

/-! ## What the simulator is given -/

@[simp] theorem Signal.ofTurn_eq_hold_iff (t : Option Turn) :
    Signal.ofTurn t = .hold ↔ t = none := by
  rcases t with _ | t
  · simp [Signal.ofTurn]
  · cases t <;> simp [Signal.ofTurn, Signal.long, Signal.short, Signal.hold]

theorem Signal.ofTurn_injective : Function.Injective Signal.ofTurn := by
  intro s t h
  rcases s with _ | s
  · exact ((Signal.ofTurn_eq_hold_iff t).mp h.symm).symm
  · rcases t with _ | t
    · exact (Signal.ofTurn_eq_hold_iff _).mp h
    · cases s <;> cases t <;> simp_all [Signal.ofTurn, Signal.long, Signal.short]

omit [Number α] in
theorem positionFilter_eq (holding : Bool) (bars : List (Bar α)) :
    positionFilter holding bars =
      (turns wants (if holding then .leave else .enter) bars).map .ofTurn := by
  induction bars generalizing holding with
  | nil => rfl
  | cons bar bars ih =>
    rw [positionFilter, turns, List.map_cons]
    cases holding with
    | true =>
      cases h_exit : bar.exit <;>
        simp [ih, taken, after, wants, h_exit, Signal.ofTurn, Turn.other]
    | false =>
      cases h_entry : bar.entry <;>
        simp [ih, taken, after, wants, h_entry, Signal.ofTurn, Turn.other]

variable (hasModel : Bool) (params : Params α) (bars : List (Bar α))

/-- The size of a turn that was counted and not vetoed. -/
def sizeOf : Option Turn → α
  | some .enter => tradeSize params
  | some .leave => neg (tradeSize params)
  | none => nan

theorem size_ofTurn (bar : Bar α) (t : Option Turn) :
    size hasModel params bar (.ofTurn t) =
      sizeOf params (veto (passes hasModel params) t bar) := by
  rcases t with _ | t
  · cases hasModel <;> rfl
  · cases hasModel with
    | false => cases t <;> rfl
    | true =>
      cases t <;>
        simp only [size, longMask, shortMask, Signal.ofTurn, Signal.long, Signal.short, veto,
          passes, Option.filter, Bool.true_and, Bool.false_and, Bool.not_true, Bool.false_or,
          if_true, Bool.false_eq_true, if_false] <;>
        split <;> rfl

theorem sizes_eq :
    List.zipWith (size hasModel params) bars (positionFilter false bars) =
      (vetoed wants (passes hasModel params) .enter bars).map (sizeOf params) := by
  rw [positionFilter_eq, List.zipWith_map_right, List.zipWith_comm, vetoed, List.map_zipWith]
  simp only [size_ofTurn]
  rfl

theorem signals_eq :
    signals hasModel params bars =
      if bars.length < MIN_BARS then .error (.tooFewBars bars.length)
      else if ((vetoed wants (passes hasModel params) .enter bars).map (sizeOf params)).all
          isNaN then
        .error (.noSignals ((positionFilter false bars).countP Signal.entry)
          ((positionFilter false bars).countP Signal.exit)
          (if hasModel then some (mlThreshold params) else none))
      else .ok ((vetoed wants (passes hasModel params) .enter bars).map fun t =>
        ⟨lt zero (sizeOf params t), lt (sizeOf params t) zero⟩) := by
  rw [signals]
  simp only [sizes_eq, List.map_map]
  rfl

theorem rule_eq_hold_iff :
    (∀ s ∈ rule hasModel params bars, s = .hold) ↔
      ∀ t ∈ turns (gated wants (passes hasModel params)) .enter bars, t = none := by
  simp [rule]

theorem tradesRule_iff_of_acts :
    TradesRule hasModel params bars ↔ bars.length < MIN_BARS ∨
      if ((vetoed wants (passes hasModel params) .enter bars).map (sizeOf params)).all isNaN then
        ∀ t ∈ turns (gated wants (passes hasModel params)) .enter bars, t = none
      else ((vetoed wants (passes hasModel params) .enter bars).map fun t =>
        ⟨lt zero (sizeOf params t), lt (sizeOf params t) zero⟩) = rule hasModel params bars := by
  have h_alternates : Alternates (rule hasModel params bars) :=
    ⟨_, rfl, turns_alternating .enter bars⟩
  rw [TradesRule, signals_eq]
  by_cases h_few : bars.length < MIN_BARS
  · simp [h_few]
  · rw [if_neg h_few, or_iff_right h_few]
    by_cases h_all : ((vetoed wants (passes hasModel params) .enter bars).map
        (sizeOf params)).all isNaN
    · rw [if_pos h_all, if_pos h_all]
      exact rule_eq_hold_iff hasModel params bars
    · rw [if_neg h_all, if_neg h_all]
      refine and_iff_right_of_imp fun h_eq => ?_
      rw [h_eq]
      exact h_alternates

theorem eq_iff_of_all_none {β : Type*} {xs ys : List (Option β)} (h_len : xs.length = ys.length)
    (h_xs : ∀ x ∈ xs, x = none) : xs = ys ↔ ∀ y ∈ ys, y = none := by
  rw [List.eq_replicate_iff.mpr ⟨rfl, h_xs⟩, h_len, eq_comm, List.eq_replicate_iff]
  simp

variable {params}

/-- The run of a size whose sign is read back: the two series are the turns that the gate
    left, under the names that the sign gives them. -/
theorem tradesRule_iff_map (rename : Turn → Turn)
    (h_signal : ∀ t, (⟨lt zero (sizeOf params t), lt (sizeOf params t) zero⟩ : Signal) =
      .ofTurn (t.map rename))
    (h_nan : isNaN (tradeSize params) = false) :
    TradesRule hasModel params bars ↔ bars.length < MIN_BARS ∨
      (vetoed wants (passes hasModel params) .enter bars).map (Option.map rename) =
        turns (gated wants (passes hasModel params)) .enter bars := by
  have h_isNaN : ∀ t : Option Turn, isNaN (sizeOf params t) = true ↔ t = none := by
    intro t
    rcases t with _ | t
    · simp [sizeOf, isNaN_nan]
    · cases t <;> simp [sizeOf, isNaN_neg, h_nan]
  rw [tradesRule_iff_of_acts]
  refine or_congr_right ?_
  by_cases h_all : ((vetoed wants (passes hasModel params) .enter bars).map
      (sizeOf params)).all isNaN
  · have h_none : ∀ t ∈ (vetoed wants (passes hasModel params) .enter bars).map
        (Option.map rename), t = none := by
      simpa [h_isNaN] using h_all
    rw [if_pos h_all, eq_iff_of_all_none _ h_none]
    simp [vetoed]
  · rw [if_neg h_all, rule]
    simp only [h_signal]
    rw [← (List.map_injective_iff.mpr Signal.ofTurn_injective).eq_iff, List.map_map]
    rfl

theorem tradesRule_iff_of_unsigned (h_pos : lt zero (tradeSize params) = false)
    (h_neg : lt (tradeSize params) zero = false) :
    TradesRule hasModel params bars ↔ bars.length < MIN_BARS ∨
      ∀ bar ∈ bars, gated wants (passes hasModel params) .enter bar = false := by
  have h_signal : ∀ t, (⟨lt zero (sizeOf params t), lt (sizeOf params t) zero⟩ : Signal) =
      .hold := by
    intro t
    rcases t with _ | t
    · simp [sizeOf, lt_of_isNaN, isNaN_nan, Signal.hold]
    · cases t <;> simp [sizeOf, zero_lt_neg_eq, neg_lt_zero_eq, h_pos, h_neg, Signal.hold]
  rw [tradesRule_iff_of_acts, ← turns_eq_none_iff, ← rule_eq_hold_iff]
  refine or_congr_right ?_
  split
  · rfl
  · simp only [h_signal]
    constructor
    · intro h_eq s h_s
      rw [← h_eq] at h_s
      exact List.eq_of_mem_map_const h_s
    · intro h_hold
      rw [List.eq_replicate_iff.mpr ⟨rfl, h_hold⟩, List.map_const']
      simp [rule, vetoed]

theorem isNaN_of_lt {a : α} (h : lt zero a = true ∨ lt a zero = true) : isNaN a = false := by
  by_contra h_nan
  rw [Bool.not_eq_false] at h_nan
  rcases h with h | h <;> simp [lt_of_isNaN, h_nan] at h

theorem lt_zero_nan : lt (zero : α) nan = false := lt_of_isNaN _ _ (by simp [isNaN_nan])

theorem lt_nan_zero : lt nan (zero : α) = false := lt_of_isNaN _ _ (by simp [isNaN_nan])

theorem signal_of_pos (h_pos : lt zero (tradeSize params) = true) (t : Option Turn) :
    (⟨lt zero (sizeOf params t), lt (sizeOf params t) zero⟩ : Signal) = .ofTurn (t.map id) := by
  have h_neg := lt_asymm _ _ h_pos
  rcases t with _ | t
  · simp [sizeOf, lt_zero_nan, lt_nan_zero, Signal.ofTurn, Signal.hold]
  · cases t <;>
      simp [sizeOf, zero_lt_neg_eq, neg_lt_zero_eq, h_pos, h_neg, Signal.ofTurn, Signal.long,
        Signal.short]

theorem signal_of_neg (h_neg : lt (tradeSize params) zero = true) (t : Option Turn) :
    (⟨lt zero (sizeOf params t), lt (sizeOf params t) zero⟩ : Signal) =
      .ofTurn (t.map Turn.other) := by
  have h_pos := lt_asymm _ _ h_neg
  rcases t with _ | t
  · simp [sizeOf, lt_zero_nan, lt_nan_zero, Signal.ofTurn, Signal.hold]
  · cases t <;>
      simp [sizeOf, zero_lt_neg_eq, neg_lt_zero_eq, h_pos, h_neg, Signal.ofTurn, Signal.long,
        Signal.short, Turn.other]

variable {hasModel bars} in
theorem handed_eq_rule {handed : List Signal} (h : TradesRule hasModel params bars)
    (h_signals : (signals hasModel params bars).toOption = some handed) :
    handed = rule hasModel params bars := by
  rw [TradesRule] at h
  cases h_run : signals hasModel params bars with
  | error e =>
    rw [h_run] at h_signals
    cases h_signals
  | ok acts =>
    rw [h_run] at h h_signals
    obtain rfl := Option.some.inj h_signals
    exact h.2

variable (params)

/-- The run trades the sequential rule exactly when the filter, which counts before the gate,
    stays in step with it. -/
theorem tradesRule_iff :
    TradesRule hasModel params bars ↔
      bars.length < MIN_BARS ∨ InStep hasModel params bars := by
  unfold InStep
  by_cases h_pos : lt zero (tradeSize params) = true
  · rw [if_pos h_pos, ← vetoed_eq_turns_iff, tradesRule_iff_map hasModel bars id
      (signal_of_pos h_pos) (isNaN_of_lt (Or.inl h_pos))]
    simp
  · rw [if_neg h_pos]
    by_cases h_neg : lt (tradeSize params) zero = true
    · rw [if_pos h_neg, ← map_other_vetoed_eq_turns_iff, tradesRule_iff_map hasModel bars
        Turn.other (signal_of_neg h_neg) (isNaN_of_lt (Or.inr h_neg))]
    · rw [if_neg h_neg]
      exact tradesRule_iff_of_unsigned hasModel bars (Bool.eq_false_iff.mpr h_pos)
        (Bool.eq_false_iff.mpr h_neg)

/-- The second bar's exit passes the gate and the first bar's entry does not: the simulator
    is given an exit with nothing to close. -/
theorem tradesRule_divergence :
    ¬ ∀ (hasModel : Bool) (params : Params (Option ℚ)) (bars : List (Bar (Option ℚ))),
      TradesRule hasModel params bars := by
  intro h
  let bars : List (Bar (Option ℚ)) :=
    ⟨true, false, some 0.5⟩ :: ⟨false, true, some 0.1⟩ ::
      List.replicate 48 ⟨false, false, some 0.5⟩
  have h_trades := h true ⟨none, none⟩ bars
  have h_signals : (signals true ⟨none, none⟩ bars).toOption =
      some (.hold :: .short :: List.replicate 48 .hold) := by decide +kernel
  have h_eq := handed_eq_rule h_trades h_signals
  have h_ne : (.hold :: .short :: List.replicate 48 .hold) ≠ rule true ⟨none, none⟩ bars := by
    decide +kernel
  exact h_ne h_eq

end VyomQuant.Backtest
