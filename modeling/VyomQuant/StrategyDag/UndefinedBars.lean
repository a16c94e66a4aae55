/-
  VyomQuant.StrategyDag.UndefinedBars

  Expressions over the kernels, and how far an undefined bar reaches in them.

  `Undefined` follows NaN from the market series through the numeric kernels, and
  `Silent` follows the False that a NaN becomes through the boolean ones.  A
  condition that is silent at a bar gives no signal there (`silent_signal`).
-/

import Mathlib.Data.Option.NAry
import VyomQuant.StrategyDag.BlockKernels

namespace VyomQuant.StrategyDag

open Except

/-! ## Expressions -/

inductive NaryKernel where
  | add
  | multiply
  | min
  | max

inductive BinaryKernel where
  | subtract
  | divide
  | modulo

inductive UnaryKernel (F : Type) where
  | abs
  | negate
  | round (decimals : ℤ)
  | floor
  | ceil
  | sqrt
  | log (base : String)
  | exp
  | clamp (lower upper : Option F)

inductive Comparator where
  | gt
  | lt
  | gte
  | lte
  | eq
  | neq

/-- A nesting of MATH and LOGIC blocks over market series. -/
inductive BlockExpr (F : Type) where
  | series (name : String)
  | constant (value : F)
  | nary (kernel : NaryKernel) (operands : List (BlockExpr F))
  | binary (kernel : BinaryKernel) (a b : BlockExpr F)
  | unary (kernel : UnaryKernel F) (a : BlockExpr F)
  | shift (bars : ℤ) (a : BlockExpr F)
  | compare (kernel : Comparator) (left right : BlockExpr F)
  | cross (above : Bool) (fast slow : BlockExpr F)
  | between (inclusive : Bool) (value lower upper : BlockExpr F)
  | and (operands : List (BlockExpr F))
  | or (operands : List (BlockExpr F))
  | not (a : BlockExpr F)
  | ifThenElse (condition thenValue elseValue : BlockExpr F)
  | toSignal (direction : String) (strength : F) (condition : BlockExpr F)

variable {F : Type} (np : NumPy F)

/-- The kernel behind a variadic MATH block; the recorded issues stay with the caller. -/
def NaryKernel.run (kernel : NaryKernel) (operands : List (KernelValue F)) :
    Except KernelError (KernelValue F) :=
  (fun r => .floats r.1) <$> match kernel with
    | .add => mathAdd np operands
    | .multiply => mathMultiply np operands
    | .min => mathMin np operands
    | .max => mathMax np operands

def BinaryKernel.run (kernel : BinaryKernel) (a b : KernelValue F) :
    Except KernelError (KernelValue F) :=
  (fun r => .floats r.1) <$> match kernel with
    | .subtract => mathSubtract np a b
    | .divide => mathDivide np a b
    | .modulo => mathModulo np a b

def UnaryKernel.run (kernel : UnaryKernel F) (a : KernelValue F) :
    Except KernelError (KernelValue F) :=
  (fun r => .floats r.1) <$> match kernel with
    | .abs => mathAbs np a
    | .negate => mathNegate np a
    | .round decimals => mathRound np a decimals
    | .floor => mathFloor np a
    | .ceil => mathCeil np a
    | .sqrt => mathSqrt np a
    | .log base => mathLog np a base
    | .exp => mathExp np a
    | .clamp lower upper => mathClamp np a lower upper

def Comparator.run (kernel : Comparator) (left right : KernelValue F) :
    Except KernelError (KernelValue F) :=
  .bools <$> match kernel with
    | .gt => logicGt np left right
    | .lt => logicLt np left right
    | .gte => logicGte np left right
    | .lte => logicLte np left right
    | .eq => logicEq np left right
    | .neq => logicNeq np left right

mutual

/-- The value of an expression over the market. -/
def BlockExpr.eval (market : String → List F) : BlockExpr F → Except KernelError (KernelValue F)
  | .series name => .ok (.floats (market name))
  | .constant value => .scalar <$> mathConstant np value
  | .nary kernel operands => do kernel.run np (← evalAll market operands)
  | .binary kernel a b => do kernel.run np (← a.eval market) (← b.eval market)
  | .unary kernel a => do kernel.run np (← a.eval market)
  | .shift bars a => do return .floats (← mathShift np (← a.eval market) bars)
  | .compare kernel left right => do kernel.run np (← left.eval market) (← right.eval market)
  | .cross above fast slow => do
    return .bools (← (if above then logicCrossAbove np else logicCrossBelow np)
      (← fast.eval market) (← slow.eval market))
  | .between inclusive value lower upper => do
    return .bools (← logicBetween np (← value.eval market) (← lower.eval market)
      (← upper.eval market) inclusive)
  | .and operands => do return .bools (← logicAnd np (← evalAll market operands))
  | .or operands => do return .bools (← logicOr np (← evalAll market operands))
  | .not a => do return .bools (logicNot np (← a.eval market))
  | .ifThenElse condition thenValue elseValue => do
    return .floats (← logicIfThenElse np (← condition.eval market) (← thenValue.eval market)
      (← elseValue.eval market))
  | .toSignal direction strength condition => do
    return .floats (← logicToSignal np (← condition.eval market) direction strength)

def BlockExpr.evalAll (market : String → List F) :
    List (BlockExpr F) → Except KernelError (List (KernelValue F))
  | [] => .ok []
  | e :: es => do
    let v ← e.eval market
    let vs ← evalAll market es
    return v :: vs

end

mutual

/-- The market series that feed an expression. -/
def BlockExpr.feeds : BlockExpr F → List String
  | .series name => [name]
  | .constant _ => []
  | .nary _ operands => feedsAll operands
  | .binary _ a b => a.feeds ++ b.feeds
  | .unary _ a => a.feeds
  | .shift _ a => a.feeds
  | .compare _ left right => left.feeds ++ right.feeds
  | .cross _ fast slow => fast.feeds ++ slow.feeds
  | .between _ value lower upper => value.feeds ++ lower.feeds ++ upper.feeds
  | .and operands => feedsAll operands
  | .or operands => feedsAll operands
  | .not a => a.feeds
  | .ifThenElse condition thenValue elseValue =>
    condition.feeds ++ thenValue.feeds ++ elseValue.feeds
  | .toSignal _ _ condition => condition.feeds

def BlockExpr.feedsAll : List (BlockExpr F) → List String
  | [] => []
  | e :: es => e.feeds ++ feedsAll es

end

/-! ## How far an undefined bar reaches

`undef name bar` says that the market series `name` is known to be NaN at `bar`. -/

section Reach

variable (undef : String → ℕ → Prop)

mutual

/-- The expression is NaN at the bar: a numeric kernel passes NaN on from any operand, a
    SHIFT from the bar it reads, an IF_THEN_ELSE from the branch it takes. -/
def BlockExpr.Undefined : BlockExpr F → ℕ → Prop
  | .series name, t => undef name t
  | .nary _ operands, t => AnyUndefined operands t
  | .binary _ a b, t => a.Undefined t ∨ b.Undefined t
  | .unary _ a, t => a.Undefined t
  | .shift bars a, t => t < bars.toNat ∨ a.Undefined (t - bars.toNat)
  | .ifThenElse condition thenValue elseValue, t =>
    elseValue.Undefined t ∧ (condition.Silent t ∨ thenValue.Undefined t)
  | _, _ => False

/-- The expression is not true at the bar: a comparison with NaN on one side is False, and
    a condition that is NaN is not true. -/
def BlockExpr.Silent : BlockExpr F → ℕ → Prop
  | .series name, t => undef name t
  | .nary _ operands, t => AnyUndefined operands t
  | .binary _ a b, t => a.Undefined t ∨ b.Undefined t
  | .unary _ a, t => a.Undefined t
  | .shift bars a, t => t < bars.toNat ∨ a.Silent (t - bars.toNat)
  | .compare _ left right, t => left.Undefined t ∨ right.Undefined t
  | .cross _ fast slow, t => t = 0 ∨ fast.Undefined t ∨ slow.Undefined t ∨
    fast.Undefined (t - 1) ∨ slow.Undefined (t - 1)
  | .between _ value lower upper, t =>
    value.Undefined t ∨ lower.Undefined t ∨ upper.Undefined t
  | .and operands, t => AnySilent operands t
  | .or operands, t => AllSilent operands t
  | .ifThenElse condition thenValue elseValue, t =>
    elseValue.Silent t ∧ (condition.Silent t ∨ thenValue.Silent t)
  | .toSignal _ _ condition, t => condition.Silent t
  | _, _ => False

def BlockExpr.AnyUndefined : List (BlockExpr F) → ℕ → Prop
  | [], _ => False
  | e :: es, t => e.Undefined t ∨ AnyUndefined es t

def BlockExpr.AnySilent : List (BlockExpr F) → ℕ → Prop
  | [], _ => False
  | e :: es, t => e.Silent t ∨ AnySilent es t

def BlockExpr.AllSilent : List (BlockExpr F) → ℕ → Prop
  | [], _ => True
  | e :: es, t => e.Silent t ∧ AllSilent es t

end

end Reach

/-! ## Lists of operands -/

variable {market : String → List F}

section Operands

variable {undef : String → ℕ → Prop} {es : List (BlockExpr F)} {t : ℕ}

theorem BlockExpr.anyUndefined_iff :
    AnyUndefined undef es t ↔ ∃ e ∈ es, e.Undefined undef t := by
  induction es with
  | nil => simp [AnyUndefined]
  | cons e es ih => simp [AnyUndefined, ih]

theorem BlockExpr.anySilent_iff : AnySilent undef es t ↔ ∃ e ∈ es, e.Silent undef t := by
  induction es with
  | nil => simp [AnySilent]
  | cons e es ih => simp [AnySilent, ih]

theorem BlockExpr.allSilent_iff : AllSilent undef es t ↔ ∀ e ∈ es, e.Silent undef t := by
  induction es with
  | nil => simp [AllSilent]
  | cons e es ih => simp [AllSilent, ih]

theorem BlockExpr.evalAll_eq_ok {np : NumPy F} {vs : List (KernelValue F)}
    (h : evalAll np market es = .ok vs) :
    List.Forall₂ (fun e v => e.eval np market = .ok v) es vs := by
  induction es generalizing vs with
  | nil =>
    cases h
    exact .nil
  | cons e es ih =>
    obtain ⟨v, h_v, h⟩ := bind_eq_ok.mp h
    obtain ⟨vs', h_vs, h⟩ := bind_eq_ok.mp h
    cases h
    exact .cons h_v (ih h_vs)

end Operands

theorem BlockExpr.nesting {P : BlockExpr F → Prop}
    (series : ∀ name, P (.series name))
    (constant : ∀ value, P (.constant value))
    (nary : ∀ kernel operands, (∀ e ∈ operands, P e) → P (.nary kernel operands))
    (binary : ∀ kernel a b, P a → P b → P (.binary kernel a b))
    (unary : ∀ kernel a, P a → P (.unary kernel a))
    (shift : ∀ bars a, P a → P (.shift bars a))
    (compare : ∀ kernel left right, P left → P right → P (.compare kernel left right))
    (cross : ∀ above fast slow, P fast → P slow → P (.cross above fast slow))
    (between : ∀ inclusive value lower upper, P value → P lower → P upper →
      P (.between inclusive value lower upper))
    (and : ∀ operands, (∀ e ∈ operands, P e) → P (.and operands))
    (or : ∀ operands, (∀ e ∈ operands, P e) → P (.or operands))
    (not : ∀ a, P a → P (.not a))
    (ifThenElse : ∀ condition thenValue elseValue, P condition → P thenValue → P elseValue →
      P (.ifThenElse condition thenValue elseValue))
    (toSignal : ∀ direction strength condition, P condition →
      P (.toSignal direction strength condition)) (e : BlockExpr F) : P e :=
  @BlockExpr.rec F P (fun es => ∀ e ∈ es, P e) series constant nary binary unary shift compare
    cross between and or not ifThenElse toSignal (fun _ h => absurd h List.not_mem_nil)
    (fun _ _ h_head h_tail _ h => (List.mem_cons.mp h).elim (fun h => h ▸ h_head) (h_tail _)) e

/-! ## A bar of a value -/

/-- The series is NaN at the bar. -/
def NanAt : KernelValue F → ℕ → Prop
  | .floats xs, t => ∀ x, xs[t]? = some x → np.isnan x = true
  | _, _ => False

/-- The series is not true at the bar. -/
def SilentAt : KernelValue F → ℕ → Prop
  | .floats xs, t => ∀ x, xs[t]? = some x → truthy np x = false
  | .bools bs, t => ∀ b, bs[t]? = some b → b = false
  | .scalar _, _ => False

variable {np}

variable {x : F}

theorem truthy_of_isnan (h : np.isnan x = true) : truthy np x = false := by
  unfold truthy
  rw [h]
  rfl

variable {v a condition thenValue elseValue : KernelValue F}

theorem NanAt.silentAt {t : ℕ} (h : NanAt np v t) : SilentAt np v t := by
  cases v with
  | scalar x => exact h
  | floats xs => exact fun x h_x => truthy_of_isnan (h x h_x)
  | bools bs => exact absurd h id

variable {b above : Bool}

theorem SilentAt.asBoolArray {t : ℕ} (h : SilentAt np v t) (h_b : (asBoolArray np v)[t]? = some b) :
    b = false := by
  cases v with
  | scalar x => exact absurd h id
  | floats xs =>
    have h_map : (xs.map (truthy np))[t]? = some b := h_b
    rw [List.getElem?_map] at h_map
    obtain ⟨x, h_x, rfl⟩ := Option.map_eq_some_iff.mp h_map
    exact h x h_x
  | bools bs => exact h b h_b

/-! ## Alignment keeps the bars -/

/-- An operand as `_align` returns it. -/
def alignedTo (np : NumPy F) (length : ℕ) (v : KernelValue F) : List F :=
  (asFloatArray np v).elim (List.replicate length) id

variable {operands : List (KernelValue F)}

theorem align_eq_ok {arrays : List (List F)} (h : align np operands = .ok arrays) :
    ∃ length, arrays = operands.map (alignedTo np length) := by
  unfold align at h
  simp only at h
  split at h
  · cases h
  · cases h
    exact ⟨_, List.map_map⟩

theorem NanAt.aligned {t length : ℕ} (h : NanAt np v t)
    (h_x : (alignedTo np length v)[t]? = some x) : np.isnan x = true := by
  cases v with
  | scalar y => exact absurd h id
  | floats xs => exact h x h_x
  | bools bs => exact absurd h id

theorem truthy_zero (h : np.Lawful) : truthy np (np.literal 0) = false := by
  unfold truthy
  rw [h.zero_eq_zero]
  exact Bool.and_false _

theorem SilentAt.aligned (h_law : np.Lawful) {t length : ℕ} (h : SilentAt np v t)
    (h_x : (alignedTo np length v)[t]? = some x) : truthy np x = false := by
  cases v with
  | scalar y => exact absurd h id
  | floats xs => exact h x h_x
  | bools bs =>
    have h_map : (bs.map fun b => np.literal (if b then 1 else 0))[t]? = some x := h_x
    rw [List.getElem?_map] at h_map
    obtain ⟨b, h_b, rfl⟩ := Option.map_eq_some_iff.mp h_map
    rw [h b h_b]
    exact truthy_zero h_law

/-! ## The kernels, bar by bar -/

variable {first : List Bool} {rest : List (List Bool)}

/-- At a bar, the fold of `||` over masks is at least each of them. -/
theorem reduceWith_or {m : List Bool} {t : ℕ} (h : (reduceWith (· || ·) first rest)[t]? = some b)
    (h_m : m ∈ first :: rest) : ∃ c, m[t]? = some c ∧ (c = true → b = true) := by
  induction rest generalizing first m with
  | nil =>
    obtain rfl := List.mem_singleton.mp h_m
    exact ⟨b, h, id⟩
  | cons next rest ih =>
    have h_step : (reduceWith (· || ·) (List.zipWith (· || ·) first next) rest)[t]? = some b := h
    obtain ⟨c, h_c, h_cb⟩ := ih h_step List.mem_cons_self
    obtain ⟨x, y, h_x, h_y, rfl⟩ := List.getElem?_zipWith_eq_some.mp h_c
    rcases List.mem_cons.mp h_m with rfl | h_m
    · exact ⟨x, h_x, fun h => h_cb (by rw [h]; rfl)⟩
    rcases List.mem_cons.mp h_m with rfl | h_m
    · exact ⟨y, h_y, fun h => h_cb (by rw [h]; exact Bool.or_true _)⟩
    · exact ih h_step (List.mem_cons_of_mem _ h_m)

theorem nanMask_of_mem {arrays : List (List F)} {xs : List F} {t : ℕ}
    (h : (nanMask np arrays)[t]? = some b) (h_xs : xs ∈ arrays)
    (h_nan : ∀ x, xs[t]? = some x → np.isnan x = true) : b = true := by
  cases arrays with
  | nil => cases h_xs
  | cons first rest =>
    obtain ⟨c, h_c, h_cb⟩ := reduceWith_or h (List.mem_map_of_mem (f := List.map np.isnan) h_xs)
    rw [List.getElem?_map] at h_c
    obtain ⟨x, h_x, rfl⟩ := Option.map_eq_some_iff.mp h_c
    exact h_cb (h_nan x h_x)

theorem safeMathApply_nanAt (h_law : np.Lawful) {op : MathOp F} {r : List F × List KernelIssue}
    (h : safeMathApply np op operands = .ok r) (h_v : v ∈ operands) {t : ℕ} (h_nan : NanAt np v t) :
    NanAt np (.floats r.1) t := by
  unfold safeMathApply at h
  obtain ⟨arrays, h_arrays, h⟩ := bind_eq_ok.mp h
  obtain ⟨raw, -, rfl⟩ := bind_pure_eq_ok.mp h
  obtain ⟨length, rfl⟩ := align_eq_ok h_arrays
  intro x h_x
  obtain ⟨y, undefined, -, h_mask, rfl⟩ := List.getElem?_zipWith_eq_some.mp h_x
  have h_undefined : undefined = true :=
    nanMask_of_mem h_mask (List.mem_map_of_mem h_v) fun _ h_y => h_nan.aligned h_y
  rw [h_undefined]
  exact h_law.isnan_nan

theorem NaryKernel.run_nanAt (h_law : np.Lawful) {kernel : NaryKernel} {out : KernelValue F}
    (h : kernel.run np operands = .ok out) (h_v : v ∈ operands) {t : ℕ} (h_nan : NanAt np v t) :
    NanAt np out t := by
  obtain ⟨r, h_r, rfl⟩ := map_eq_ok.mp h
  cases kernel <;> exact safeMathApply_nanAt h_law h_r h_v h_nan

theorem BinaryKernel.run_nanAt (h_law : np.Lawful) {kernel : BinaryKernel} {b out : KernelValue F}
    (h : kernel.run np a b = .ok out) {t : ℕ} (h_nan : NanAt np a t ∨ NanAt np b t) :
    NanAt np out t := by
  obtain ⟨r, h_r, rfl⟩ := map_eq_ok.mp h
  have h_mem : ∃ v ∈ [a, b], NanAt np v t := by
    rcases h_nan with h | h
    · exact ⟨a, List.mem_cons_self, h⟩
    · exact ⟨b, List.mem_cons_of_mem _ List.mem_cons_self, h⟩
  obtain ⟨v, h_v, h_nan⟩ := h_mem
  cases kernel <;> exact safeMathApply_nanAt h_law h_r h_v h_nan

theorem UnaryKernel.run_nanAt (h_law : np.Lawful) {kernel : UnaryKernel F} {out : KernelValue F}
    (h : kernel.run np a = .ok out) {t : ℕ} (h_nan : NanAt np a t) : NanAt np out t := by
  obtain ⟨r, h_r, rfl⟩ := map_eq_ok.mp h
  cases kernel <;> exact safeMathApply_nanAt h_law h_r List.mem_cons_self h_nan

theorem isnan_finiteOrNan (h_law : np.Lawful) (h : np.isnan x = true) :
    np.isnan (finiteOrNan np x) = true := by
  unfold finiteOrNan
  rw [h_law.isfinite_of_isnan x h]
  exact h_law.isnan_nan

theorem truthy_finiteOrNan (h_law : np.Lawful) (h : truthy np x = false) :
    truthy np (finiteOrNan np x) = false := by
  unfold finiteOrNan
  split
  · exact h
  · exact truthy_of_isnan h_law.isnan_nan

variable {out : List F}

theorem mathShift_bar {bars : ℤ} (h : mathShift np a bars = .ok out) {t : ℕ}
    (h_x : out[t]? = some x) :
    x = finiteOrNan np np.nan ∨ bars.toNat ≤ t ∧
      ∃ length y, (alignedTo np length a)[t - bars.toNat]? = some y ∧ x = finiteOrNan np y := by
  unfold mathShift at h
  obtain ⟨arrays, h_arrays, h⟩ := bind_eq_ok.mp h
  obtain ⟨-, -, h⟩ := bind_eq_ok.mp h
  obtain rfl := pure_eq_ok.mp h
  obtain ⟨length, rfl⟩ := align_eq_ok h_arrays
  rw [List.getElem?_map] at h_x
  obtain ⟨y, h_y, rfl⟩ := Option.map_eq_some_iff.mp h_x
  rw [List.getElem?_take] at h_y
  split at h_y
  · rw [List.getElem?_append, List.length_replicate] at h_y
    split at h_y
    · rw [List.eq_of_mem_replicate (List.mem_of_getElem? h_y)]
      exact Or.inl rfl
    · exact Or.inr ⟨by omega, length, y, h_y, rfl⟩
  · cases h_y

theorem mathShift_nanAt (h_law : np.Lawful) {bars : ℤ} (h : mathShift np a bars = .ok out) {t : ℕ}
    (h_nan : t < bars.toNat ∨ NanAt np a (t - bars.toNat)) : NanAt np (.floats out) t := by
  intro x h_x
  rcases mathShift_bar h h_x with rfl | ⟨h_le, length, y, h_y, rfl⟩
  · exact isnan_finiteOrNan h_law h_law.isnan_nan
  · have h_source := h_nan.resolve_left (by omega)
    exact isnan_finiteOrNan h_law (h_source.aligned h_y)

theorem mathShift_silentAt (h_law : np.Lawful) {bars : ℤ} (h : mathShift np a bars = .ok out)
    {t : ℕ} (h_silent : t < bars.toNat ∨ SilentAt np a (t - bars.toNat)) :
    SilentAt np (.floats out) t := by
  intro x h_x
  rcases mathShift_bar h h_x with rfl | ⟨h_le, length, y, h_y, rfl⟩
  · exact truthy_of_isnan (isnan_finiteOrNan h_law h_law.isnan_nan)
  · have h_source := h_silent.resolve_left (by omega)
    exact truthy_finiteOrNan h_law (h_source.aligned h_law h_y)

theorem onPairs_silentAt {test : F → F → Bool}
    (h_test : ∀ x y, np.isnan x = true ∨ np.isnan y = true → test x y = false)
    {left right : KernelValue F} {out : List Bool} (h : onPairs np test left right = .ok out)
    {t : ℕ} (h_nan : NanAt np left t ∨ NanAt np right t) : SilentAt np (.bools out) t := by
  unfold onPairs at h
  obtain ⟨arrays, h_arrays, rfl⟩ := bind_pure_eq_ok.mp h
  obtain ⟨length, rfl⟩ := align_eq_ok h_arrays
  intro b h_b
  obtain ⟨x, y, h_x, h_y, rfl⟩ := List.getElem?_zipWith_eq_some.mp h_b
  exact h_test x y (h_nan.imp (fun h => h.aligned h_x) fun h => h.aligned h_y)

theorem compareBar_of_isnan {op : F → F → Bool} (x y : F)
    (h : np.isnan x = true ∨ np.isnan y = true) : compareBar np op x y = false := by
  unfold compareBar
  rcases h with h | h
  · rw [h]
    rfl
  · rw [h, Bool.or_true]
    rfl

theorem Comparator.run_silentAt {kernel : Comparator} {left right out : KernelValue F}
    (h : kernel.run np left right = .ok out) {t : ℕ}
    (h_nan : NanAt np left t ∨ NanAt np right t) : SilentAt np out t := by
  obtain ⟨bs, h_bs, rfl⟩ := map_eq_ok.mp h
  cases kernel <;> exact onPairs_silentAt compareBar_of_isnan h_bs h_nan

theorem crosses_bar {bars : List (F × F)} {t : ℕ}
    (h : ((bars.take 1).map (fun _ => false) ++ List.zipWith (crossedBar np above) bars bars.tail)[t]? = some b) :
    b = false ∨ t ≠ 0 ∧ ∃ before now, bars[t - 1]? = some before ∧ bars[t]? = some now ∧
      crossedBar np above before now = b := by
  cases bars with
  | nil => cases h
  | cons first rest =>
    cases t with
    | zero => exact Or.inl (Option.some.inj h).symm
    | succ t =>
      obtain ⟨before, now, h_before, h_now, h_b⟩ := List.getElem?_zipWith_eq_some.mp h
      exact Or.inr ⟨Nat.succ_ne_zero t, before, now, h_before, h_now, h_b⟩

theorem crossedBar_of_isnan {before now : F × F}
    (h : np.isnan now.1 = true ∨ np.isnan now.2 = true ∨ np.isnan before.1 = true ∨ np.isnan before.2 = true) :
    crossedBar np above before now = false := by
  unfold crossedBar
  rcases h with h | h | h | h <;> simp only [h, Bool.or_true, Bool.true_or, Bool.not_true,
    Bool.false_and]

theorem logicCross_silentAt {fast slow : KernelValue F} {out : List Bool}
    (h : logicCross np above fast slow = .ok out) {t : ℕ}
    (h_nan : t = 0 ∨ NanAt np fast t ∨ NanAt np slow t ∨ NanAt np fast (t - 1) ∨ NanAt np slow (t - 1)) :
    SilentAt np (.bools out) t := by
  unfold logicCross at h
  obtain ⟨arrays, h_arrays, rfl⟩ := bind_pure_eq_ok.mp h
  obtain ⟨length, rfl⟩ := align_eq_ok h_arrays
  intro b h_b
  rcases crosses_bar h_b with rfl | ⟨h_t, before, now, h_before, h_now, rfl⟩
  · rfl
  obtain ⟨h_fast, h_slow⟩ := List.getElem?_zip_eq_some.mp h_before
  obtain ⟨h_fast', h_slow'⟩ := List.getElem?_zip_eq_some.mp h_now
  apply crossedBar_of_isnan
  rcases h_nan.resolve_left h_t with h | h | h | h
  · exact Or.inl (h.aligned h_fast')
  · exact Or.inr (Or.inl (h.aligned h_slow'))
  · exact Or.inr (Or.inr (Or.inl (h.aligned h_fast)))
  · exact Or.inr (Or.inr (Or.inr (h.aligned h_slow)))

theorem betweenBar_of_isnan {inclusive : Bool} {v : F} {band : F × F}
    (h : np.isnan v = true ∨ np.isnan band.1 = true ∨ np.isnan band.2 = true) :
    betweenBar np inclusive v band = false := by
  unfold betweenBar
  rcases h with h | h | h <;> simp only [h, Bool.or_true, Bool.true_or, Bool.not_true,
    Bool.false_and]

theorem logicBetween_silentAt {value lower upper : KernelValue F} {inclusive : Bool}
    {out : List Bool} (h : logicBetween np value lower upper inclusive = .ok out) {t : ℕ}
    (h_nan : NanAt np value t ∨ NanAt np lower t ∨ NanAt np upper t) :
    SilentAt np (.bools out) t := by
  unfold logicBetween at h
  obtain ⟨arrays, h_arrays, rfl⟩ := bind_pure_eq_ok.mp h
  obtain ⟨length, rfl⟩ := align_eq_ok h_arrays
  intro b h_b
  obtain ⟨v, band, h_v, h_band, rfl⟩ := List.getElem?_zipWith_eq_some.mp h_b
  obtain ⟨h_lower, h_upper⟩ := List.getElem?_zip_eq_some.mp h_band
  apply betweenBar_of_isnan
  exact h_nan.imp (fun h => h.aligned h_v)
    (Or.imp (fun h => h.aligned h_lower) fun h => h.aligned h_upper)

theorem connect_eq_ok {op : Bool → Bool → Bool} {out : List Bool}
    (h : connect np op operands = .ok out) :
    ∃ first rest, operands.map (asBoolArray np) = first :: rest ∧
      out = reduceWith op first rest := by
  unfold connect at h
  obtain ⟨arrays, h_arrays, h⟩ := bind_eq_ok.mp h
  unfold alignBool at h_arrays
  simp only at h_arrays
  split at h_arrays
  · cases h_arrays
  obtain rfl := Except.ok.inj h_arrays
  split at h
  · cases h
  · rename_i first rest h_eq
    exact ⟨first, rest, h_eq, (pure_eq_ok.mp h).symm⟩

theorem reduceWith_and {m : List Bool} {t : ℕ} (h : (reduceWith (· && ·) first rest)[t]? = some b)
    (h_m : m ∈ first :: rest) : ∃ c, m[t]? = some c ∧ (c = false → b = false) := by
  induction rest generalizing first m with
  | nil =>
    obtain rfl := List.mem_singleton.mp h_m
    exact ⟨b, h, id⟩
  | cons next rest ih =>
    have h_step : (reduceWith (· && ·) (List.zipWith (· && ·) first next) rest)[t]? = some b := h
    obtain ⟨c, h_c, h_cb⟩ := ih h_step List.mem_cons_self
    obtain ⟨x, y, h_x, h_y, rfl⟩ := List.getElem?_zipWith_eq_some.mp h_c
    rcases List.mem_cons.mp h_m with rfl | h_m
    · exact ⟨x, h_x, fun h => h_cb (by rw [h]; rfl)⟩
    rcases List.mem_cons.mp h_m with rfl | h_m
    · exact ⟨y, h_y, fun h => h_cb (by rw [h]; exact Bool.and_false _)⟩
    · exact ih h_step (List.mem_cons_of_mem _ h_m)

theorem reduceWith_or_false {t : ℕ} (h : (reduceWith (· || ·) first rest)[t]? = some b)
    (h_all : ∀ m ∈ first :: rest, ∀ c, m[t]? = some c → c = false) : b = false := by
  induction rest generalizing first with
  | nil => exact h_all first List.mem_cons_self b h
  | cons next rest ih =>
    have h_step : (reduceWith (· || ·) (List.zipWith (· || ·) first next) rest)[t]? = some b := h
    apply ih h_step
    intro m h_m c h_c
    rcases List.mem_cons.mp h_m with rfl | h_m
    · obtain ⟨x, y, h_x, h_y, rfl⟩ := List.getElem?_zipWith_eq_some.mp h_c
      rw [h_all first List.mem_cons_self x h_x,
        h_all next (List.mem_cons_of_mem _ List.mem_cons_self) y h_y]
      rfl
    · exact h_all m (List.mem_cons_of_mem _ (List.mem_cons_of_mem _ h_m)) c h_c

theorem logicAnd_silentAt {out : List Bool} (h : logicAnd np operands = .ok out)
    (h_v : v ∈ operands) {t : ℕ} (h_silent : SilentAt np v t) : SilentAt np (.bools out) t := by
  obtain ⟨first, rest, h_eq, rfl⟩ := connect_eq_ok h
  intro b h_b
  have h_mem : asBoolArray np v ∈ first :: rest := h_eq ▸ List.mem_map_of_mem h_v
  obtain ⟨c, h_c, h_cb⟩ := reduceWith_and h_b h_mem
  exact h_cb (h_silent.asBoolArray h_c)

theorem logicOr_silentAt {out : List Bool} (h : logicOr np operands = .ok out) {t : ℕ}
    (h_silent : ∀ v ∈ operands, SilentAt np v t) : SilentAt np (.bools out) t := by
  obtain ⟨first, rest, h_eq, rfl⟩ := connect_eq_ok h
  intro b h_b
  apply reduceWith_or_false h_b
  intro m h_m c h_c
  rw [← h_eq] at h_m
  obtain ⟨v, h_v, rfl⟩ := List.mem_map.mp h_m
  exact (h_silent v h_v).asBoolArray h_c

theorem logicIfThenElse_bar (h : logicIfThenElse np condition thenValue elseValue = .ok out) {t : ℕ}
    (h_x : out[t]? = some x) :
    ∃ length chosen a b, (asBoolArray np condition)[t]? = some chosen ∧
      (alignedTo np length thenValue)[t]? = some a ∧
      (alignedTo np length elseValue)[t]? = some b ∧
      x = finiteOrNan np (if chosen then a else b) := by
  unfold logicIfThenElse at h
  obtain ⟨arrays, h_arrays, h⟩ := bind_eq_ok.mp h
  obtain ⟨-, -, h⟩ := bind_eq_ok.mp h
  obtain rfl := pure_eq_ok.mp h
  obtain ⟨length, rfl⟩ := align_eq_ok h_arrays
  obtain ⟨chosen, pair, h_chosen, h_pair, rfl⟩ := List.getElem?_zipWith_eq_some.mp h_x
  obtain ⟨h_a, h_b⟩ := List.getElem?_zip_eq_some.mp h_pair
  exact ⟨length, chosen, pair.1, pair.2, h_chosen, h_a, h_b, rfl⟩

theorem logicIfThenElse_nanAt (h_law : np.Lawful)
    (h : logicIfThenElse np condition thenValue elseValue = .ok out) {t : ℕ}
    (h_else : NanAt np elseValue t) (h_then : SilentAt np condition t ∨ NanAt np thenValue t) :
    NanAt np (.floats out) t := by
  intro x h_x
  obtain ⟨length, chosen, a, b, h_chosen, h_a, h_b, rfl⟩ := logicIfThenElse_bar h h_x
  apply isnan_finiteOrNan h_law
  cases chosen with
  | false => exact h_else.aligned h_b
  | true =>
    have h_nan := h_then.resolve_left fun h => Bool.noConfusion (h.asBoolArray h_chosen)
    exact h_nan.aligned h_a

theorem logicIfThenElse_silentAt (h_law : np.Lawful)
    (h : logicIfThenElse np condition thenValue elseValue = .ok out) {t : ℕ}
    (h_else : SilentAt np elseValue t)
    (h_then : SilentAt np condition t ∨ SilentAt np thenValue t) : SilentAt np (.floats out) t := by
  intro x h_x
  obtain ⟨length, chosen, a, b, h_chosen, h_a, h_b, rfl⟩ := logicIfThenElse_bar h h_x
  apply truthy_finiteOrNan h_law
  cases chosen with
  | false => exact h_else.aligned h_law h_b
  | true =>
    have h_silent := h_then.resolve_left fun h => Bool.noConfusion (h.asBoolArray h_chosen)
    exact h_silent.aligned h_law h_a

theorem logicToSignal_bar {direction : String} {strength : F}
    (h : logicToSignal np condition direction strength = .ok out) {t : ℕ}
    (h_silent : SilentAt np condition t) (h_x : out[t]? = some x) : x = np.literal 0 := by
  unfold logicToSignal at h
  obtain ⟨-, -, h⟩ := bind_eq_ok.mp h
  obtain ⟨-, -, h⟩ := bind_eq_ok.mp h
  obtain rfl := pure_eq_ok.mp h
  rw [List.getElem?_map] at h_x
  obtain ⟨chosen, h_chosen, rfl⟩ := Option.map_eq_some_iff.mp h_x
  rw [h_silent.asBoolArray h_chosen]
  rfl

/-! ## Expressions, by induction over their nesting -/

/-- What `Undefined` and `Silent` say of an expression holds of its value. -/
structure ReachSound (np : NumPy F) (undef : String → ℕ → Prop) (market : String → List F)
    (e : BlockExpr F) : Prop where
  undefined : ∀ {t v}, e.Undefined undef t → e.eval np market = .ok v → NanAt np v t
  silent : ∀ {t v}, e.Silent undef t → e.eval np market = .ok v → SilentAt np v t

/-- Where an expression is silent whenever it is undefined, and its silence means nothing
    more, soundness for `Undefined` is enough. -/
theorem ReachSound.of_undefined {undef : String → ℕ → Prop} {e : BlockExpr F}
    (h : ∀ {t v}, e.Undefined undef t → e.eval np market = .ok v → NanAt np v t)
    (h_same : ∀ t, e.Silent undef t → e.Undefined undef t) : ReachSound np undef market e where
  undefined := h
  silent h_silent h_v := (h (h_same _ h_silent) h_v).silentAt

/-- The reach of an undefined bar is followed soundly through every nesting of blocks. -/
theorem reachSound (h_law : np.Lawful) {undef : String → ℕ → Prop}
    (h_undef : ∀ name t, undef name t → ∀ x, (market name)[t]? = some x → np.isnan x = true)
    (e : BlockExpr F) : ReachSound np undef market e := by
  induction e using BlockExpr.nesting with
  | series name =>
    apply ReachSound.of_undefined
    · intro t v h h_v
      cases h_v
      exact h_undef name t h
    · exact fun _ => id
  | constant value => exact ⟨fun h => absurd h id, fun h => absurd h id⟩
  | nary kernel operands ih =>
    apply ReachSound.of_undefined
    · intro t v h h_v
      obtain ⟨vs, h_vs, h_run⟩ := bind_eq_ok.mp h_v
      obtain ⟨e, h_e, h_undefined⟩ := BlockExpr.anyUndefined_iff.mp h
      obtain ⟨w, h_w, h_eval⟩ := exists_of_mem_forall₂ (BlockExpr.evalAll_eq_ok h_vs) h_e
      exact NaryKernel.run_nanAt h_law h_run h_w ((ih e h_e).undefined h_undefined h_eval)
    · exact fun _ => id
  | binary kernel a b ih_a ih_b =>
    apply ReachSound.of_undefined
    · intro t v h h_v
      obtain ⟨x, h_x, h_v⟩ := bind_eq_ok.mp h_v
      obtain ⟨y, h_y, h_run⟩ := bind_eq_ok.mp h_v
      exact BinaryKernel.run_nanAt h_law h_run
        (h.imp (fun h => ih_a.undefined h h_x) fun h => ih_b.undefined h h_y)
    · exact fun _ => id
  | unary kernel a ih =>
    apply ReachSound.of_undefined
    · intro t v h h_v
      obtain ⟨x, h_x, h_run⟩ := bind_eq_ok.mp h_v
      exact UnaryKernel.run_nanAt h_law h_run (ih.undefined h h_x)
    · exact fun _ => id
  | shift bars a ih =>
    constructor <;> intro t v h h_v <;> obtain ⟨x, h_x, h_v⟩ := bind_eq_ok.mp h_v <;>
      obtain ⟨out, h_out, rfl⟩ := bind_pure_eq_ok.mp h_v
    · exact mathShift_nanAt h_law h_out (h.imp_right fun h => ih.undefined h h_x)
    · exact mathShift_silentAt h_law h_out (h.imp_right fun h => ih.silent h h_x)
  | compare kernel left right ih_left ih_right =>
    refine ⟨fun h => absurd h id, fun h h_v => ?_⟩
    obtain ⟨x, h_x, h_v⟩ := bind_eq_ok.mp h_v
    obtain ⟨y, h_y, h_run⟩ := bind_eq_ok.mp h_v
    exact Comparator.run_silentAt h_run
      (h.imp (fun h => ih_left.undefined h h_x) fun h => ih_right.undefined h h_y)
  | cross above fast slow ih_fast ih_slow =>
    refine ⟨fun h => absurd h id, fun h h_v => ?_⟩
    obtain ⟨x, h_x, h_v⟩ := bind_eq_ok.mp h_v
    obtain ⟨y, h_y, h_v⟩ := bind_eq_ok.mp h_v
    obtain ⟨out, h_out, rfl⟩ := bind_pure_eq_ok.mp h_v
    have h_cross : logicCross np above x y = .ok out := by cases above <;> exact h_out
    apply logicCross_silentAt h_cross
    exact h.imp_right (Or.imp (fun h => ih_fast.undefined h h_x)
      (Or.imp (fun h => ih_slow.undefined h h_y)
        (Or.imp (fun h => ih_fast.undefined h h_x) fun h => ih_slow.undefined h h_y)))
  | between inclusive value lower upper ih_value ih_lower ih_upper =>
    refine ⟨fun h => absurd h id, fun h h_v => ?_⟩
    obtain ⟨x, h_x, h_v⟩ := bind_eq_ok.mp h_v
    obtain ⟨y, h_y, h_v⟩ := bind_eq_ok.mp h_v
    obtain ⟨z, h_z, h_v⟩ := bind_eq_ok.mp h_v
    obtain ⟨out, h_out, rfl⟩ := bind_pure_eq_ok.mp h_v
    exact logicBetween_silentAt h_out (h.imp (fun h => ih_value.undefined h h_x)
      (Or.imp (fun h => ih_lower.undefined h h_y) fun h => ih_upper.undefined h h_z))
  | and operands ih =>
    refine ⟨fun h => absurd h id, fun h h_v => ?_⟩
    obtain ⟨vs, h_vs, h_v⟩ := bind_eq_ok.mp h_v
    obtain ⟨out, h_out, rfl⟩ := bind_pure_eq_ok.mp h_v
    obtain ⟨e, h_e, h_silent⟩ := BlockExpr.anySilent_iff.mp h
    obtain ⟨w, h_w, h_eval⟩ := exists_of_mem_forall₂ (BlockExpr.evalAll_eq_ok h_vs) h_e
    exact logicAnd_silentAt h_out h_w ((ih e h_e).silent h_silent h_eval)
  | or operands ih =>
    refine ⟨fun h => absurd h id, fun h h_v => ?_⟩
    obtain ⟨vs, h_vs, h_v⟩ := bind_eq_ok.mp h_v
    obtain ⟨out, h_out, rfl⟩ := bind_pure_eq_ok.mp h_v
    apply logicOr_silentAt h_out
    intro w h_w
    have h_flip : List.Forall₂ (fun w e => e.eval np market = .ok w) vs operands :=
      List.Forall₂.flip (BlockExpr.evalAll_eq_ok h_vs)
    obtain ⟨e, h_e, h_eval⟩ := exists_of_mem_forall₂ h_flip h_w
    exact (ih e h_e).silent (BlockExpr.allSilent_iff.mp h e h_e) h_eval
  | not a ih => exact ⟨fun h => absurd h id, fun h => absurd h id⟩
  | ifThenElse condition thenValue elseValue ih_condition ih_then ih_else =>
    constructor <;> intro t v h h_v <;> obtain ⟨x, h_x, h_v⟩ := bind_eq_ok.mp h_v <;>
      obtain ⟨y, h_y, h_v⟩ := bind_eq_ok.mp h_v <;> obtain ⟨z, h_z, h_v⟩ := bind_eq_ok.mp h_v <;>
      obtain ⟨out, h_out, rfl⟩ := bind_pure_eq_ok.mp h_v
    · exact logicIfThenElse_nanAt h_law h_out (ih_else.undefined h.1 h_z)
        (h.2.imp (fun h => ih_condition.silent h h_x) fun h => ih_then.undefined h h_y)
    · exact logicIfThenElse_silentAt h_law h_out (ih_else.silent h.1 h_z)
        (h.2.imp (fun h => ih_condition.silent h h_x) fun h => ih_then.silent h h_y)
  | toSignal direction strength condition ih =>
    refine ⟨fun h => absurd h id, fun h h_v => ?_⟩
    obtain ⟨x, h_x, h_v⟩ := bind_eq_ok.mp h_v
    obtain ⟨out, h_out, rfl⟩ := bind_pure_eq_ok.mp h_v
    intro y h_y
    rw [logicToSignal_bar h_out (ih.silent h h_x) h_y]
    exact truthy_zero h_law

/-! ## Signals -/

/-- `to_signal` of the condition is zero at the bar, whatever the market, when every series
    that feeds the condition is undefined there. -/
def NoSignalAt (np : NumPy F) (condition : BlockExpr F) (t : ℕ) : Prop :=
  ∀ (market : String → List F) (direction : String) (strength : F) (out : List F) (x : F),
    (∀ name ∈ condition.feeds, ∀ y, (market name)[t]? = some y → np.isnan y = true) →
    (BlockExpr.toSignal direction strength condition).eval np market = .ok (.floats out) →
    out[t]? = some x → x = np.literal 0

theorem silent_signal (h_law : np.Lawful) {undef : String → ℕ → Prop}
    (h_undef : ∀ name t, undef name t → ∀ x, (market name)[t]? = some x → np.isnan x = true)
    {condition : BlockExpr F} {t : ℕ} (h_silent : condition.Silent undef t) {direction : String}
    {strength : F}
    (h : (BlockExpr.toSignal direction strength condition).eval np market = .ok (.floats out))
    (h_x : out[t]? = some x) : x = np.literal 0 := by
  obtain ⟨v, h_v, h⟩ := bind_eq_ok.mp h
  obtain ⟨out', h_out, h⟩ := bind_eq_ok.mp h
  cases pure_eq_ok.mp h
  exact logicToSignal_bar h_out ((reachSound h_law h_undef condition).silent h_silent h_v) h_x

/-- Where undefined series make the condition silent, they never signal. -/
theorem undefined_never_signals (h_law : np.Lawful) {condition : BlockExpr F} {t : ℕ}
    (h : condition.Silent (fun name bar => name ∈ condition.feeds ∧ bar = t) t) :
    NoSignalAt np condition t := by
  intro market direction strength out x h_feeds h_eval h_x
  have h_undef : ∀ name bar, name ∈ condition.feeds ∧ bar = t →
      ∀ y, (market name)[bar]? = some y → np.isnan y = true := by
    rintro name bar ⟨h_name, rfl⟩
    exact h_feeds name h_name
  exact silent_signal h_law h_undef h h_eval h_x

/-! ## Conditions over small numbers -/

/-- `float64` where nothing is rounded: small rationals, and NaN. -/
def smallNumbers : NumPy (Option ℚ) where
  literal := some
  nan := none
  e := none
  isnan := Option.isNone
  isinf _ := false
  isfinite := Option.isSome
  eq a b := a.any fun x => b.any fun y => decide (x = y)
  lt a b := a.any fun x => b.any fun y => decide (x < y)
  le a b := a.any fun x => b.any fun y => decide (x ≤ y)
  add := Option.map₂ (· + ·)
  subtract := Option.map₂ (· - ·)
  multiply := Option.map₂ (· * ·)
  divide a b := if b = some 0 then none else Option.map₂ (· / ·) a b
  fmod _ _ := none
  minimum := Option.map₂ fun x y => if x ≤ y then x else y
  maximum := Option.map₂ fun x y => if x ≤ y then y else x
  clip a lower upper := Option.map₂ (fun x y => if x ≤ y then x else y)
    (Option.map₂ (fun x y => if x ≤ y then y else x) a lower) upper
  abs := Option.map fun x => if x < 0 then -x else x
  negative := Option.map (- ·)
  round a _ := a
  floor := Option.map fun x => (x.floor : ℚ)
  ceil := Option.map fun x => (x.ceil : ℚ)
  sqrt _ := none
  log _ := none
  exp _ := none

theorem smallNumbers_lawful : smallNumbers.Lawful where
  isnan_nan := rfl
  isfinite_of_isnan x h := by
    cases x with
    | none => rfl
    | some x => cases h
  zero_eq_zero := by decide

/-- `close > 5`. -/
def aboveFive : BlockExpr (Option ℚ) := .compare .gt (.series "close") (.constant (some 5))

/-- `not (close > 5)`. -/
def notAboveFive : BlockExpr (Option ℚ) := .not aboveFive

/-- `shift(close, 1) > 5`. -/
def previousAboveFive : BlockExpr (Option ℚ) :=
  .compare .gt (.shift 1 (.series "close")) (.constant (some 5))

/-- `if_then_else(close > 5, close, 1) >= 1`. -/
def branchAtLeastOne : BlockExpr (Option ℚ) :=
  .compare .gte (.ifThenElse aboveFive (.series "close") (.constant (some 1)))
    (.constant (some 1))

theorem undefined_never_signals_sample :
    NoSignalAt smallNumbers (.and [notAboveFive, aboveFive]) 1 := by
  apply undefined_never_signals smallNumbers_lawful
  simp [BlockExpr.Silent, BlockExpr.AnySilent, BlockExpr.Undefined, BlockExpr.feeds,
    BlockExpr.feedsAll, notAboveFive, aboveFive]

/-- The negation of an undefined comparison is true; a shifted series and a branch without
    series are defined where the market is not. -/
theorem undefined_signals :
    ¬ NoSignalAt smallNumbers notAboveFive 1 ∧ ¬ NoSignalAt smallNumbers previousAboveFive 1 ∧
      ¬ NoSignalAt smallNumbers branchAtLeastOne 1 := by
  have h_market : ∀ y, [some (10 : ℚ), none][1]? = some y → Option.isNone y = true := by
    intro y h
    cases h
    rfl
  refine ⟨fun h => ?_, fun h => ?_, fun h => ?_⟩
  · have h_signal := h (fun _ => [some 10, none]) "long" (some 1) [some 0, some 1] (some 1)
      (fun _ _ => h_market) (by decide +kernel) rfl
    exact absurd h_signal (by decide)
  · have h_signal := h (fun _ => [some 10, none]) "long" (some 1) [some 0, some 1] (some 1)
      (fun _ _ => h_market) (by decide +kernel) rfl
    exact absurd h_signal (by decide)
  · have h_signal := h (fun _ => [some 10, none]) "long" (some 1) [some 1, some 1] (some 1)
      (fun _ _ => h_market) (by decide +kernel) rfl
    exact absurd h_signal (by decide)

end VyomQuant.StrategyDag
