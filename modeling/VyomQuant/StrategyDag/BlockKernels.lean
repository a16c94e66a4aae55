/-
  VyomQuant.StrategyDag.BlockKernels

  The MATH and LOGIC kernels of `block_specs.py`, and what they do with a bar
  that is undefined.

  A kernel reads scalars, float series and boolean series, and works bar by bar.
  `float64` arithmetic is numpy's: the model takes it as a parameter, and the
  results use only what `NumPy.Lawful` says about NaN.
-/

import Mathlib.Data.Rat.Defs
import Mathlib.Data.List.Dedup
import VyomQuant.Lib.Fallible

namespace VyomQuant.StrategyDag

open Except

/-! ## float64 -/

/-- What the kernels use of `float64` and of numpy's functions on one element. -/
structure NumPy (F : Type) where
  /-- The double that a literal of the source denotes. -/
  literal : ℚ → F
  nan : F
  e : F
  isnan : F → Bool
  isinf : F → Bool
  isfinite : F → Bool
  eq : F → F → Bool
  lt : F → F → Bool
  le : F → F → Bool
  add : F → F → F
  subtract : F → F → F
  multiply : F → F → F
  divide : F → F → F
  fmod : F → F → F
  minimum : F → F → F
  maximum : F → F → F
  clip : F → F → F → F
  abs : F → F
  negative : F → F
  round : F → ℤ → F
  floor : F → F
  ceil : F → F
  sqrt : F → F
  log : F → F
  exp : F → F

/-- NaN is NaN, it is not finite, and zero equals zero. -/
structure NumPy.Lawful {F : Type} (np : NumPy F) : Prop where
  isnan_nan : np.isnan np.nan = true
  isfinite_of_isnan : ∀ x, np.isnan x = true → np.isfinite x = false
  zero_eq_zero : np.eq (np.literal 0) (np.literal 0) = true

variable {F : Type} (np : NumPy F)

def NumPy.EPSILON : F := np.literal (1 / 10 ^ 12)

def NumPy.EQ_TOLERANCE : F := np.literal (1 / 10 ^ 9)

/-! ## Operands -/

/-- What a kernel is given: a Python float, a float array or a boolean array. -/
inductive KernelValue (F : Type) where
  | scalar (x : F)
  | floats (xs : List F)
  | bools (bs : List Bool)
deriving DecidableEq

inductive KernelError where
  | mismatchedLengths (lengths : List ℕ)
  | conditionLength (condition values : ℕ)
  | indexError
  | shiftForward (bars : ℤ)
  | unsupportedLogBase (base : String)
  | clampBoundsMissing
  | clampBoundsCrossed
  | constantNotFinite
  | directionUnknown (direction : String)
  | strengthOutOfRange
deriving DecidableEq

inductive KernelIssueCode where
  | DIVISION_BY_ZERO
  | MODULO_BY_ZERO
  | NEGATIVE_ROOT
  | NON_POSITIVE_LOG
  | ARITHMETIC_OVERFLOW

structure KernelIssue where
  code : KernelIssueCode
  bar : ℕ
  bars_affected : ℕ

/-- `_as_float_array`: a scalar stays 0-dimensional, a boolean series becomes zeros and
    ones. -/
def asFloatArray : KernelValue F → F ⊕ List F
  | .scalar x => .inl x
  | .floats xs => .inr xs
  | .bools bs => .inr (bs.map fun b => np.literal (if b then 1 else 0))

/-- `_align`: scalars take the common length of the series, or one. -/
def align (operands : List (KernelValue F)) : Except KernelError (List (List F)) :=
  let arrays := operands.map (asFloatArray np)
  let lengths := (arrays.filterMap fun a => a.getRight?.map List.length).dedup
  if 1 < lengths.length then .error (.mismatchedLengths (lengths.mergeSort (· ≤ ·)))
  else .ok (arrays.map fun a => a.elim (List.replicate (lengths.headD 1)) id)

/-- `_finite_or_nan` at one bar. -/
def finiteOrNan (x : F) : F := if np.isfinite x then x else np.nan

/-- `_record`: one issue for all the bars of the mask. -/
def recordIssue (code : KernelIssueCode) (mask : List Bool) : List KernelIssue :=
  if mask.any id then [⟨code, mask.findIdx id, mask.count true⟩] else []

/-- `_reduce`. -/
def reduceWith {α : Type} (op : α → α → α) (first : List α) (rest : List (List α)) : List α :=
  rest.foldl (List.zipWith op) first

/-! ## MATH -/

inductive MathOp (F : Type) where
  | ADD
  | SUBTRACT
  | MULTIPLY
  | DIVIDE
  | MODULO
  | MIN
  | MAX
  | ABS
  | NEGATE
  | ROUND (decimals : ℤ)
  | FLOOR
  | CEIL
  | SQRT
  | LOG (base : String)
  | EXP
  | CLAMP (lower upper : Option F)

/-- The bars at which some operand is NaN. -/
def nanMask : List (List F) → List Bool
  | [] => []
  | first :: rest => reduceWith (· || ·) (first.map np.isnan) (rest.map (List.map np.isnan))

/-- The bars of `xs` that are bad and whose operands are all defined. -/
def freshly (bad : F → Bool) (xs : List F) (mask : List Bool) : List Bool :=
  List.zipWith (fun x undefined => bad x && !undefined) xs mask

def LOG_BASES (base : String) : Option F :=
  if base = "e" then some np.e
  else if base = "2" then some (np.literal 2)
  else if base = "10" then some (np.literal 10)
  else none

/-- The branch of `safe_math_apply` for the operation, before the sweep. -/
def rawMath (op : MathOp F) (arrays : List (List F)) (mask : List Bool) :
    Except KernelError (List F × List KernelIssue) :=
  match op, arrays with
  | .ADD, a :: rest => .ok (reduceWith np.add a rest, [])
  | .SUBTRACT, a :: b :: _ => .ok (List.zipWith np.subtract a b, [])
  | .MULTIPLY, a :: rest => .ok (reduceWith np.multiply a rest, [])
  | .DIVIDE, numerator :: denominator :: _ =>
    let bad := fun d => np.lt (np.abs d) np.EPSILON
    .ok (List.zipWith (fun n d => np.divide n (if bad d then np.nan else d))
        numerator denominator,
      recordIssue .DIVISION_BY_ZERO (freshly bad denominator mask))
  | .MODULO, left :: right :: _ =>
    let bad := fun r => np.lt (np.abs r) np.EPSILON
    .ok (List.zipWith (fun l r => np.fmod l (if bad r then np.nan else r)) left right,
      recordIssue .MODULO_BY_ZERO (freshly bad right mask))
  | .MIN, a :: rest => .ok (reduceWith np.minimum a rest, [])
  | .MAX, a :: rest => .ok (reduceWith np.maximum a rest, [])
  | .ABS, a :: _ => .ok (a.map np.abs, [])
  | .NEGATE, a :: _ => .ok (a.map np.negative, [])
  | .ROUND decimals, a :: _ => .ok (a.map fun x => np.round x decimals, [])
  | .FLOOR, a :: _ => .ok (a.map np.floor, [])
  | .CEIL, a :: _ => .ok (a.map np.ceil, [])
  | .SQRT, a :: _ =>
    let bad := fun x => np.lt x (np.literal 0)
    .ok (a.map fun x => np.sqrt (if bad x then np.nan else x),
      recordIssue .NEGATIVE_ROOT (freshly bad a mask))
  | .LOG base, a :: _ =>
    match LOG_BASES np base with
    | none => .error (.unsupportedLogBase base)
    | some divisor =>
      let bad := fun x => np.le x (np.literal 0)
      let logs := a.map fun x => np.log (if bad x then np.nan else x)
      .ok (if np.eq divisor np.e then logs
          else logs.map fun l => np.divide l (np.log divisor),
        recordIssue .NON_POSITIVE_LOG (freshly bad a mask))
  | .EXP, a :: _ => .ok (a.map np.exp, [])
  | .CLAMP (some lower) (some upper), a :: _ =>
    if np.lt upper lower then .error .clampBoundsCrossed
    else .ok (a.map fun x => np.clip x lower upper, [])
  | .CLAMP _ _, _ :: _ => .error .clampBoundsMissing
  | _, _ => .error .indexError

/-- `safe_math_apply` for every operation but SHIFT. -/
def safeMathApply (op : MathOp F) (operands : List (KernelValue F)) :
    Except KernelError (List F × List KernelIssue) := do
  let arrays ← align np operands
  let mask := nanMask np arrays
  let (raw, issues) ← rawMath np op arrays mask
  return (List.zipWith (fun x undefined => if undefined then np.nan else finiteOrNan np x) raw mask,
    issues ++ recordIssue .ARITHMETIC_OVERFLOW (freshly np.isinf raw mask))

/-- The SHIFT branch of `safe_math_apply`: `out[t] = a[t - bars]`, the leading bars NaN. -/
def mathShift (a : KernelValue F) (bars : ℤ) : Except KernelError (List F) := do
  let arrays ← align np [a]
  refuseIf (bars < 0) (.shiftForward bars)
  let series := arrays.headD []
  let moved := List.replicate bars.toNat np.nan ++ series
  return (moved.take series.length).map (finiteOrNan np)

def mathAdd (operands : List (KernelValue F)) := safeMathApply np .ADD operands
def mathSubtract (a b : KernelValue F) := safeMathApply np .SUBTRACT [a, b]
def mathMultiply (operands : List (KernelValue F)) := safeMathApply np .MULTIPLY operands
def mathDivide (numerator denominator : KernelValue F) :=
  safeMathApply np .DIVIDE [numerator, denominator]
def mathModulo (a b : KernelValue F) := safeMathApply np .MODULO [a, b]
def mathMin (operands : List (KernelValue F)) := safeMathApply np .MIN operands
def mathMax (operands : List (KernelValue F)) := safeMathApply np .MAX operands
def mathAbs (a : KernelValue F) := safeMathApply np .ABS [a]
def mathNegate (a : KernelValue F) := safeMathApply np .NEGATE [a]
def mathRound (a : KernelValue F) (decimals : ℤ) := safeMathApply np (.ROUND decimals) [a]
def mathFloor (a : KernelValue F) := safeMathApply np .FLOOR [a]
def mathCeil (a : KernelValue F) := safeMathApply np .CEIL [a]
def mathSqrt (a : KernelValue F) := safeMathApply np .SQRT [a]
def mathLog (a : KernelValue F) (base : String) := safeMathApply np (.LOG base) [a]
def mathExp (a : KernelValue F) := safeMathApply np .EXP [a]
def mathClamp (a : KernelValue F) (lower upper : Option F) :=
  safeMathApply np (.CLAMP lower upper) [a]

/-- `math_constant`: a non-finite constant is refused. -/
def mathConstant (value : F) : Except KernelError F :=
  if np.isfinite value then .ok value else .error .constantNotFinite

/-! ## LOGIC -/

/-- A number as a condition: NaN is not true. -/
def truthy (x : F) : Bool := !np.isnan x && !np.eq x (np.literal 0)

/-- `_as_bool_array`. -/
def asBoolArray : KernelValue F → List Bool
  | .scalar x => [truthy np x]
  | .floats xs => xs.map (truthy np)
  | .bools bs => bs

/-- `_align_bool`. -/
def alignBool (operands : List (KernelValue F)) : Except KernelError (List (List Bool)) :=
  let arrays := operands.map (asBoolArray np)
  let lengths := (arrays.map List.length).dedup
  if 1 < lengths.length then .error (.mismatchedLengths (lengths.mergeSort (· ≤ ·)))
  else .ok arrays

/-- `_reduce` of a boolean connective over the aligned operands. -/
def connect (op : Bool → Bool → Bool) (operands : List (KernelValue F)) :
    Except KernelError (List Bool) := do
  let arrays ← alignBool np operands
  match arrays with
  | [] => .error .indexError
  | first :: rest => return reduceWith op first rest

def logicAnd (operands : List (KernelValue F)) := connect np (· && ·) operands
def logicOr (operands : List (KernelValue F)) := connect np (· || ·) operands

def logicNot (a : KernelValue F) : List Bool := (asBoolArray np a).map (!·)

/-- The aligned operands of a kernel of two series, and a test of each pair of bars. -/
def onPairs (test : F → F → Bool) (left right : KernelValue F) :
    Except KernelError (List Bool) := do
  let arrays ← align np [left, right]
  return List.zipWith test (arrays.getD 0 []) (arrays.getD 1 [])

/-- `_compare` at one bar: an undefined bar on either side reports False. -/
def compareBar (op : F → F → Bool) (a b : F) : Bool :=
  !(np.isnan a || np.isnan b) && op a b

def logicGt (left right : KernelValue F) :=
  onPairs np (compareBar np fun a b => np.lt b a) left right
def logicLt (left right : KernelValue F) := onPairs np (compareBar np np.lt) left right
def logicGte (left right : KernelValue F) :=
  onPairs np (compareBar np fun a b => np.le b a) left right
def logicLte (left right : KernelValue F) := onPairs np (compareBar np np.le) left right
def logicEq (left right : KernelValue F) :=
  onPairs np (compareBar np fun a b => np.le (np.abs (np.subtract a b)) np.EQ_TOLERANCE)
    left right
def logicNeq (left right : KernelValue F) :=
  onPairs np (compareBar np fun a b => np.lt np.EQ_TOLERANCE (np.abs (np.subtract a b)))
    left right

/-- A cross between two bars that are defined on both sides. -/
def crossedBar (above : Bool) (before now : F × F) : Bool :=
  !(np.isnan before.1 || np.isnan before.2 || np.isnan now.1 || np.isnan now.2) &&
    (if above then np.le before.1 before.2 && np.lt now.2 now.1
      else np.le before.2 before.1 && np.lt now.1 now.2)

/-- `_cross`: the first bar never crosses. -/
def logicCross (above : Bool) (fast slow : KernelValue F) : Except KernelError (List Bool) := do
  let arrays ← align np [fast, slow]
  let bars := List.zip (arrays.getD 0 []) (arrays.getD 1 [])
  return (bars.take 1).map (fun _ => false) ++ List.zipWith (crossedBar np above) bars bars.tail

def logicCrossAbove (fast slow : KernelValue F) := logicCross np true fast slow
def logicCrossBelow (fast slow : KernelValue F) := logicCross np false fast slow

/-- `logic_between` at one bar. -/
def betweenBar (inclusive : Bool) (v : F) (band : F × F) : Bool :=
  !(np.isnan v || np.isnan band.1 || np.isnan band.2) &&
    (if inclusive then np.le band.1 v && np.le v band.2 else np.lt band.1 v && np.lt v band.2)

def logicBetween (value lower upper : KernelValue F) (inclusive : Bool) :
    Except KernelError (List Bool) := do
  let arrays ← align np [value, lower, upper]
  return List.zipWith (betweenBar np inclusive) (arrays.getD 0 [])
    (List.zip (arrays.getD 1 []) (arrays.getD 2 []))

def logicIfThenElse (condition thenValue elseValue : KernelValue F) :
    Except KernelError (List F) := do
  let arrays ← align np [thenValue, elseValue]
  let mask := asBoolArray np condition
  refuseIf (mask.length ≠ (arrays.getD 0 []).length)
    (.conditionLength mask.length (arrays.getD 0 []).length)
  return List.zipWith (fun chosen (pair : F × F) =>
      finiteOrNan np (if chosen then pair.1 else pair.2))
    mask (List.zip (arrays.getD 0 []) (arrays.getD 1 []))

/-- `logic_to_signal`. -/
def logicToSignal (condition : KernelValue F) (direction : String) (strength : F) :
    Except KernelError (List F) := do
  let normalised := direction.toLower
  refuseIf (normalised ≠ "long" ∧ normalised ≠ "short") (.directionUnknown direction)
  refuseIf ((np.isfinite strength && np.le (np.literal 0) strength &&
    np.le strength (np.literal 1)) = false) .strengthOutOfRange
  let magnitude := if normalised = "long" then strength else np.negative strength
  return (asBoolArray np condition).map fun chosen =>
    if chosen then magnitude else np.literal 0

end VyomQuant.StrategyDag
