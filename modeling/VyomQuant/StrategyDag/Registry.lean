/-
  VyomQuant.StrategyDag.Registry

  What the registry publishes of a block (`strategy_dag/registry.py`), and the check of one
  node's parameters against it (`block_specs.validate_block_params`).

  A registry is any function from block ids to descriptors.  A block's warmup and its
  cross-field rule are functions of its own, read on the parameters with the declared
  defaults filled in.
-/

import Mathlib.Data.Nat.Size
import VyomQuant.Lib.Fallible
import VyomQuant.StrategyDag.DagHash

namespace VyomQuant.StrategyDag

/-! ## Descriptors -/

/-- A number cannot be read: `int` or `float` raises, and so does the call. -/
inductive Unreadable where
  | number

inductive ParamType where
  | NUMBER
  | INTEGER
  | TEXT
  | SELECT
  | MULTISELECT
  | BOOLEAN
  | DATE
  | SYMBOL
  | TIMEFRAME
deriving DecidableEq

structure ParamSpec where
  key : String
  type : ParamType
  required : Bool
  default : Value
  min : Option Scalar
  max : Option Scalar
  options : Option (List Scalar)

inductive ExecutionSemantics where
  | SERIES_MAP
  | WINDOWED
  | STATEFUL
  | TERMINAL
deriving DecidableEq

inductive LeakageRisk where
  | NONE
  | LOW
  | REVIEW_REQUIRED
deriving DecidableEq

/-- `metadata["model"]`: what a model needs before it can be trained or can predict. -/
structure ModelFigures where
  modelFamily : String
  minFeatureColumns : Option ℤ
  minTrainingRows : Option ℤ
  sequenceLength : Option ℤ

/-- What the validator and the compiler read of a descriptor's `metadata`. -/
structure BlockMetadata where
  operator : String
  globalStatisticBlock : Bool
  leakyOutputs : List String
  model : Option ModelFigures

structure BlockDescriptor where
  category : BlockCategory
  inputs : List Port
  outputs : List Port
  params : List ParamSpec
  /-- `warmup_fn`, or nothing where it raises. -/
  warmupFn : Params → Option ℤ
  allowedSuccessorCategories : List BlockCategory
  executionSemantics : ExecutionSemantics
  leakageRisk : LeakageRisk
  capabilityFlags : List String
  /-- The block's own rule, which reads the numbers it compares. -/
  validate : Option (Params → Except Unreadable (List RawIssue))
  metadata : BlockMetadata

/-- `registry.get`, a lookup that raises finding nothing. -/
abbrev Registry := String → Option BlockDescriptor

namespace BlockDescriptor

def isTerminal (descriptor : BlockDescriptor) : Bool :=
  descriptor.executionSemantics == .TERMINAL

def inputPort (descriptor : BlockDescriptor) (name : String) : Option Port :=
  descriptor.inputs.find? fun port => port.name = name

def outputPort (descriptor : BlockDescriptor) (name : String) : Option Port :=
  descriptor.outputs.find? fun port => port.name = name

/-- Assign a dictionary entry: in place where the key is there, else at the end. -/
def putParam (key : String) (value : Value) : Params → Params
  | [] => [(key, value)]
  | (key', value') :: rest =>
    if key' = key then (key, value) :: rest else (key', value') :: putParam key value rest

/-- Declared defaults overlaid with the supplied values that are not `None`. -/
def resolvedParams (descriptor : BlockDescriptor) (params : Params) : Params :=
  let defaults := descriptor.params.foldl (fun acc param => putParam param.key param.default acc) []
  params.foldl
    (fun acc member =>
      match member.2 with
      | .scalar .none => acc
      | value => putParam member.1 value acc)
    defaults

/-- `warmup(params)`. -/
def warmup (descriptor : BlockDescriptor) (params : Params) : Option ℤ :=
  descriptor.warmupFn (descriptor.resolvedParams params)

def crossFieldIssues (descriptor : BlockDescriptor) (params : Params) :
    Except Unreadable (List RawIssue) :=
  match descriptor.validate with
  | none => pure []
  | some validate => validate (descriptor.resolvedParams params)

end BlockDescriptor

/-- `COMPATIBILITY_MATRIX`. -/
def compatibilityMatrix : PortType → List PortType
  | .OHLCV_FRAME => [.OHLCV_FRAME, .PRICE_SERIES]
  | .PRICE_SERIES => [.PRICE_SERIES, .SCALAR_SERIES]
  | .SCALAR_SERIES => [.SCALAR_SERIES]
  | .BOOLEAN_SERIES => [.BOOLEAN_SERIES, .SIGNAL]
  | .FEATURE_MATRIX => [.FEATURE_MATRIX]
  | .PREDICTION => [.PREDICTION, .SCALAR_SERIES]
  | .SIGNAL => [.SIGNAL, .TRADE_INTENT]
  | .TRADE_INTENT => []
  | .SCALAR => [.SCALAR, .SCALAR_SERIES]

def compatible (source target : PortType) : Bool := target ∈ compatibilityMatrix source

/-! ## Numbers -/

/-- A Python number, as `<` and `==` see it. -/
inductive Extended where
  | nan
  | negativeInfinity
  | real (q : ℚ)
  | positiveInfinity
deriving DecidableEq

def PyFloat.extended : PyFloat → Extended
  | .nan => .nan
  | .infinity true => .negativeInfinity
  | .infinity false => .positiveInfinity
  | .finite negative digits exponent => .real (finiteValue negative digits exponent)

/-- `isinstance(item, (int, float))` and no bool. -/
def Scalar.number? : Scalar → Option Extended
  | .int n => some (.real n)
  | .float x => some x.extended
  | _ => Option.none

/-- A bool is a number where values are compared. -/
def Scalar.comparable? : Scalar → Option Extended
  | .bool b => some (.real (if b then 1 else 0))
  | s => s.number?

def Extended.lt : Extended → Extended → Bool
  | .nan, _ => false
  | _, .nan => false
  | .negativeInfinity, .negativeInfinity => false
  | .negativeInfinity, _ => true
  | _, .negativeInfinity => false
  | .positiveInfinity, _ => false
  | _, .positiveInfinity => true
  | .real q, .real r => q < r

def Extended.eq : Extended → Extended → Bool
  | .nan, _ => false
  | x, y => x == y

/-- `a == b`. -/
def Scalar.eq (a b : Scalar) : Bool :=
  match a.comparable?, b.comparable? with
  | some x, some y => x.eq y
  | Option.none, Option.none => a == b
  | _, _ => false

/-- `float(n)`, to the nearest of 53 bits and to even from the middle; too large a number
    raises. -/
def floatOfInt (n : ℤ) : Option ℤ :=
  let size := n.natAbs.size
  let shift := 2 ^ (size - 53)
  let quotient := n.natAbs / shift
  let rest := n.natAbs % shift
  let rounded := if rest * 2 > shift ∨ (rest * 2 = shift ∧ quotient % 2 = 1) then quotient + 1 else quotient
  if rounded * shift ≥ 2 ^ 1024 then none else some (n.sign * (rounded * shift : ℕ))

/-! ## One parameter -/

/-- What `validate_block_params` finds wrong with a value. -/
inductive ParamProblem where
  | requiredMissing
  | notInOptions
  | notANumber
  | notWhole
  | tooSmall
  | tooLarge
  | notABoolean

/-- `float(item) != int(item)`. -/
def notWhole : Scalar → Except Unreadable Bool
  | .int n =>
    match floatOfInt n with
    | none => .error .number
    | some rounded => .ok (rounded ≠ n)
  | .float (.finite negative digits exponent) => .ok ((finiteValue negative digits exponent).den ≠ 1)
  | .float _ => .error .number
  | _ => .ok false

def itemsOf : Value → List Value
  | .list items => items
  | value => [value]

/-- `item in options`. -/
def inOptions (options : List Scalar) : Value → Bool
  | .scalar s => options.any fun option => s.eq option
  | _ => false

def bound (limit : Option Scalar) : Option Extended := limit.bind Scalar.number?

def numericProblems (param : ParamSpec) (item : Value) : Except Unreadable (List ParamProblem) :=
  match item with
  | .scalar s =>
    match s.number? with
    | some x => do
      let fractional ← if param.type = .INTEGER then notWhole s else .ok false
      .ok ((if fractional then [.notWhole] else []) ++
        (match bound param.min with
          | some least => if x.lt least then [.tooSmall] else []
          | none => []) ++
        (match bound param.max with
          | some most => if most.lt x then [.tooLarge] else []
          | none => []))
    | none => .ok (if param.type = .MULTISELECT then [] else [.notANumber])
  | _ => .ok (if param.type = .MULTISELECT then [] else [.notANumber])

def isNone : Value → Bool
  | .scalar .none => true
  | _ => false

def isBool : Value → Bool
  | .scalar (.bool _) => true
  | _ => false

/-- `validate_block_params` on a descriptor narrowed to one parameter. -/
def paramProblems (param : ParamSpec) (value : Value) : Except Unreadable (List ParamProblem) :=
  if isNone value then
    .ok (if param.required && isNone param.default then [.requiredMissing] else [])
  else do
    let unknown :=
      match param.options with
      | some options =>
        if (itemsOf value).any fun item => !inOptions options item then [.notInOptions] else []
      | none => []
    let numeric ←
      if param.type = .NUMBER ∨ param.type = .INTEGER ∨ param.type = .MULTISELECT then
        (itemsOf value).mapM (numericProblems param)
      else .ok []
    .ok (unknown ++ numeric.flatten ++
      if param.type = .BOOLEAN && !isBool value then [.notABoolean] else [])

end VyomQuant.StrategyDag
