/-
  VyomQuant.StrategyDag.Validator

  `validate` (`strategy_dag/validator.py`): the stages in their order, the graph as the
  registry publishes it, and the report.

  Whatever a stage finds, the next one runs.  A graph is valid when the report holds no
  error; only then does it have a hash.
-/

import VyomQuant.StrategyDag.Stages

namespace VyomQuant.StrategyDag

open Digraph (converse reachableFrom sorted successors)

/-! ## Stage 10a: warmup -/

/-- `warmup_by_node.get(node_id, 0)`. -/
def warmupAt (warmups : List (String × ℤ)) (nodeId : String) : ℤ :=
  (warmups.lookup nodeId).getD 0

/-- `max(values, default=0)`. -/
def maxOrZero (values : List ℤ) : ℤ := values.max?.getD 0

/-- What a block needs before its own value is real; a warmup that cannot be read is 0. -/
def ownWarmup (registry : Registry) (g : StrategyGraph) (node : NodeSpec) : ℤ :=
  ((descriptorOf registry g node.id).bind fun descriptor => descriptor.warmup node.params).getD 0

/-- Walk an order; each node needs its own bars after the most that one before it needs. -/
def composeWarmups (registry : Registry) (g : StrategyGraph) :
    List String → List (String × ℤ) → List (String × ℤ)
  | [], warmups => warmups
  | nodeId :: rest, warmups =>
    match g.nodeIndex nodeId with
    | none => composeWarmups registry g rest warmups
    | some node =>
      let upstream := maxOrZero ((successors (converse (arcs g)) nodeId).map (warmupAt warmups))
      composeWarmups registry g rest (warmups ++ [(nodeId, ownWarmup registry g node + upstream)])

/-- The most that an action needs, or any node where there is no action. -/
def totalWarmup (registry : Registry) (g : StrategyGraph) (warmups : List (String × ℤ)) : ℤ :=
  let actionIds := idsIn registry g .ACTION
  let pool := if actionIds = [] then warmups.map Prod.fst else actionIds
  maxOrZero (pool.map (warmupAt warmups))

/-- `compose_warmup`, on a graph without a cycle. -/
def composeWarmup (registry : Registry) (g : StrategyGraph) : List (String × ℤ) × ℤ :=
  let order := ((executionOrder g).map Prod.fst).getD []
  let warmups := composeWarmups registry g order []
  (warmups, totalWarmup registry g warmups)

def warmupStage (options : Options) (warmupBars : ℤ) : List Issue :=
  match options.availableBars with
  | none => []
  | some available =>
    if available < warmupBars then
      [{ code := .WARMUP_EXCEEDS_HISTORY, severity := .warning, field := "warmup_bars" }]
    else []

/-! ## Stage 10b: leakage -/

/-- `int(text)`: digits, with single underscores between them. -/
def intOfText (text : String) : Option ℤ :=
  let natural (chars : List Char) : Option ℤ :=
    let groups := chars.splitOn '_'
    if groups.all fun group => group ≠ [] && group.all Char.isDigit then
      some (groups.flatten.foldl (fun n c => n * 10 + (c.toNat - 48 : ℕ)) 0)
    else none
  match (strip text).toList with
  | '-' :: rest => (natural rest).map fun n => -n
  | '+' :: rest => natural rest
  | rest => natural rest

/-- `_coerce_int`; an infinity raises. -/
def coerceInt : Value → Except Unreadable (Option ℤ)
  | .scalar (.int n) => .ok (some n)
  | .scalar (.float (.finite negative digits exponent)) =>
    let q := finiteValue negative digits exponent
    .ok (some (q.num.tdiv q.den))
  | .scalar (.float (.infinity _)) => .error .number
  | .scalar (.str text) => .ok (intOfText text)
  | _ => .ok none

/-- `str(params.get("mode", "") or "").strip().lower() == "global"`: only a text can be. -/
def isGlobalMode (params : Params) : Bool :=
  match (params.get "mode").text? with
  | some mode => (strip mode).toLower = "global"
  | none => false

/-- `REVIEW_DISCHARGED_BY_FLAG` holds this one flag. -/
def fitOnTrainSplitFlag : String := "fit_on_train_split"

/-- `_review_is_discharged`. -/
def reviewIsDischarged (descriptor : BlockDescriptor) (params : Params) : Bool :=
  fitOnTrainSplitFlag ∈ descriptor.capabilityFlags &&
    match params.find? fun member => member.1 = "fit_on" with
    | none => true
    | some member => member.2.text? = some "train_split"

/-- The nodes that some model depends on, itself included. -/
def mlReachable (registry : Registry) (g : StrategyGraph) : List String :=
  upstreamOf g (g.nodeIds.filter fun id =>
    (descriptorOf registry g id).any fun descriptor => descriptor.category = .ML_DL)

def shiftIssues (descriptor : BlockDescriptor) (node : AuthoredNode) :
    Except Unreadable (List Issue) :=
  if node.blockId = "shift" ∨ descriptor.metadata.operator.toLower = "shift" then do
    let bars ← coerceInt (node.params.get "bars")
    pure (if bars.any fun bars => bars < 0 then
      [{ code := .LOOKAHEAD_SHIFT, severity := .error, nodeId := node.id, field := "bars" }] else [])
  else pure []

def globalStatisticIssues (descriptor : BlockDescriptor) (node : AuthoredNode) : List Issue :=
  if (descriptor.metadata.globalStatisticBlock || node.blockId ∈ ["feat_zscore", "feat_normalize"])
      && isGlobalMode node.params then
    [{ code := .GLOBAL_STATISTIC_LEAK, severity := .error, nodeId := node.id, field := "mode" }]
  else []

/-- A future bar on the way into a model: along an edge from a leaky port where the block
    says which ports leak, else out of the block. -/
def leakyFeatureIssues (registry : Registry) (g : StrategyGraph) (descriptor : BlockDescriptor)
    (node : AuthoredNode) : List Issue :=
  if descriptor.leakageRisk ≠ .REVIEW_REQUIRED ∨ descriptor.category = .ML_DL ∨
      reviewIsDischarged descriptor node.params then []
  else if descriptor.metadata.leakyOutputs ≠ [] then
    (g.edges.filter fun edge => edge.source = node.id ∧
        edge.sourcePort ∈ descriptor.metadata.leakyOutputs ∧
        edge.target ∈ mlReachable registry g).map fun edge =>
      { code := .LEAKY_FEATURE_INTO_MODEL, severity := .error, nodeId := node.id
        edgeId := edge.id, field := edge.sourcePort }
  else if node.id ∈ mlReachable registry g then
    [{ code := .LEAKY_FEATURE_INTO_MODEL, severity := .error, nodeId := node.id }]
  else []

def leakageIssues (registry : Registry) (g : StrategyGraph) (descriptor : BlockDescriptor)
    (node : AuthoredNode) : Except Unreadable (List Issue) := do
  let shifts ← shiftIssues descriptor node
  pure (shifts ++ globalStatisticIssues descriptor node ++
    leakyFeatureIssues registry g descriptor node)

/-- What the issues of this stage are sorted by. -/
def Issue.leakageKey (issue : Issue) : List String :=
  [issue.nodeId.getD "", issue.code.value, issue.field.getD "", issue.edgeId.getD ""]

def nodeLeakageIssues (registry : Registry) (g : StrategyGraph) (node : NodeSpec) :
    Except Unreadable (List Issue) :=
  match descriptorOf registry g node.id with
  | some descriptor => leakageIssues registry g descriptor node.authored
  | none => pure []

/-- `validate_no_lookahead`. -/
def leakageStage (registry : Registry) (g : StrategyGraph) : Except Unreadable (List Issue) := do
  let issues ← g.nodes.mapM (nodeLeakageIssues registry g)
  pure (issues.flatten.insertionSort fun a b => a.leakageKey ≤ b.leakageKey)

/-! ## The graph as the registry publishes it -/

def recomputeNode (registry : Registry) (g : StrategyGraph) (node : NodeSpec) : NodeSpec :=
  match descriptorOf registry g node.id with
  | none => node
  | some descriptor =>
    { node with
      category := descriptor.category, inputs := descriptor.inputs, outputs := descriptor.outputs }

/-- The type of the port an edge leaves from, if the registry publishes it. -/
def sourceType (registry : Registry) (g : StrategyGraph) (edge : EdgeSpec) : Option PortType :=
  ((descriptorOf registry g edge.source).bind fun descriptor =>
    descriptor.outputPort edge.sourcePort).map Port.type

def recomputeEdge (registry : Registry) (g : StrategyGraph) (edge : EdgeSpec) : EdgeSpec :=
  { edge with type := (sourceType registry g edge).or edge.type }

/-- `_recompute_graph`, with the state computed for it. -/
def recomputeGraph (registry : Registry) (g : StrategyGraph) (state : ValidationState) :
    StrategyGraph :=
  { g with
    nodes := g.nodes.map (recomputeNode registry g)
    edges := g.edges.map (recomputeEdge registry g)
    validationState := state }

/-- The fields of a node that the registry has otherwise. -/
def nodeOverrides (registry : Registry) (g : StrategyGraph) (node : NodeSpec) : List Issue :=
  match descriptorOf registry g node.id with
  | none => []
  | some descriptor =>
    (if (node.inputs ≠ [] ∨ node.outputs ≠ []) ∧
        (node.inputs, node.outputs) ≠ (descriptor.inputs, descriptor.outputs) then
      [{ code := .PORT_CONTRACT_RECOMPUTED, severity := .warning, nodeId := node.id
         field := "inputs/outputs" }] else []) ++
    if node.category ≠ descriptor.category then
      [{ code := .CATEGORY_REMAPPED, severity := .warning, nodeId := node.id, field := "category" }]
    else []

def edgeOverrides (registry : Registry) (g : StrategyGraph) (edge : EdgeSpec) : List Issue :=
  match edge.type, sourceType registry g edge with
  | some declared, some produced =>
    if declared ≠ produced then
      [{ code := .EDGE_TYPE_RECOMPUTED, severity := .warning, edgeId := edge.id, field := "type" }]
    else []
  | _, _ => []

def stateOverrides (g : StrategyGraph) (state : ValidationState) : List Issue :=
  if g.validationState ≠ .UNVALIDATED ∧ g.validationState ≠ state then
    [{ code := .VALIDATION_STATE_RECOMPUTED, severity := .warning, field := "validation_state" }]
  else []

/-- What the client sent and the server did not take. -/
def clientOverrides (registry : Registry) (g : StrategyGraph) (state : ValidationState) :
    List Issue :=
  g.nodes.flatMap (nodeOverrides registry g) ++ g.edges.flatMap (edgeOverrides registry g) ++
    stateOverrides g state

/-! ## The report -/

structure ValidationReport where
  errors : List Issue
  warnings : List Issue
  dagHash : Option String
  canonicalGraph : StrategyGraph
  executionOrder : Option (List String)
  executionLevels : Option (List (List String))
  warmupByNode : List (String × ℤ)
  warmupBars : Option ℤ

/-- `report.valid`. -/
def ValidationReport.valid (report : ValidationReport) : Bool := report.errors.isEmpty

/-- Warmup composes along paths, and a cycle has none. -/
def warmupOf (registry : Registry) (g : StrategyGraph) : Option (List (String × ℤ) × ℤ) :=
  if cycleIn g = [] then some (composeWarmup registry g) else none

def migrationStage (options : Options) (g : StrategyGraph) : List Issue :=
  if options.includeMigrationIssues then g.migrationIssues.map RawIssue.migrated else []

/-- Every issue of the stages, in the order they are collected. -/
def stageIssues (registry : Registry) (options : Options) (g : StrategyGraph) :
    Except Unreadable (List Issue) := do
  let params ← paramStage registry g
  let leakage ← leakageStage registry g
  pure (migrationStage options g ++
    structuralIssues registry options g ++
    unresolvedIssues registry g ++
    params ++
    edgeStage registry g ++
    requiredInputStage registry g ++
    cycleStage g ++
    orphanStage registry g ++
    executionPathStage registry g ++
    provenanceStage registry g ++
    ((warmupOf registry g).elim [] fun warmup => warmupStage options warmup.2) ++
    leakage)

def stateOf (errors : List Issue) : ValidationState :=
  if errors.isEmpty then .VALID else .INVALID

/-- `validate`. -/
def validate (registry : Registry) (options : Options) (g : StrategyGraph) :
    Except Unreadable ValidationReport := do
  let found ← stageIssues registry options g
  -- what was overridden is a warning, so it does not change the state
  let state := stateOf (found.filter fun issue => issue.severity = .error)
  let issues := found ++ clientOverrides registry g state
  let errors := issues.filter fun issue => issue.severity = .error
  let canonical := recomputeGraph registry g state
  pure
    { errors := errors
      warnings := issues.filter fun issue => issue.severity = .warning
      dagHash := if errors.isEmpty then some (computeDagHash canonical) else none
      canonicalGraph := canonical
      executionOrder := (executionOrder g).map Prod.fst
      executionLevels := (executionOrder g).map Prod.snd
      warmupByNode := ((warmupOf registry g).map Prod.fst).getD []
      warmupBars := (warmupOf registry g).map Prod.snd }

end VyomQuant.StrategyDag
