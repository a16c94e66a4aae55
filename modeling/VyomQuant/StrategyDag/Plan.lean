/-
  VyomQuant.StrategyDag.Plan

  The compiled plan (`strategy_dag/plan.py`) and its compiler (`compile_plan` in
  `strategy_compiler.py`).

  The compiler validates the graph, takes the canonical graph and the order of the report,
  finds the market of every action among the data nodes upstream of it, and checks the plan
  before it lets it out.
-/

import VyomQuant.StrategyDag.Validator

namespace VyomQuant.StrategyDag

open Digraph (reachableFrom sorted)

/-! ## Who feeds whom -/

/-- The distinct upstream ids of a node, sorted. -/
def predecessors (g : StrategyGraph) (nodeId : String) : List String :=
  sorted (((sortedEdges g).filter fun edge => edge.target = nodeId).map EdgeSpec.source).eraseDups

/-- The keys of the maps below: the nodes, and what else an edge points at. -/
def mapKeys (g : StrategyGraph) : List String :=
  (g.nodeIds ++ (sortedEdges g).map EdgeSpec.target).eraseDups

/-- `predecessor_map`. -/
def predecessorMap (g : StrategyGraph) : List (String × List String) :=
  (mapKeys g).map fun nodeId => (nodeId, predecessors g nodeId)

/-- `inbound_map`: for each node and port, every edge that feeds it. -/
def inboundMap (g : StrategyGraph) : List (String × List (String × List EdgeSpec)) :=
  (mapKeys g).map fun nodeId =>
    let fed := (sortedEdges g).filter fun edge => edge.target = nodeId
    (nodeId, (fed.map EdgeSpec.targetPort).eraseDups.map fun port =>
      (port, fed.filter fun edge => edge.targetPort = port))

/-! ## The market of an action -/

inductive PlanBuildError where
  | missingHash
  | blankText (field nodeId : String)
  | orderMismatch
  | actionSymbolUnresolved (actionId : String) (dataAncestors : List String)
  | ambiguousActionSymbol (actionId : String) (symbols : List String)

/-- The DATA nodes upstream of `root`, sorted by id: the order of the walk is forgotten. -/
def upstreamDataNodes (g : StrategyGraph) (root : String) : List NodeSpec :=
  let upstream := reachableFrom ((sortedEdges g).map fun edge => (edge.target, edge.source)) [root]
  ((upstream.filterMap g.nodeIndex).filter fun node => node.category = .DATA).insertionSort
    fun a b => a.id ≤ b.id

/-- What a parameter of some nodes says, trimmed, each text once. -/
def declaredTexts (key : String) (nodes : List NodeSpec) : List String :=
  (nodes.filterMap fun node =>
    ((node.params.get key).text?.map strip).filter fun text => text ≠ "").eraseDups

/-- The one symbol upstream of an action, and the timeframe where there is one too. -/
def marketOf (g : StrategyGraph) (actionId : String) :
    Except PlanBuildError (String × Option String) :=
  let ancestors := upstreamDataNodes g actionId
  match declaredTexts "symbol" ancestors with
  | [] => .error (.actionSymbolUnresolved actionId (ancestors.map NodeSpec.id))
  | [symbol] =>
    match declaredTexts "timeframe" ancestors with
    | [timeframe] => .ok (symbol, some timeframe)
    | _ => .ok (symbol, none)
  | symbols => .error (.ambiguousActionSymbol actionId (sorted symbols))

/-- The ids of a category that the graph itself says. -/
def declaredIds (g : StrategyGraph) (category : BlockCategory) : List String :=
  (g.nodes.filter fun node => node.category = category).map NodeSpec.id

def marketEntry (g : StrategyGraph) (actionId : String) :
    Except PlanBuildError (String × String × Option String) := do
  let market ← marketOf g actionId
  pure (actionId, market)

/-- `resolve_action_markets`: the symbol of every action, and the timeframes there are. -/
def resolveActionMarkets (g : StrategyGraph) :
    Except PlanBuildError (List (String × String) × List (String × String)) := do
  let markets ← (sorted (declaredIds g .ACTION).eraseDups).mapM (marketEntry g)
  pure (markets.map fun market => (market.1, market.2.1),
    markets.filterMap fun market => market.2.2.map fun timeframe => (market.1, timeframe))

/-! ## The plan -/

/-- What a model node needs before it can be trained or can predict. -/
structure ModelRequirement where
  nodeId : String
  blockId : String
  figures : ModelFigures
  params : Params

/-- `ModelRequirement.from_node`. -/
def ModelRequirement.fromNode (node : NodeSpec) (descriptor : Option BlockDescriptor) :
    ModelRequirement :=
  { nodeId := node.id
    blockId := node.blockId
    figures := (descriptor.bind fun descriptor => descriptor.metadata.model).getD
      { modelFamily := "", minFeatureColumns := none, minTrainingRows := none
        sequenceLength := none }
    params := node.params }

/-- `COMPILER_VERSION`. -/
def compilerVersion : String := "2.1.0"

structure CompiledPlan where
  dagHash : String
  schemaVersion : ℤ
  compilerVersion : String
  executionOrder : List String
  executionLevels : List (List String)
  nodeIndex : List (String × NodeSpec)
  inbound : List (String × List (String × List EdgeSpec))
  dataNodes : List String
  actionNodes : List String
  mlNodes : List String
  featurePipeline : List String
  warmupBars : ℤ
  requiredModels : List ModelRequirement
  dependencies : List (String × List String)
  actionSymbols : List (String × String)
  actionTimeframes : List (String × String)

/-- `_as_text_map`: every text trimmed, and none blank. -/
def asTextMap (field : String) (texts : List (String × String)) :
    Except PlanBuildError (List (String × String)) :=
  texts.mapM fun entry =>
    if strip entry.2 = "" then .error (.blankText field entry.1)
    else .ok (entry.1, strip entry.2)

/-- `__post_init__`. -/
def CompiledPlan.checked (plan : CompiledPlan) : Except PlanBuildError CompiledPlan := do
  Except.refuseIf (strip plan.dagHash = "") .missingHash
  let actionSymbols ← asTextMap "action_symbols" plan.actionSymbols
  let actionTimeframes ← asTextMap "action_timeframes" plan.actionTimeframes
  pure
    { plan with
      dagHash := strip plan.dagHash
      warmupBars := max 0 plan.warmupBars
      actionSymbols := actionSymbols
      actionTimeframes := actionTimeframes }

/-- The nodes of an order that the graph itself puts in a category. -/
def idsInOrder (g : StrategyGraph) (order : List String) (category : BlockCategory) : List String :=
  order.filter fun nodeId => (g.nodeIndex nodeId).any fun node => node.category = category

/-- The fields of a plan, as `from_graph` puts them together. -/
def CompiledPlan.assembled (registry : Registry) (g : StrategyGraph) (order : List String)
    (levels : List (List String)) (warmupBars : ℤ)
    (markets : List (String × String) × List (String × String)) : CompiledPlan :=
  let mlNodes := idsInOrder g order .ML_DL
  { dagHash := computeDagHash g
    schemaVersion := g.schemaVersion
    compilerVersion := StrategyDag.compilerVersion
    executionOrder := order
    executionLevels := levels
    nodeIndex := g.nodeIds.eraseDups.filterMap fun id => (g.nodeIndex id).map fun node => (id, node)
    inbound := inboundMap g
    dataNodes := idsInOrder g order .DATA
    actionNodes := idsInOrder g order .ACTION
    mlNodes := mlNodes
    featurePipeline := idsInOrder g order .FEATURE_ENGINEERING
    warmupBars := warmupBars
    requiredModels := (mlNodes.filterMap g.nodeIndex).map fun node =>
      ModelRequirement.fromNode node (registry node.blockId)
    dependencies := predecessorMap g
    actionSymbols := markets.1
    actionTimeframes := markets.2 }

/-- `CompiledPlan.from_graph`. -/
def CompiledPlan.fromGraph (registry : Registry) (g : StrategyGraph) (order : List String)
    (levels : List (List String)) (warmupBars : ℤ) : Except PlanBuildError CompiledPlan := do
  Except.refuseIf (¬ (order.Nodup ∧ ∀ id, id ∈ order ++ g.nodeIds → id ∈ order ∧ id ∈ g.nodeIds))
    .orderMismatch
  let markets ← resolveActionMarkets g
  CompiledPlan.checked (CompiledPlan.assembled registry g order levels warmupBars markets)

/-! ## The compiler -/

inductive CompileError where
  | unreadable
  | invalid (errors : List Issue)
  /-- No order, with the cycle if there is one. -/
  | unordered (cycle : List String)
  | assembly (error : PlanBuildError)
  | orderIncomplete
  | hashMismatch
  | noDataNode
  | noActionNode
  | symbolUnresolved (actionIds : List String)
  | straySymbol (nodeIds : List String)
  | orderBackward
  | levelsIncomplete
  | levelsBackward

/-- `_execution_order`: the report's, if it has one. -/
def orderFor (g : StrategyGraph) (report : ValidationReport) :
    Except CompileError (List String × List (List String)) :=
  let found :=
    match report.executionOrder, report.executionLevels with
    | some order, some levels => some (order, levels)
    | _, _ => Digraph.topologicalOrder g.nodeIds (arcs g)
  match found with
  | some (order, levels) =>
    if order.length ≠ g.nodes.length then .error (.unordered (cycleIn g)) else .ok (order, levels)
  | none => .error (.unordered (cycleIn g))

/-- The last level that holds a node. -/
def depthFrom : ℕ → List (List String) → String → Option ℕ
  | _, [], _ => none
  | index, level :: rest, nodeId =>
    (depthFrom (index + 1) rest nodeId).or (if nodeId ∈ level then some index else none)

/-- Strictly earlier, both being there. -/
def isBefore : Option ℕ → Option ℕ → Bool
  | some i, some j => i < j
  | _, _ => false

/-- `_assert_plan_postconditions`. -/
def assertPlanPostconditions (plan : CompiledPlan) (g : StrategyGraph) : Except CompileError Unit := do
  let ids := g.nodeIds.eraseDups
  let order := plan.executionOrder
  Except.refuseIf ((∃ id ∈ order ++ ids, id ∉ order ∨ id ∉ ids) ∨ order.length ≠ ids.length)
    .orderIncomplete
  Except.refuseIf (plan.dagHash ≠ computeDagHash g) .hashMismatch
  Except.refuseIf (plan.dataNodes = []) .noDataNode
  Except.refuseIf (plan.actionNodes = []) .noActionNode
  let unresolved := plan.actionNodes.filter fun actionId =>
    strip ((plan.actionSymbols.lookup actionId).getD "") = ""
  Except.refuseIf (unresolved ≠ []) (.symbolUnresolved (sorted unresolved))
  let stray := (plan.actionSymbols.map Prod.fst).filter fun id => id ∉ plan.actionNodes
  Except.refuseIf (stray ≠ []) (.straySymbol (sorted stray))
  Except.refuseIf (∃ edge ∈ g.edges, edge.source ∉ order ∨ edge.target ∉ order ∨
    order.idxOf edge.target ≤ order.idxOf edge.source) .orderBackward
  Except.refuseIf (plan.executionLevels.flatten.eraseDups.length ≠ ids.length) .levelsIncomplete
  Except.refuseIf (∃ entry ∈ plan.dependencies, ∃ predecessor ∈ entry.2,
    ¬ isBefore (depthFrom 0 plan.executionLevels predecessor)
      (depthFrom 0 plan.executionLevels entry.1)) .levelsBackward

/-- `compile_plan` of a graph.  A report without an error has a warmup. -/
def compilePlan (registry : Registry) (options : Options) (g : StrategyGraph) :
    Except CompileError CompiledPlan :=
  match validate registry { options with includeMigrationIssues := true } g with
  | .error _ => .error .unreadable
  | .ok report =>
    if report.errors ≠ [] then .error (.invalid report.errors)
    else do
      let canonical := report.canonicalGraph
      let (order, levels) ← orderFor canonical report
      match CompiledPlan.fromGraph registry canonical order levels (report.warmupBars.getD 0) with
      | .error error => .error (.assembly error)
      | .ok plan => do
        assertPlanPostconditions plan canonical
        pure plan

end VyomQuant.StrategyDag
