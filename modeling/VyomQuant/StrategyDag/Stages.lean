/-
  VyomQuant.StrategyDag.Stages

  The stages of the validator (`strategy_dag/validator.py`): each reads a graph and the
  registry, and returns the issues it finds.  No stage stops at the first.

  What a node or a port is comes from the registry's descriptor of its block.  The copies
  that the client sent are read in one place: the category of a node whose block the
  registry does not publish (`categoryOf`).
-/

import VyomQuant.Lib.CycleSearch
import VyomQuant.Lib.TopologicalLevels
import VyomQuant.StrategyDag.Registry

namespace VyomQuant.StrategyDag

open Digraph (converse reachableFrom sorted successors)

/-! ## Issues -/

inductive Severity where
  | error
  | warning
deriving DecidableEq

/-- `_SEVERITY_ALIASES`. -/
def severityAliases : List (String × Severity) :=
  [("error", .error), ("errors", .error), ("fatal", .error), ("critical", .error),
    ("warning", .warning), ("warn", .warning)]

/-- `normalise_severity`: a severity that cannot be read blocks. -/
def normaliseSeverity : Option String → Severity
  | some text => (severityAliases.lookup (strip text).toLower).getD .error
  | none => .error

inductive IssueCode where
  | EMPTY_GRAPH
  | DUPLICATE_NODE_ID
  | DUPLICATE_EDGE_ID
  | UNSUPPORTED_SCHEMA_VERSION
  | NODE_LIMIT_EXCEEDED
  | EDGE_LIMIT_EXCEEDED
  | ML_NODE_LIMIT_EXCEEDED
  | FEATURE_NODE_LIMIT_EXCEEDED
  | FEATURE_COLUMN_LIMIT_EXCEEDED
  | PORT_FAN_IN_LIMIT_EXCEEDED
  | UNRESOLVED_BLOCK
  | PARAM_REQUIRED_MISSING
  | PARAM_OUT_OF_RANGE
  | PARAM_NOT_IN_OPTIONS
  | PARAM_TYPE_INVALID
  | PARAM_UNKNOWN
  | PARAM_CROSS_FIELD_INVALID
  | EDGE_ENDPOINT_UNKNOWN
  | SELF_LOOP
  | UNKNOWN_SOURCE_PORT
  | UNKNOWN_TARGET_PORT
  | TYPE_MISMATCH
  | ILLEGAL_CATEGORY_FLOW
  | TERMINAL_HAS_NO_OUTPUT
  | PORT_ALREADY_CONNECTED
  | CYCLE
  | REQUIRED_INPUT_MISSING
  | ORPHAN_NODE
  | MISSING_REQUIRED_CATEGORY
  | ACTION_UNREACHABLE_FROM_DATA
  | ACTION_INPUT_PROVENANCE
  | MULTI_SYMBOL_ACTION_PATH
  | WARMUP_EXCEEDS_HISTORY
  | LOOKAHEAD_SHIFT
  | LEAKY_FEATURE_INTO_MODEL
  | GLOBAL_STATISTIC_LEAK
  | PORT_CONTRACT_RECOMPUTED
  | CATEGORY_REMAPPED
  | EDGE_TYPE_RECOMPUTED
  | VALIDATION_STATE_RECOMPUTED
  /-- As a migration or a block's own rule names it. -/
  | named (text : Option String)

/-- The code as the report writes it. -/
def IssueCode.value : IssueCode → String
  | .EMPTY_GRAPH => "EMPTY_GRAPH"
  | .DUPLICATE_NODE_ID => "DUPLICATE_NODE_ID"
  | .DUPLICATE_EDGE_ID => "DUPLICATE_EDGE_ID"
  | .UNSUPPORTED_SCHEMA_VERSION => "UNSUPPORTED_SCHEMA_VERSION"
  | .NODE_LIMIT_EXCEEDED => "NODE_LIMIT_EXCEEDED"
  | .EDGE_LIMIT_EXCEEDED => "EDGE_LIMIT_EXCEEDED"
  | .ML_NODE_LIMIT_EXCEEDED => "ML_NODE_LIMIT_EXCEEDED"
  | .FEATURE_NODE_LIMIT_EXCEEDED => "FEATURE_NODE_LIMIT_EXCEEDED"
  | .FEATURE_COLUMN_LIMIT_EXCEEDED => "FEATURE_COLUMN_LIMIT_EXCEEDED"
  | .PORT_FAN_IN_LIMIT_EXCEEDED => "PORT_FAN_IN_LIMIT_EXCEEDED"
  | .UNRESOLVED_BLOCK => "UNRESOLVED_BLOCK"
  | .PARAM_REQUIRED_MISSING => "PARAM_REQUIRED_MISSING"
  | .PARAM_OUT_OF_RANGE => "PARAM_OUT_OF_RANGE"
  | .PARAM_NOT_IN_OPTIONS => "PARAM_NOT_IN_OPTIONS"
  | .PARAM_TYPE_INVALID => "PARAM_TYPE_INVALID"
  | .PARAM_UNKNOWN => "PARAM_UNKNOWN"
  | .PARAM_CROSS_FIELD_INVALID => "PARAM_CROSS_FIELD_INVALID"
  | .EDGE_ENDPOINT_UNKNOWN => "EDGE_ENDPOINT_UNKNOWN"
  | .SELF_LOOP => "SELF_LOOP"
  | .UNKNOWN_SOURCE_PORT => "UNKNOWN_SOURCE_PORT"
  | .UNKNOWN_TARGET_PORT => "UNKNOWN_TARGET_PORT"
  | .TYPE_MISMATCH => "TYPE_MISMATCH"
  | .ILLEGAL_CATEGORY_FLOW => "ILLEGAL_CATEGORY_FLOW"
  | .TERMINAL_HAS_NO_OUTPUT => "TERMINAL_HAS_NO_OUTPUT"
  | .PORT_ALREADY_CONNECTED => "PORT_ALREADY_CONNECTED"
  | .CYCLE => "CYCLE"
  | .REQUIRED_INPUT_MISSING => "REQUIRED_INPUT_MISSING"
  | .ORPHAN_NODE => "ORPHAN_NODE"
  | .MISSING_REQUIRED_CATEGORY => "MISSING_REQUIRED_CATEGORY"
  | .ACTION_UNREACHABLE_FROM_DATA => "ACTION_UNREACHABLE_FROM_DATA"
  | .ACTION_INPUT_PROVENANCE => "ACTION_INPUT_PROVENANCE"
  | .MULTI_SYMBOL_ACTION_PATH => "MULTI_SYMBOL_ACTION_PATH"
  | .WARMUP_EXCEEDS_HISTORY => "WARMUP_EXCEEDS_HISTORY"
  | .LOOKAHEAD_SHIFT => "LOOKAHEAD_SHIFT"
  | .LEAKY_FEATURE_INTO_MODEL => "LEAKY_FEATURE_INTO_MODEL"
  | .GLOBAL_STATISTIC_LEAK => "GLOBAL_STATISTIC_LEAK"
  | .PORT_CONTRACT_RECOMPUTED => "PORT_CONTRACT_RECOMPUTED"
  | .CATEGORY_REMAPPED => "CATEGORY_REMAPPED"
  | .EDGE_TYPE_RECOMPUTED => "EDGE_TYPE_RECOMPUTED"
  | .VALIDATION_STATE_RECOMPUTED => "VALIDATION_STATE_RECOMPUTED"
  | .named text => text.getD ""

structure Issue where
  code : IssueCode
  severity : Severity
  nodeId : Option String := none
  edgeId : Option String := none
  field : Option String := none

theorem eq_of_reported {c : Prop} [Decidable c] {issue found : Issue}
    (h : found ∈ if c then [issue] else []) : found = issue :=
  List.mem_singleton.mp (List.mem_ite_nil_right.mp h).2

/-- `report.add` of an issue that a migration recorded. -/
def RawIssue.migrated (raw : RawIssue) : Issue :=
  { code := .named raw.code, severity := normaliseSeverity raw.severity, nodeId := raw.nodeId
    edgeId := raw.edgeId, field := raw.field }

/-! ## Limits -/

structure GraphLimits where
  maxNodes : ℤ := 200
  maxEdges : ℤ := 400
  maxMlNodes : ℤ := 4
  maxFeatureNodes : ℤ := 40
  maxFeatureColumns : ℤ := 200
  maxFanInPerVariadicPort : ℤ := 16

structure Options where
  availableBars : Option ℤ := none
  featureColumns : Option ℤ := none
  limits : GraphLimits := {}
  includeMigrationIssues : Bool := true

/-! ## What the stages share -/

/-- `descriptors.get(node_id)`: of the last node with this id. -/
def descriptorOf (registry : Registry) (g : StrategyGraph) (nodeId : String) :
    Option BlockDescriptor :=
  (g.nodeIndex nodeId).bind fun node => registry node.blockId

/-- `_category_of`: the descriptor's, and the node's own where there is none. -/
def categoryOf (node : NodeSpec) (descriptor : Option BlockDescriptor) : BlockCategory :=
  match descriptor with
  | some descriptor => descriptor.category
  | none => node.category

def categoryIn (registry : Registry) (g : StrategyGraph) (node : NodeSpec) : BlockCategory :=
  categoryOf node (descriptorOf registry g node.id)

/-- The node ids of a category, in the order of the nodes. -/
def idsIn (registry : Registry) (g : StrategyGraph) (category : BlockCategory) : List String :=
  (g.nodes.filter fun node => categoryIn registry g node = category).map NodeSpec.id

/-- `_build_adjacency(edges, known)`: the edges between known nodes, each pair once. -/
def arcs (g : StrategyGraph) : List (String × String) :=
  ((g.edges.filter fun edge => edge.source ∈ g.nodeIds ∧ edge.target ∈ g.nodeIds).map
    fun edge => (edge.source, edge.target)).eraseDups

/-- `inbound[node_id][port]`. -/
def inbound (g : StrategyGraph) (nodeId port : String) : List EdgeSpec :=
  g.edges.filter fun edge => edge.target = nodeId ∧ edge.targetPort = port

/-- The ports of a node that some edge feeds, first fed first. -/
def fedPorts (g : StrategyGraph) (nodeId : String) : List String :=
  ((g.edges.filter fun edge => edge.target = nodeId).map EdgeSpec.targetPort).eraseDups

def portLabel (nodeId portName : String) : String := nodeId ++ "." ++ portName

/-! ## Stage 1: structure -/

/-- The ids met before, each where it is met again. -/
def repeated : List String → List String → List String
  | _, [] => []
  | seen, id :: rest => if id ∈ seen then id :: repeated seen rest else repeated (id :: seen) rest

/-- Repeated ids and unknown ends, edge by edge. -/
def edgeIssues (known : List String) : List String → List EdgeSpec → List Issue
  | _, [] => []
  | seen, edge :: rest =>
    (if edge.id ∈ seen then
      [{ code := .DUPLICATE_EDGE_ID, severity := .error, edgeId := edge.id, field := "id" }] else []) ++
    (if edge.source ∉ known ∨ edge.target ∉ known then
      [{ code := .EDGE_ENDPOINT_UNKNOWN, severity := .error, edgeId := edge.id }] else []) ++
    edgeIssues known (edge.id :: seen) rest

def overLimit (code : IssueCode) (key : String) (permitted : ℤ) (actual : ℤ) : List Issue :=
  if permitted < actual then [{ code := code, severity := .error, field := key }] else []

/-- The targets of the edges, node and port, each once and sorted. -/
def fanInKeys (g : StrategyGraph) : List (String × String) :=
  (g.edges.map fun edge => (edge.target, edge.targetPort)).eraseDups.insertionSort
    fun a b => [a.1, a.2] ≤ [b.1, b.2]

/-- `_stage_limits`. -/
def limitIssues (registry : Registry) (options : Options) (g : StrategyGraph) : List Issue :=
  let limits := options.limits
  overLimit .NODE_LIMIT_EXCEEDED "max_nodes" limits.maxNodes g.nodes.length ++
  overLimit .EDGE_LIMIT_EXCEEDED "max_edges" limits.maxEdges g.edges.length ++
  overLimit .ML_NODE_LIMIT_EXCEEDED "max_ml_nodes" limits.maxMlNodes
    (idsIn registry g .ML_DL).length ++
  overLimit .FEATURE_NODE_LIMIT_EXCEEDED "max_feature_nodes" limits.maxFeatureNodes
    (idsIn registry g .FEATURE_ENGINEERING).length ++
  (match options.featureColumns with
    | some columns =>
      overLimit .FEATURE_COLUMN_LIMIT_EXCEEDED "max_feature_columns" limits.maxFeatureColumns columns
    | none => []) ++
  ((fanInKeys g).filter fun key =>
      limits.maxFanInPerVariadicPort < (inbound g key.1 key.2).length).map fun key =>
    { code := .PORT_FAN_IN_LIMIT_EXCEEDED, severity := .error, nodeId := key.1
      field := "max_fan_in_per_variadic_port" }

/-- `_stage_structural`. -/
def structuralIssues (registry : Registry) (options : Options) (g : StrategyGraph) : List Issue :=
  (if g.schemaVersion ∉ supportedSchemaVersions then
    [{ code := .UNSUPPORTED_SCHEMA_VERSION, severity := .error, field := "schema_version" }]
    else []) ++
  (if g.nodes = [] then [{ code := .EMPTY_GRAPH, severity := .error }] else []) ++
  ((repeated [] g.nodeIds).map fun id : String =>
    { code := .DUPLICATE_NODE_ID, severity := .error, nodeId := id, field := "id" }) ++
  edgeIssues g.nodeIds [] g.edges ++
  limitIssues registry options g

/-! ## Stages 2 and 3: blocks and parameters -/

def unresolvedIssues (registry : Registry) (g : StrategyGraph) : List Issue :=
  (g.nodes.filter fun node => (descriptorOf registry g node.id).isNone).map fun node =>
    { code := .UNRESOLVED_BLOCK, severity := .error, nodeId := node.id, field := "block_id" }

/-- `_classify_param_message`. -/
def ParamProblem.code : ParamProblem → IssueCode
  | .requiredMissing => .PARAM_REQUIRED_MISSING
  | .notInOptions => .PARAM_NOT_IN_OPTIONS
  | .tooSmall => .PARAM_OUT_OF_RANGE
  | .tooLarge => .PARAM_OUT_OF_RANGE
  | .notWhole => .PARAM_TYPE_INVALID
  | .notANumber => .PARAM_TYPE_INVALID
  | .notABoolean => .PARAM_TYPE_INVALID

/-- A cross-field issue, under its own code or the common one. -/
def RawIssue.crossField (raw : RawIssue) (nodeId : String) : Issue :=
  { code := if raw.code = none ∨ raw.code = some "" then .PARAM_CROSS_FIELD_INVALID
      else .named raw.code
    severity := normaliseSeverity raw.severity, nodeId := nodeId, field := raw.field }

/-- `_param_issues`. -/
def paramIssues (descriptor : BlockDescriptor) (nodeId : String) (params : Params) :
    Except Unreadable (List Issue) := do
  let declared := descriptor.params.map ParamSpec.key
  let problems ← descriptor.params.mapM fun param => do
    let problems ← paramProblems param (params.get param.key)
    pure (problems.map fun problem =>
      ({ code := problem.code, severity := .error, nodeId := nodeId, field := param.key } : Issue))
  let unknown := (sorted (params.map Prod.fst).eraseDups).filter fun key => key ∉ declared
  let crossField ← descriptor.crossFieldIssues params
  pure (problems.flatten ++
    (unknown.map fun key : String =>
      { code := .PARAM_UNKNOWN, severity := .warning, nodeId := nodeId, field := key }) ++
    crossField.map fun raw => raw.crossField nodeId)

/-- The parameters of an unresolved block are unknown, never guessed. -/
def nodeParamIssues (registry : Registry) (g : StrategyGraph) (node : NodeSpec) :
    Except Unreadable (List Issue) :=
  match descriptorOf registry g node.id with
  | some descriptor => paramIssues descriptor node.id node.params
  | none => pure []

def paramStage (registry : Registry) (g : StrategyGraph) : Except Unreadable (List Issue) := do
  let issues ← g.nodes.mapM (nodeParamIssues registry g)
  pure issues.flatten

/-! ## Stages 4 and 5: ports -/

/-- The ends and their ports, as `is_edge_legal` finds them. -/
def portsIssue (g : StrategyGraph) (edge : EdgeSpec) (src dst : String)
    (srcDescriptor dstDescriptor : Option BlockDescriptor) : Option Issue :=
  match srcDescriptor.bind fun descriptor => descriptor.outputPort edge.sourcePort with
  | none => some { code := .UNKNOWN_SOURCE_PORT, severity := .error, nodeId := src
                   edgeId := edge.id, field := portLabel src edge.sourcePort }
  | some outPort =>
    match dstDescriptor.bind fun descriptor => descriptor.inputPort edge.targetPort with
    | none => some { code := .UNKNOWN_TARGET_PORT, severity := .error, nodeId := dst
                     edgeId := edge.id, field := portLabel dst edge.targetPort }
    | some inPort =>
      if !compatible outPort.type inPort.type then
        some { code := .TYPE_MISMATCH, severity := .error, nodeId := dst, edgeId := edge.id
               field := portLabel dst inPort.name }
      else if !inPort.variadic &&
          (inbound g dst edge.targetPort).any fun candidate => candidate.id ≠ edge.id then
        some { code := .PORT_ALREADY_CONNECTED, severity := .error, nodeId := dst
               edgeId := edge.id, field := portLabel dst edge.targetPort }
      else none

/-- `is_edge_legal` with `check_cycle=False`. -/
def isEdgeLegal (registry : Registry) (g : StrategyGraph) (edge : EdgeSpec) : Option Issue :=
  match g.node edge.source, g.node edge.target with
  | some src, some dst =>
    if src.id = dst.id then
      some { code := .SELF_LOOP, severity := .error, nodeId := src.id, edgeId := edge.id }
    else
      let srcDescriptor := descriptorOf registry g src.id
      let dstDescriptor := descriptorOf registry g dst.id
      if srcDescriptor.any BlockDescriptor.isTerminal then
        some { code := .TERMINAL_HAS_NO_OUTPUT, severity := .error, nodeId := src.id
               edgeId := edge.id }
      else if srcDescriptor.any fun descriptor =>
          categoryOf dst dstDescriptor ∉ descriptor.allowedSuccessorCategories then
        some { code := .ILLEGAL_CATEGORY_FLOW, severity := .error, nodeId := dst.id
               edgeId := edge.id, field := portLabel dst.id edge.targetPort }
      else portsIssue g edge src.id dst.id srcDescriptor dstDescriptor
  | _, _ => some { code := .EDGE_ENDPOINT_UNKNOWN, severity := .error, edgeId := edge.id }

/-- An edge with an unknown end is stage 1's. -/
def edgeStage (registry : Registry) (g : StrategyGraph) : List Issue :=
  (g.edges.filter fun edge => edge.source ∈ g.nodeIds ∧ edge.target ∈ g.nodeIds).filterMap
    (isEdgeLegal registry g)

def requiredInputIssues (g : StrategyGraph) (descriptor : BlockDescriptor) (nodeId : String) :
    List Issue :=
  (descriptor.inputs.filter fun port => port.required && (inbound g nodeId port.name).isEmpty).map
    fun port => { code := .REQUIRED_INPUT_MISSING, severity := .error, nodeId := nodeId
                  field := port.name }

def requiredInputStage (registry : Registry) (g : StrategyGraph) : List Issue :=
  g.nodes.flatMap fun node =>
    match descriptorOf registry g node.id with
    | some descriptor => requiredInputIssues g descriptor node.id
    | none => []

/-! ## Stages 6 to 8: the shape of the graph -/

/-- `find_cycle(graph.nodes, graph.edges)`. -/
def cycleIn (g : StrategyGraph) : List String := Digraph.findCycle g.nodeIds (arcs g)

/-- The last hop back to the first node. -/
def closingEdge (g : StrategyGraph) (cycle : List String) : Option EdgeSpec :=
  match cycle.reverse with
  | target :: source :: _ =>
    g.edges.find? fun edge => edge.source = source ∧ edge.target = target
  | _ => none

def cycleStage (g : StrategyGraph) : List Issue :=
  match cycleIn g with
  | [] => []
  | first :: rest =>
    [{ code := .CYCLE, severity := .error, nodeId := first
       edgeId := (closingEdge g (first :: rest)).map EdgeSpec.id }]

/-- `topological_order`, on a graph without a cycle. -/
def executionOrder (g : StrategyGraph) : Option (List String × List (List String)) :=
  if cycleIn g = [] then Digraph.topologicalOrder g.nodeIds (arcs g) else none

def downstreamOfData (registry : Registry) (g : StrategyGraph) : List String :=
  reachableFrom (arcs g) (idsIn registry g .DATA)

def upstreamOf (g : StrategyGraph) (roots : List String) : List String :=
  reachableFrom (converse (arcs g)) roots

def orphanStage (registry : Registry) (g : StrategyGraph) : List Issue :=
  (g.nodeIds.filter fun id => id ∉ downstreamOfData registry g ∧
      id ∉ upstreamOf g (idsIn registry g .ACTION)).map fun id : String =>
    { code := .ORPHAN_NODE, severity := .error, nodeId := id }

def executionPathStage (registry : Registry) (g : StrategyGraph) : List Issue :=
  let dataIds := idsIn registry g .DATA
  let actionIds := idsIn registry g .ACTION
  ([dataIds, actionIds].filter List.isEmpty).map (fun _ =>
    { code := .MISSING_REQUIRED_CATEGORY, severity := .error, field := "category" }) ++
  if dataIds ≠ [] ∧ actionIds ≠ [] ∧ ∀ id ∈ actionIds, id ∉ downstreamOfData registry g then
    [{ code := .ACTION_UNREACHABLE_FROM_DATA, severity := .error }] else []

/-! ## Stage 9: what may feed an action -/

/-- `TRADE_SIGNAL_TYPES`. -/
def tradeSignalTypes : List PortType := [.SIGNAL, .TRADE_INTENT]

/-- `PORTFOLIO_ALLOCATION_FLAG`. -/
def portfolioAllocationFlag : String := "portfolio_allocation"

def decides (source : NodeSpec) (descriptor : Option BlockDescriptor) (port : String) : Bool :=
  categoryOf source descriptor == .LOGIC ||
    (descriptor.bind fun descriptor => descriptor.outputPort port).any fun outPort =>
      outPort.type ∈ tradeSignalTypes

/-- The edges into an action that carry no decision. -/
def provenanceIssues (registry : Registry) (g : StrategyGraph) (actionId : String) : List Issue :=
  ((fedPorts g actionId).flatMap (inbound g actionId)).filterMap fun edge =>
    match g.nodeIndex edge.source with
    | none => none
    | some source =>
      if decides source (descriptorOf registry g source.id) edge.sourcePort then none
      else some { code := .ACTION_INPUT_PROVENANCE, severity := .error, nodeId := source.id
                  edgeId := edge.id, field := edge.targetPort }

/-- The symbol a DATA node names, if any. -/
def dataSymbol (registry : Registry) (g : StrategyGraph) (nodeId : String) : Option String :=
  match g.nodeIndex nodeId with
  | none => none
  | some node =>
    if categoryOf node (descriptorOf registry g nodeId) = .DATA then
      (node.params.get "symbol").text?.filter fun symbol => symbol ≠ ""
    else none

def isAllocator (registry : Registry) (g : StrategyGraph) (nodeId : String) : Bool :=
  (g.nodeIndex nodeId).isSome && (descriptorOf registry g nodeId).any fun descriptor =>
    portfolioAllocationFlag ∈ descriptor.capabilityFlags

/-- One action path trades one symbol, unless something on it allocates. -/
def multiSymbolIssues (registry : Registry) (g : StrategyGraph) (actionId : String) : List Issue :=
  let closure := upstreamOf g [actionId]
  let symbols := (closure.filterMap (dataSymbol registry g)).eraseDups
  if 1 < symbols.length && !closure.any (isAllocator registry g) then
    [{ code := .MULTI_SYMBOL_ACTION_PATH, severity := .error, nodeId := actionId
       field := "symbol" }]
  else []

/-- `_stage_action_provenance`. -/
def provenanceStage (registry : Registry) (g : StrategyGraph) : List Issue :=
  (idsIn registry g .ACTION).flatMap fun actionId =>
    provenanceIssues registry g actionId ++ multiSymbolIssues registry g actionId

end VyomQuant.StrategyDag
