/-
  VyomQuant.StrategyDag.Migration

  Loading a stored strategy (`load_graph` in `strategy_dag/schema.py`).  A row of schema
  version 2 is parsed; one of version 1 is migrated, which takes the ports of its nodes from
  the registry and finds ports for its edges.

  Edges are taken in stored order.  One that names its target port gets it, whether or not it
  is taken already; one that names none gets the first port that no edge before it took.
-/

import VyomQuant.Lib.FirstFit
import VyomQuant.StrategyDag.Document
import VyomQuant.StrategyDag.Registry

namespace VyomQuant.StrategyDag

/-! ## The registry, as a migration sees it -/

/-- What is read of a descriptor. -/
structure ResolvedBlock where
  /-- `block_id`, where it is a text that is not empty. -/
  blockId : Option String
  category : Option BlockCategory
  inputs : List Port
  outputs : List Port

inductive Looked where
  | raised
  | unknown
  | found (block : ResolvedBlock)

abbrev Lookup := String → Looked

/-- `_lookup_descriptor`. -/
def lookupDescriptor (rules : TextRules) (lookup : Option Lookup) (blockId : String) :
    Option ResolvedBlock × String :=
  match lookup with
  | none => (none, blockId)
  | some lookup =>
    match lookup blockId with
    | .raised => (none, blockId)
    | .found block => (some block, block.blockId.getD blockId)
    | .unknown =>
      let candidate := rules.lower (strip blockId)
      match lookup candidate with
      | .found block => (some block, block.blockId.getD candidate)
      | _ => (none, blockId)

/-! ## Issues -/

/-- `make_issue`. -/
structure MigrationIssue where
  code : String
  severity : String
  message : String
  nodeId : Option String := none
  edgeId : Option String := none
  field : Option String
  expected : Value
  actual : Value
  fixHint : String

def severityError : String := "error"

def severityWarning : String := "warning"

/-- A text, or `None`. -/
def Value.optText : Option String → Value
  | some text => .text text
  | none => .scalar .none

def MigrationIssue.toDict (issue : MigrationIssue) : Value :=
  .dict [("code", .text issue.code), ("severity", .text issue.severity),
    ("node_id", .optText issue.nodeId), ("edge_id", .optText issue.edgeId),
    ("field", .optText issue.field), ("message", .text issue.message),
    ("expected", issue.expected), ("actual", issue.actual), ("fix_hint", .text issue.fixHint)]

/-! ## The vocabulary of version 1 -/

/-- `LEGACY_NODE_TYPE_MAP`, in canonical categories. -/
def legacyNodeTypeMap : List (String × BlockCategory) :=
  [("input", .DATA), ("market_data", .DATA), ("data", .DATA), ("indicator", .INDICATOR),
    ("math", .MATH), ("logic", .LOGIC), ("feature", .FEATURE_ENGINEERING),
    ("feature_engineering", .FEATURE_ENGINEERING), ("ml", .ML_DL), ("dl", .ML_DL),
    ("ml_model", .ML_DL), ("ml_dl", .ML_DL), ("action", .ACTION)]

/-- `NodeType(text).canonical`, in canonical categories. -/
def nodeTypes : List (String × BlockCategory) :=
  [("data", .DATA), ("indicator", .INDICATOR), ("math", .MATH), ("logic", .LOGIC),
    ("feature_engineering", .FEATURE_ENGINEERING), ("ml_dl", .ML_DL), ("action", .ACTION),
    ("input", .DATA), ("ml", .ML_DL)]

/-- `NodeType._missing_`. -/
def missingNodeType (rules : TextRules) (text : String) : Option BlockCategory :=
  let key := rules.lower (strip text)
  nodeTypes.lookup key <|> legacyNodeTypeMap.lookup key

/-- `map_legacy_type`. -/
def mapLegacyType (rules : TextRules) : Value → Option BlockCategory
  | .scalar .none => none
  | rawType =>
    let text := rules.lower (strip (rules.str rawType))
    if text = "" then none
    else legacyNodeTypeMap.lookup text <|> nodeTypes.lookup text <|> missingNodeType rules text

/-- `_V1_STRUCTURAL_KEYS`. -/
def v1StructuralKeys : List String :=
  ["id", "type", "node_type", "params", "inputs", "outputs", "ui", "block_id", "category",
    "indicator", "action", "operator"]

/-- `_V1_UI_KEYS`. -/
def v1UiKeys : List String :=
  ["position", "x", "y", "label", "collapsed", "width", "height", "color", "style", "note",
    "selected", "dragging"]

/-- `_V1_SOURCE_PORT_KEYS`. -/
def v1SourcePortKeys : List String := ["source_port", "sourcePort", "sourceHandle"]

/-- `_V1_TARGET_PORT_KEYS`. -/
def v1TargetPortKeys : List String := ["target_port", "targetPort", "targetHandle"]

/-! ## Nodes -/

/-- `redact_forbidden_value`. -/
def redactForbiddenValue (rules : TextRules) (key : String) (value : Value) : Value :=
  if rules.lower (strip key) ∈ quotableForbiddenKeys then value else .text "<redacted>"

/-- The warning for a dropped entry of a node. -/
def droppedField (rules : TextRules) (nodeId carried field key : String) (value : Value) :
    MigrationIssue :=
  { code := "EXCHANGE_FIELD_DROPPED"
    severity := severityWarning
    message := "Node '" ++ nodeId ++ "' carried " ++ carried ++ "; exchange identity and " ++
      "credential material are bound at deployment time and are not part of a strategy."
    nodeId := some nodeId
    field := some field
    expected := .scalar .none
    actual := redactForbiddenValue rules key value
    fixHint := "Select the exchange account when deploying this version; the graph itself " ++
      "stays exchange-agnostic." }

/-- The version 1 columns that are neither structure nor presentation. -/
def isColumn (key : String) : Bool := key ∉ v1StructuralKeys && key ∉ v1UiKeys

/-- `_legacy_scalar_fields`: the columns that are parameters. -/
def legacyScalarFields (rules : TextRules) (node : Params) : Params :=
  node.foldl
    (fun merged member =>
      if isColumn member.1 && !isForbiddenParam rules member.1 && !isNone member.2 then
        BlockDescriptor.putParam member.1 member.2 merged
      else merged)
    []

/-- What `_legacy_scalar_fields` reports. -/
def legacyScalarIssues (rules : TextRules) (nodeId : String) (node : Params) : List MigrationIssue :=
  (node.filter fun member => isColumn member.1 && isForbiddenParam rules member.1).map fun member =>
    droppedField rules nodeId ("'" ++ member.1 ++ "'") member.1 member.1 member.2

/-- The declared parameters over the columns. -/
def mergedParams (rules : TextRules) (columns declared : Params) : Params :=
  (stripForbiddenParams rules declared).foldl
    (fun merged member => BlockDescriptor.putParam member.1 member.2 merged) columns

def declaredParamIssues (rules : TextRules) (nodeId : String) (declared : Params) :
    List MigrationIssue :=
  (declared.filter fun member => isForbiddenParam rules member.1).map fun member =>
    droppedField rules nodeId ("params['" ++ member.1 ++ "']") ("params." ++ member.1) member.1
      member.2

def blockColumn (rules : TextRules) (node : Params) (key : String) : Option String :=
  match node.get key with
  | .scalar .none => none
  | value => some (strip (rules.str value)) |>.filter (· ≠ "")

/-- `_legacy_block_id`. -/
def legacyBlockId (rules : TextRules) (node : Params) (category : Option BlockCategory) :
    Option String :=
  ["indicator", "model_id", "action", "operator"].findSome? (blockColumn rules node) <|>
    if category = some .DATA then some "ohlcv_feed" else none

/-- `resolved.setdefault(key, node[key])`, where the node has the key. -/
def setDefault (node resolved : Params) (key : String) : Params :=
  if isNone (node.get key) || (resolved.get? key).isSome then resolved
  else resolved ++ [(key, node.get key)]

/-- `_legacy_ui_fields`. -/
def legacyUiFields (node : Params) : Params :=
  v1UiKeys.foldl (setDefault node) ((node.get "ui").dict?.getD [])

def unidentifiedBlock (nodeId : String) : MigrationIssue :=
  { code := "UNIDENTIFIED_BLOCK"
    severity := severityError
    message := "Node '" ++ nodeId ++ "' names no block: it carries none of 'indicator', " ++
      "'model_id', 'action' or 'operator', and its category is not DATA."
    nodeId := some nodeId
    field := some "block_id"
    expected := .text "one of: indicator, model_id, action, operator"
    actual := .scalar .none
    fixHint := "Open this node in the builder and pick a block from the palette; the stored " ++
      "version cannot say which block was intended." }

def unresolvedBlock (nodeId blockId : String) : MigrationIssue :=
  { code := "UNRESOLVED_BLOCK"
    severity := severityError
    message := "Node '" ++ nodeId ++ "' references block '" ++ blockId ++
      "', which the block registry does not publish."
    nodeId := some nodeId
    field := some "block_id"
    expected := .text "a block_id published by the block registry"
    actual := .text blockId
    fixHint := "Replace node '" ++ nodeId ++ "' with a block from the current palette, or " ++
      "restore the build that published '" ++ blockId ++ "'." }

def categoryRemapped (rules : TextRules) (nodeId blockId : String) (rawType : Value)
    (stored published : BlockCategory) : MigrationIssue :=
  { code := "CATEGORY_REMAPPED"
    severity := severityWarning
    message := "Node '" ++ nodeId ++ "' was stored as '" ++ rules.str rawType ++ "' but block '" ++
      blockId ++ "' is a " ++ published.value ++ " block; the registry decides the category."
    nodeId := some nodeId
    field := some "category"
    expected := .text published.value
    actual := .text stored.value
    fixHint := "No action needed; the category was corrected on load." }

def unmappedNodeType (rules : TextRules) (nodeId : String) (rawType : Value) : MigrationIssue :=
  { code := "UNMAPPED_NODE_TYPE"
    severity := severityError
    message := "Node '" ++ nodeId ++ "' declares type " ++ rules.repr rawType ++
      ", which is outside the schema version 1 vocabulary, and its block resolved no category."
    nodeId := some nodeId
    field := some "type"
    expected := .text "one of the schema version 1 node types"
    actual := rawType
    fixHint := "Replace node '" ++ nodeId ++ "' with a block from the current palette; its " ++
      "category cannot be derived and must not be guessed." }

structure MigratedNode where
  node : NodeSpec
  issues : List MigrationIssue
  unresolved : Bool

/-- The block of a node, and the issue where there is none. -/
structure BlockReading where
  blockId : String
  descriptor : Option ResolvedBlock
  issues : List MigrationIssue
  unresolved : Bool

def readBlock (rules : TextRules) (lookup : Option Lookup) (nodeId : String) :
    Option String → BlockReading
  | none =>
    { blockId := "", descriptor := none, issues := [unidentifiedBlock nodeId], unresolved := false }
  | some named =>
    match lookupDescriptor rules lookup named with
    | (some block, blockId) =>
      { blockId := blockId, descriptor := some block, issues := [], unresolved := false }
    | (none, blockId) =>
      { blockId := blockId, descriptor := none
        issues := if blockId = "" then [] else [unresolvedBlock nodeId blockId]
        unresolved := blockId ≠ "" }

/-- The category of a node, and what is reported of it. -/
def readCategory (rules : TextRules) (nodeId blockId : String) (rawType : Value)
    (stored published : Option BlockCategory) : BlockCategory × List MigrationIssue :=
  match stored, published with
  | some stored, some published =>
    (published,
      if published ≠ stored then [categoryRemapped rules nodeId blockId rawType stored published]
      else [])
  | none, some published => (published, [])
  | some stored, none => (stored, [])
  -- inert in both directions: it sources no market data and emits no intent
  | none, none => (.MATH, [unmappedNodeType rules nodeId rawType])

/-- The parameters that a version 1 node declares. -/
def declaredParams (nodeId : String) : Value → Except ParseError Params
  | .scalar .none => return []
  | value => Except.ofOption (.graph ("Node '" ++ nodeId ++ "' field 'params' must be an object"))
      value.dict?

/-- `raw_node.get("type", raw_node.get("node_type"))`. -/
def storedType (node : Params) : Value := (node.get? "type").getD (node.get "node_type")

/-- What `_migrate_node` makes of a node that it could read. -/
def assembleNode (rules : TextRules) (lookup : Option Lookup) (node : Params) (nodeId : String)
    (declared : Params) : MigratedNode :=
  let legacyCategory := mapLegacyType rules (storedType node)
  let block := readBlock rules lookup nodeId (legacyBlockId rules node legacyCategory)
  let category := readCategory rules nodeId block.blockId (storedType node) legacyCategory
    (block.descriptor.bind ResolvedBlock.category)
  { node := {
      id := nodeId
      blockId := block.blockId
      category := category.1
      params := mergedParams rules (legacyScalarFields rules node) declared
      inputs := (block.descriptor.map ResolvedBlock.inputs).getD []
      outputs := (block.descriptor.map ResolvedBlock.outputs).getD []
      ui := legacyUiFields node }
    issues := legacyScalarIssues rules nodeId node ++ declaredParamIssues rules nodeId declared ++
      block.issues ++ category.2
    unresolved := block.unresolved }

/-- `_migrate_node`. -/
def migrateNode (rules : TextRules) (lookup : Option Lookup) (rawNode : Value × ℕ) :
    Except ParseError MigratedNode := do
  let node ← Except.ofOption
    (.graph ("Version 1 node at position " ++ toString rawNode.2 ++ " must be an object, got " ++
      rawNode.1.typeName))
    rawNode.1.dict?
  let nodeId ← Except.ofOption
    (.graph ("Version 1 node at position " ++ toString rawNode.2 ++
      " is missing a non-empty 'id'; node identity cannot be reconstructed and must not be invented"))
    (node.get "id").nonEmpty?
  let declared ← declaredParams nodeId (node.get "params")
  return assembleNode rules lookup node nodeId declared

/-! ## Edges -/

structure StoredEdge where
  data : Params
  id : String
  source : String
  target : String
  /-- The ports that it names. -/
  sourcePort : Option String
  targetPort : Option String

/-- `_explicit_port`. -/
def explicitPort (data : Params) (keys : List String) : Option String :=
  keys.findSome? fun key => (data.get key).nonEmpty?

/-- `_migrated_edge_id`. -/
def migratedEdgeId (source target : String) (index : ℕ) : String :=
  "e_mig_" ++ String.ofList
    ((Sha256.hex (Sha256.sha256 (toString index ++ "|" ++ source ++ "|" ++ target).toUTF8.toList)).take 16)

/-- What `_migrate_edges` reads of an edge before it looks at the graph. -/
def readStoredEdge (rawEdge : Value × ℕ) : Except ParseError StoredEdge := do
  let data ← Except.ofOption
    (.graph ("Version 1 edge at position " ++ toString rawEdge.2 ++ " must be an object, got " ++
      rawEdge.1.typeName))
    rawEdge.1.dict?
  let endpoint (key : String) : Except ParseError String := Except.ofOption
    (.graph ("Version 1 edge at position " ++ toString rawEdge.2 ++
      " is missing a non-empty 'source' or 'target'"))
    (data.get key).nonEmpty?
  let source ← endpoint "source"
  let target ← endpoint "target"
  return {
    data := data
    id := (data.get "id").nonEmpty?.getD (migratedEdgeId source target rawEdge.2)
    source := source
    target := target
    sourcePort := explicitPort data v1SourcePortKeys
    targetPort := explicitPort data v1TargetPortKeys }

def portNames (ports : List Port) : String := ", ".intercalate (ports.map Port.name)

/-- `_sole_output_port`, or why there is none. -/
def soleOutputPort (node : NodeSpec) : Except String String :=
  match node.outputs with
  | [] => .error ("node '" ++ node.id ++ "' has no resolved output port")
  | [port] => .ok port.name
  | ports => .error ("node '" ++ node.id ++ "' publishes several output ports (" ++
      portNames ports ++ ") and the stored edge names none")

/-- `_next_free_input_port`, or why there is none.  `used` counts the edges at a port. -/
def nextFreeInputPort (node : NodeSpec) (used : String → ℕ) : Except String String :=
  if node.inputs.isEmpty then .error ("node '" ++ node.id ++ "' has no resolved input port")
  else
    match node.inputs.find? fun port => port.variadic || used port.name = 0 with
    | some port => .ok port.name
    | none => .error ("every input port of node '" ++ node.id ++ "' is already connected (" ++
        portNames node.inputs ++ ") and the stored edge names none")

/-- `node.port(name)`. -/
def portNamed (ports : List Port) (name : String) : Option Port :=
  ports.find? fun port => port.name = name

/-- What becomes of a stored edge. -/
inductive EdgeOutcome where
  | migrated (edge : EdgeSpec)
  | unmigrated (data : Params) (issue : MigrationIssue)

def endpointsOf (stored : StoredEdge) : Value :=
  .dict [("source", .text stored.source), ("target", .text stored.target)]

def unresolvedEndpoint (stored : StoredEdge) (missing : List String) : MigrationIssue :=
  { code := "UNRESOLVED_EDGE_ENDPOINT"
    severity := severityError
    message := "Edge '" ++ stored.id ++ "' references a node that is not in the graph (" ++
      ", ".intercalate missing ++ ")."
    edgeId := some stored.id
    field := missing.head?
    expected := .text "a node id present in the graph"
    actual := endpointsOf stored
    fixHint := "Redraw this connection between two existing blocks." }

def unresolvedPorts (stored : StoredEdge) (reasons : List String) (field : String) : MigrationIssue :=
  { code := "UNRESOLVED_EDGE_PORTS"
    severity := severityError
    message := "Edge '" ++ stored.id ++ "' from '" ++ stored.source ++ "' to '" ++ stored.target ++
      "' could not be port-addressed: " ++ "; ".intercalate reasons ++ "."
    edgeId := some stored.id
    field := some field
    expected := .text "a port published by the block registry for this node"
    actual := endpointsOf stored
    fixHint := "Redraw this connection in the builder, choosing the ports explicitly; the " ++
      "stored version does not record them." }

/-- A port that the edge names, or one found for it. -/
def namedOr (named : Option String) (found : Except String String) : Except String String :=
  match named with
  | some port => .ok port
  | none => found

/-- One step of `_migrate_edges`: the edge between two nodes that are there. -/
def portAddress (source target : NodeSpec) (used : String → ℕ) (stored : StoredEdge) : EdgeOutcome :=
  match namedOr stored.sourcePort (soleOutputPort source),
      namedOr stored.targetPort (nextFreeInputPort target used) with
  | .ok sourcePort, .ok targetPort => .migrated {
      id := stored.id
      source := stored.source
      sourcePort := sourcePort
      target := stored.target
      targetPort := targetPort
      type := (portNamed source.outputs sourcePort).map Port.type }
  | .error reason, .ok _ => .unmigrated stored.data (unresolvedPorts stored [reason] "source_port")
  | .ok _, .error reason => .unmigrated stored.data (unresolvedPorts stored [reason] "target_port")
  | .error reason, .error reason' =>
    .unmigrated stored.data (unresolvedPorts stored [reason, reason'] "source_port")

/-- How many edges a port of a node has. -/
abbrev Occupied := String → String → ℕ

def migrateEdge (nodesById : String → Option NodeSpec) (occupied : Occupied) (stored : StoredEdge) :
    EdgeOutcome :=
  match nodesById stored.source, nodesById stored.target with
  | some source, some target => portAddress source target (occupied stored.target) stored
  | none, some _ => .unmigrated stored.data (unresolvedEndpoint stored ["source"])
  | some _, none => .unmigrated stored.data (unresolvedEndpoint stored ["target"])
  | none, none => .unmigrated stored.data (unresolvedEndpoint stored ["source", "target"])

def Occupied.add (occupied : Occupied) : EdgeOutcome → Occupied
  | .migrated edge => fun target port =>
    if target = edge.target ∧ port = edge.targetPort then occupied target port + 1
    else occupied target port
  | .unmigrated _ _ => occupied

/-- `_migrate_edges`, on edges that could be read: where one cannot, nothing is migrated. -/
def migrateEdges (nodesById : String → Option NodeSpec) : Occupied → List StoredEdge → List EdgeOutcome
  | _, [] => []
  | occupied, stored :: rest =>
    let outcome := migrateEdge nodesById occupied stored
    outcome :: migrateEdges nodesById (occupied.add outcome) rest

def EdgeOutcome.edge? : EdgeOutcome → Option EdgeSpec
  | .migrated edge => some edge
  | .unmigrated _ _ => none

def EdgeOutcome.unmigrated? : EdgeOutcome → Option Params
  | .migrated _ => none
  | .unmigrated data _ => some data

def EdgeOutcome.issue? : EdgeOutcome → Option MigrationIssue
  | .migrated _ => none
  | .unmigrated _ issue => some issue

/-! ## The graph -/

/-- `normalize_schema_version`. -/
def normalizeSchemaVersion : Value → Except ParseError ℤ
  | .scalar .none => return 1
  | .scalar (.int n) =>
    if n ∈ supportedSchemaVersions then return n
    else .error (.unsupportedSchemaVersion (.scalar (.int n)))
  | value => .error (.unsupportedSchemaVersion value)

/-- `_raw_node_list` and `_raw_edge_list`: the first of two keys with a value. -/
def rawList (raw : Params) (key legacyKey : String) : Except ParseError (List Value) :=
  let read (key : String) : Except ParseError (List Value) :=
    Except.ofOption (.graph ("Graph field '" ++ key ++ "' must be a list")) (raw.get key).list?
  if !isNone (raw.get key) then read key
  else if !isNone (raw.get legacyKey) then read legacyKey
  else return []

def envelopeIssues (raw : Params) : List MigrationIssue :=
  (forbiddenEnvelopeFields.filter fun name => (raw.get? name).isSome).map fun name =>
    { code := "EXCHANGE_FIELD_DROPPED"
      severity := severityWarning
      message := "The stored graph carried '" ++ name ++ "' in its envelope; exchange identity " ++
        "is bound at deployment time and is not part of a strategy."
      field := some name
      expected := .scalar .none
      actual := raw.get name
      fixHint := "Select the exchange account when deploying this version; the graph itself " ++
        "stays exchange-agnostic." }

def registryUnavailable : MigrationIssue :=
  { code := "REGISTRY_UNAVAILABLE"
    severity := severityError
    message := "No block registry was available, so no block could be resolved and no port " ++
      "contract could be recovered."
    field := none
    expected := .text "an assembled block registry"
    actual := .scalar .none
    fixHint := "Reload this strategy once the block registry is serving; the stored version " ++
      "is untouched." }

/-- `metadata["migration"]`. -/
def migrationReport (registryAvailable : Bool) (unresolved : List String) (unmigrated : List Params)
    (issues : List MigrationIssue) : Value :=
  .dict [("from_schema_version", .scalar (.int 1)),
    ("to_schema_version", .scalar (.int currentSchemaVersion)),
    ("read_only", .scalar (.bool true)),
    ("registry_available", .scalar (.bool registryAvailable)),
    ("unresolved_nodes", .list (unresolved.map Value.text)),
    ("unmigrated_edges", .list (unmigrated.map Value.dict)),
    ("issues", .list (issues.map MigrationIssue.toDict))]

def firstWithId (nodes : List NodeSpec) (nodeId : String) : Option NodeSpec :=
  nodes.find? fun node => node.id = nodeId

/-- What a payload of version 1 is read as, before its edges are placed. -/
structure Readings where
  nodes : List MigratedNode
  edges : List StoredEdge

def Readings.nodesById (readings : Readings) : String → Option NodeSpec :=
  firstWithId (readings.nodes.map MigratedNode.node)

def Readings.outcomes (readings : Readings) : List EdgeOutcome :=
  migrateEdges readings.nodesById (fun _ _ => 0) readings.edges

def readV1 (rules : TextRules) (lookup : Option Lookup) (raw : Params) : Except ParseError Readings := do
  let declared ← normalizeSchemaVersion (raw.get "schema_version")
  Except.refuseIf (declared ≠ 1)
    (.graph ("migrate_v1_to_v2 was handed a schema_version " ++ toString declared ++
      " payload; use load_graph() to route a stored row, or parse_v2() for a version 2 graph"))
  let rawNodes ← rawList raw "nodes" "_nodes"
  let nodes ← rawNodes.zipIdx.mapM (migrateNode rules lookup)
  let rawEdges ← rawList raw "edges" "_edges"
  let edges ← rawEdges.zipIdx.mapM readStoredEdge
  return { nodes := nodes, edges := edges }

/-- Every issue of a migration, in the order of discovery. -/
def migrationIssuesOf (lookup : Option Lookup) (raw : Params) (readings : Readings) :
    List MigrationIssue :=
  envelopeIssues raw ++ (if lookup.isNone then [registryUnavailable] else []) ++
    readings.nodes.flatMap MigratedNode.issues ++ readings.outcomes.filterMap EdgeOutcome.issue?

def migratedMetadata (lookup : Option Lookup) (raw : Params) (readings : Readings) : Params :=
  let stored := ((raw.get "metadata").dict?.getD []).filter fun member =>
    member.1 ∉ forbiddenEnvelopeFields
  let unresolved := (readings.nodes.filter MigratedNode.unresolved).map fun node => node.node.id
  BlockDescriptor.putParam "migration"
    (migrationReport lookup.isSome unresolved (readings.outcomes.filterMap EdgeOutcome.unmigrated?)
      (migrationIssuesOf lookup raw readings))
    stored

def migratedGraph (rules : TextRules) (lookup : Option Lookup) (raw : Params) (readings : Readings) :
    GraphEnvelope :=
  { schemaVersion := currentSchemaVersion
    strategyId := rules.strOr (raw.get "strategy_id")
    version := rules.strOr (raw.get "version")
    name := rules.strOr (raw.get "name")
    nodes := readings.nodes.map MigratedNode.node
    edges := readings.outcomes.filterMap EdgeOutcome.edge?
    metadata := migratedMetadata lookup raw readings
    validationState :=
      if (migrationIssuesOf lookup raw readings).any fun issue => issue.severity = severityError then
        .INVALID
      else .UNVALIDATED }

/-- `migrate_v1_to_v2`. -/
def migrateV1ToV2 (rules : TextRules) (lookup : Option Lookup) (value : Value) :
    Except ParseError GraphEnvelope := do
  let raw ← Except.ofOption
    (.graph ("Version 1 graph payload must be an object, got " ++ value.typeName)) value.dict?
  let readings ← readV1 rules lookup raw
  return migratedGraph rules lookup raw readings

/-! ## Rows -/

/-- `json.loads`, or the text of what it raises. -/
abbrev Loads := String → Except String Value

/-- `_row_field`: the first of some columns with a value. -/
def rowField (row : Params) (names : List String) : Value :=
  ((names.map row.get).find? fun value => !isNone value).getD (.scalar .none)

/-- `_decode_json_field`. -/
def decodeJsonField (loads : Loads) (value : Value) (fieldName : String) : Except ParseError Value :=
  match value with
  | .scalar (.str text) => (loads text).mapError fun reason =>
      .graph ("Row field '" ++ fieldName ++ "' is not valid JSON: " ++ reason)
  | value => .ok value

/-- The entry of a text made of a column, where the column has a value. -/
def textEntry (rules : TextRules) (key : String) (value : Value) : Params :=
  if isNone value then [] else [(key, .text (rules.str value))]

/-- `legacy_extract`. -/
def legacyExtract (rules : TextRules) (loads : Loads) (buyLogic : Value) (row : Params) :
    Except ParseError Params := do
  let value ← decodeJsonField loads buyLogic "buy_logic"
  let decoded ← Except.ofOption
    (.graph "Row carries no canonical graph and no version 1 'buy_logic' object") value.dict?
  Except.refuseIf ((decoded.get? "_nodes").isNone ∧ (decoded.get? "_edges").isNone)
    (.graph "Row 'buy_logic' holds no '_nodes' / '_edges'; there is no graph to load")
  let version := rowField row ["version", "dag_version"]
  return [("schema_version", decoded.get "_dag_schema_version"),
      ("nodes", (decoded.get "_nodes").orList), ("edges", (decoded.get "_edges").orList)] ++
    textEntry rules "strategy_id" (rowField row ["strategy_id", "id"]) ++
    textEntry rules "name" (rowField row ["name"]) ++
    textEntry rules "version" (if isNone version then decoded.get "_dag_version" else version)

/-- `_graph_shaped_blueprint`. -/
def graphShapedBlueprint (loads : Loads) (row : Params) : Except ParseError (Option Params) := do
  let blueprint := rowField row ["blueprint"]
  if isNone blueprint then return none
  let value ← decodeJsonField loads blueprint "blueprint"
  return value.dict?.filter fun decoded =>
    (decoded.get? "nodes").isSome || (decoded.get? "edges").isSome

/-- A row that is a graph payload itself. -/
def flattenedPayload (row : Params) : Params :=
  if isNone (row.get "schema_version") && !isNone (row.get "dag_schema_version") then
    BlockDescriptor.putParam "schema_version" (row.get "dag_schema_version") row
  else row

/-- What is left where a row has neither a graph of its own nor a usable `buy_logic`. -/
def payloadOrBlueprint (loads : Loads) (row : Params) : Except ParseError Params := do
  if (row.get? "nodes").isSome || (row.get? "edges").isSome then return flattenedPayload row
  let blueprint ← graphShapedBlueprint loads row
  Except.ofOption
    (.graph ("Row carries no canonical graph: no 'graph_json', no version 1 'buy_logic', no " ++
      "top-level 'nodes' and no graph-shaped 'blueprint'"))
    blueprint

/-- `extract_raw_graph`, of a row that is a mapping. -/
def extractRawGraph (rules : TextRules) (loads : Loads) (row : Params) : Except ParseError Params := do
  let graphJson ← decodeJsonField loads (rowField row ["graph_json", "graph"]) "graph_json"
  if !isNone graphJson then
    Except.ofOption
      (.graph ("Row field 'graph_json' must be an object, got " ++ graphJson.typeName)) graphJson.dict?
  else
    let buyLogic := rowField row ["buy_logic"]
    if isNone buyLogic then payloadOrBlueprint loads row
    else
      match legacyExtract rules loads buyLogic row with
      | .ok payload => return payload
      | .error e => do
        if isNone (rowField row ["nodes"]) then
          let blueprint ← graphShapedBlueprint loads row
          Except.refuseIf (blueprint.isNone = true) e
        payloadOrBlueprint loads row

/-- `load_graph`, of a payload that is extracted. -/
def loadPayload (rules : TextRules) (lookup : Option Lookup) (raw : Params) :
    Except ParseError GraphEnvelope := do
  let version ← normalizeSchemaVersion (raw.get "schema_version")
  if version = 1 then migrateV1ToV2 rules lookup (.dict raw)
  else GraphEnvelope.fromDict rules (.dict raw)

/-- `load_graph`. -/
def loadGraph (rules : TextRules) (loads : Loads) (lookup : Option Lookup) (row : Value) :
    Except ParseError GraphEnvelope := do
  let columns ← Except.ofOption (.graph "Cannot load a graph from a null row") row.dict?
  let raw ← extractRawGraph rules loads columns
  loadPayload rules lookup raw

end VyomQuant.StrategyDag
