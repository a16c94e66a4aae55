/-
  VyomQuant.StrategyDag.Document

  The wire form of a strategy graph of schema version 2 (`to_dict` and `from_dict` in
  `strategy_dag/schema.py`): ports, nodes, edges and the envelope around them.

  Parsing is where a document becomes canonical: what it returns has its ids and keeps no
  forbidden parameter.
-/

import VyomQuant.Lib.Fallible
import VyomQuant.StrategyDag.DagHash

namespace VyomQuant.StrategyDag

/-! ## Text -/

/-- What Python does with text by its tables of Unicode: `str.lower`, `str.upper`, and the
    `repr` of a value. -/
structure TextRules where
  lower : String → String
  upper : String → String
  repr : Value → String
  /-- On ASCII text only the capitals change. -/
  lower_ascii : ∀ text : String, (∀ c ∈ text.toList, c.toNat < 128) →
    lower text = String.ofList (text.toList.map Char.toLower)

/-- `str(value)`. -/
def TextRules.str (rules : TextRules) : Value → String
  | .scalar (.str text) => text
  | value => rules.repr value

/-- `str(value or "")`. -/
def TextRules.strOr (rules : TextRules) (value : Value) : String :=
  if value.truthy then rules.str value else ""

/-! ## Reading values -/

def Value.text (text : String) : Value := .scalar (.str text)

/-- `type(value).__name__`. -/
def Value.typeName : Value → String
  | .scalar .none => "NoneType"
  | .scalar (.bool _) => "bool"
  | .scalar (.int _) => "int"
  | .scalar (.float _) => "float"
  | .scalar (.str _) => "str"
  | .list _ => "list"
  | .dict _ => "dict"

/-- `isinstance(value, dict)`, and its entries. -/
def Value.dict? : Value → Option Params
  | .dict members => some members
  | _ => none

def Value.list? : Value → Option (List Value)
  | .list items => some items
  | _ => none

def Value.nonEmpty? (value : Value) : Option String := value.text?.filter (· ≠ "")

/-- `value or {}`. -/
def Value.orDict (value : Value) : Value := if value.truthy then value else .dict []

/-- `value or []`. -/
def Value.orList (value : Value) : Value := if value.truthy then value else .list []

/-- The entry under a key, also where it is `None`. -/
def Params.get? (params : Params) (key : String) : Option Value :=
  (params.find? fun member => member.1 = key).map Prod.snd

theorem Params.get_eq (params : Params) (key : String) :
    params.get key = (params.get? key).getD (.scalar .none) := rfl

@[simp] theorem Value.dict?_dict (members : Params) : (Value.dict members).dict? = some members := rfl

@[simp] theorem Value.list?_orList (items : List Value) :
    (Value.list items).orList.list? = some items := by
  cases items with
  | nil => rfl
  | cons item rest => rfl

mutual

/-- `repr` of a value whose texts are printable ASCII without quotes and backslashes. -/
def asciiRepr : Value → String
  | .scalar .none => "None"
  | .scalar (.bool true) => "True"
  | .scalar (.bool false) => "False"
  | .scalar (.int n) => toString n
  | .scalar (.float .nan) => "nan"
  | .scalar (.float (.infinity false)) => "inf"
  | .scalar (.float (.infinity true)) => "-inf"
  | .scalar (.float (.finite negative digits exponent)) =>
    String.ofList (finiteRepr negative digits exponent)
  | .scalar (.str text) => "'" ++ text ++ "'"
  | .list items => "[" ++ ", ".intercalate (asciiReprItems items) ++ "]"
  | .dict members => "\x7b" ++ ", ".intercalate (asciiReprMembers members) ++ "\x7d"

def asciiReprItems : List Value → List String
  | [] => []
  | item :: rest => asciiRepr item :: asciiReprItems rest

def asciiReprMembers : List (String × Value) → List String
  | [] => []
  | (key, value) :: rest => ("'" ++ key ++ "': " ++ asciiRepr value) :: asciiReprMembers rest

end

def asciiRules : TextRules where
  lower text := String.ofList (text.toList.map Char.toLower)
  upper text := String.ofList (text.toList.map Char.toUpper)
  repr := asciiRepr
  lower_ascii _ _ := rfl

/-! ## What may not be stored -/

/-- `FORBIDDEN_ENVELOPE_FIELDS`. -/
def forbiddenEnvelopeFields : List String := ["exchange"]

/-- `FORBIDDEN_PARAM_FIELDS`. -/
def forbiddenParamFields : List String :=
  ["exchange", "exchange_id", "api_key", "apikey", "api_secret", "secret", "secret_key",
    "passphrase", "password", "private_key", "credentials"]

/-- `is_forbidden_param`. -/
def isForbiddenParam (rules : TextRules) (key : String) : Bool :=
  rules.lower (strip key) ∈ forbiddenParamFields

/-- `_QUOTABLE_FORBIDDEN_KEYS`: a venue is no secret. -/
def quotableForbiddenKeys : List String := ["exchange", "exchange_id"]

/-- `strip_forbidden_params`. -/
def stripForbiddenParams (rules : TextRules) (params : Params) : Params :=
  params.filter fun member => !isForbiddenParam rules member.1

/-! ## Errors -/

inductive ParseError where
  /-- `GraphParseError`. -/
  | graph (message : String)
  | unsupportedSchemaVersion (version : Value)

/-! ## Enumerations -/

def PortType.members : List (String × PortType) :=
  [("OHLCV_FRAME", .OHLCV_FRAME), ("PRICE_SERIES", .PRICE_SERIES),
    ("SCALAR_SERIES", .SCALAR_SERIES), ("BOOLEAN_SERIES", .BOOLEAN_SERIES),
    ("FEATURE_MATRIX", .FEATURE_MATRIX), ("PREDICTION", .PREDICTION), ("SIGNAL", .SIGNAL),
    ("TRADE_INTENT", .TRADE_INTENT), ("SCALAR", .SCALAR)]

def PortType.value : PortType → String
  | .OHLCV_FRAME => "OHLCV_FRAME"
  | .PRICE_SERIES => "PRICE_SERIES"
  | .SCALAR_SERIES => "SCALAR_SERIES"
  | .BOOLEAN_SERIES => "BOOLEAN_SERIES"
  | .FEATURE_MATRIX => "FEATURE_MATRIX"
  | .PREDICTION => "PREDICTION"
  | .SIGNAL => "SIGNAL"
  | .TRADE_INTENT => "TRADE_INTENT"
  | .SCALAR => "SCALAR"

def BlockCategory.members : List (String × BlockCategory) :=
  [("DATA", .DATA), ("INDICATOR", .INDICATOR), ("MATH", .MATH), ("LOGIC", .LOGIC),
    ("FEATURE_ENGINEERING", .FEATURE_ENGINEERING), ("ML_DL", .ML_DL), ("ACTION", .ACTION)]

def ValidationState.members : List (String × ValidationState) :=
  [("UNVALIDATED", .UNVALIDATED), ("VALID", .VALID), ("INVALID", .INVALID)]

def ValidationState.value : ValidationState → String
  | .UNVALIDATED => "UNVALIDATED"
  | .VALID => "VALID"
  | .INVALID => "INVALID"

/-- `_coerce_enum`, on a value from the wire. -/
def coerceEnum {E : Type} (rules : TextRules) (members : List (String × E)) (value : Value)
    (fieldName : String) : Except ParseError E :=
  Except.ofOption
    (.graph ("Invalid " ++ fieldName ++ " " ++ rules.repr value ++ "; permitted values are: " ++
      ", ".intercalate (members.map Prod.fst)))
    (value.text?.bind fun text => members.lookup text <|> members.lookup (rules.upper (strip text)))

/-! ## Ports -/

/-- `Port.to_dict`. -/
def Port.toDict (port : Port) : Value :=
  .dict ([("port", .text port.name), ("type", .text port.type.value)] ++
    (if port.required then [("required", .scalar (.bool true))] else []) ++
    (if port.variadic then [("variadic", .scalar (.bool true))] else []) ++
    (if port.description ≠ "" then [("description", .text port.description)] else []))

/-- `Port.from_dict`. -/
def Port.fromDict (rules : TextRules) (value : Value) : Except ParseError Port := do
  let data ← Except.ofOption (.graph ("Port must be an object, got " ++ value.typeName)) value.dict?
  let name ← Except.ofOption (.graph "Port is missing a non-empty 'port' name")
    ((data.get? "port").getD (data.get "name")).nonEmpty?
  let rawType ← Except.ofOption (.graph ("Port '" ++ name ++ "' is missing 'type'"))
    (data.get? "type")
  let type ← coerceEnum rules PortType.members rawType ("port type for port '" ++ name ++ "'")
  return {
    name := name
    type := type
    required := (data.get "required").truthy
    variadic := (data.get "variadic").truthy
    description := rules.strOr (data.get "description") }

/-- `_parse_ports`. -/
def parsePorts (rules : TextRules) (owner kind : String) : Value → Except ParseError (List Port)
  | .scalar .none => return []
  | raw => do
    let items ← Except.ofOption
      (.graph ("Node '" ++ owner ++ "' field '" ++ kind ++ "' must be a list")) raw.list?
    items.mapM (Port.fromDict rules)

/-! ## Nodes -/

/-- `NodeSpec.to_dict`. -/
def NodeSpec.toDict (node : NodeSpec) : Value :=
  .dict [("id", .text node.id), ("block_id", .text node.blockId),
    ("category", .text node.category.value), ("params", .dict node.params),
    ("inputs", .list (node.inputs.map Port.toDict)),
    ("outputs", .list (node.outputs.map Port.toDict)), ("ui", .dict node.ui)]

/-- `NodeSpec.from_dict`. -/
def NodeSpec.fromDict (rules : TextRules) (value : Value) : Except ParseError NodeSpec := do
  let data ← Except.ofOption (.graph ("Node must be an object, got " ++ value.typeName)) value.dict?
  let id ← Except.ofOption (.graph "Node is missing a non-empty 'id'") (data.get "id").nonEmpty?
  let blockId ← Except.ofOption (.graph ("Node '" ++ id ++ "' is missing a non-empty 'block_id'"))
    (data.get "block_id").nonEmpty?
  let rawCategory ← Except.ofOption (.graph ("Node '" ++ id ++ "' is missing 'category'"))
    (data.get? "category")
  let params ← Except.ofOption (.graph ("Node '" ++ id ++ "' field 'params' must be an object"))
    (data.get "params").orDict.dict?
  let ui ← Except.ofOption (.graph ("Node '" ++ id ++ "' field 'ui' must be an object"))
    (data.get "ui").orDict.dict?
  let category ← coerceEnum rules BlockCategory.members rawCategory
    ("category for node '" ++ id ++ "'")
  let inputs ← parsePorts rules id "inputs" (data.get "inputs")
  let outputs ← parsePorts rules id "outputs" (data.get "outputs")
  return {
    id := id
    blockId := blockId
    category := category
    params := stripForbiddenParams rules params
    inputs := inputs
    outputs := outputs
    ui := ui }

/-! ## Edges -/

/-- `EdgeSpec.to_dict`. -/
def EdgeSpec.toDict (edge : EdgeSpec) : Value :=
  .dict ([("id", .text edge.id), ("source", .text edge.source),
    ("source_port", .text edge.sourcePort), ("target", .text edge.target),
    ("target_port", .text edge.targetPort)] ++
    (edge.type.map fun type => ("type", Value.text type.value)).toList)

/-- One end of an edge, or one of its ports. -/
def edgeField (edgeId : String) (data : Params) (key : String) : Except ParseError String :=
  Except.ofOption
    (.graph ("Edge '" ++ edgeId ++ "' is missing a non-empty '" ++ key ++
      "'; every edge is port-addressed on both ends"))
    (data.get key).nonEmpty?

/-- The advisory type of an edge: `None` and the empty text are none. -/
def edgeType (rules : TextRules) (edgeId : String) : Value → Except ParseError (Option PortType)
  | .scalar .none => return none
  | .scalar (.str "") => return none
  | raw => some <$> coerceEnum rules PortType.members raw ("type for edge '" ++ edgeId ++ "'")

/-- `EdgeSpec.from_dict`. -/
def EdgeSpec.fromDict (rules : TextRules) (value : Value) : Except ParseError EdgeSpec := do
  let data ← Except.ofOption (.graph ("Edge must be an object, got " ++ value.typeName)) value.dict?
  let id ← Except.ofOption (.graph "Edge is missing a non-empty 'id'") (data.get "id").nonEmpty?
  let source ← edgeField id data "source"
  let sourcePort ← edgeField id data "source_port"
  let target ← edgeField id data "target"
  let targetPort ← edgeField id data "target_port"
  let type ← edgeType rules id (data.get "type")
  return {
    id := id
    source := source
    sourcePort := sourcePort
    target := target
    targetPort := targetPort
    type := type }

/-! ## The envelope -/

/-- `StrategyGraph`, with all of its metadata. -/
structure GraphEnvelope where
  schemaVersion : ℤ
  strategyId : String
  version : String
  name : String
  nodes : List NodeSpec
  edges : List EdgeSpec
  metadata : Params
  validationState : ValidationState

namespace GraphEnvelope

/-- `StrategyGraph.to_dict`. -/
def toDict (envelope : GraphEnvelope) : Value :=
  .dict [("schema_version", .scalar (.int envelope.schemaVersion)),
    ("strategy_id", .text envelope.strategyId), ("version", .text envelope.version),
    ("name", .text envelope.name), ("nodes", .list (envelope.nodes.map NodeSpec.toDict)),
    ("edges", .list (envelope.edges.map EdgeSpec.toDict)), ("metadata", .dict envelope.metadata),
    ("validation_state", .text envelope.validationState.value)]

/-- The version that an envelope declares, which must be the current one. -/
def declaredVersion : Value → Except ParseError ℤ
  | .scalar (.int n) =>
    if n = currentSchemaVersion then .ok n
    else .error (.unsupportedSchemaVersion (.scalar (.int n)))
  | value => .error (.unsupportedSchemaVersion value)

/-- `StrategyGraph.from_dict`. -/
def fromDict (rules : TextRules) (value : Value) : Except ParseError GraphEnvelope := do
  let data ← Except.ofOption (.graph ("Graph envelope must be an object, got " ++ value.typeName))
    value.dict?
  let version ← declaredVersion (data.get "schema_version")
  let rawNodes ← Except.ofOption (.graph "Graph field 'nodes' must be a list")
    (data.get "nodes").orList.list?
  let rawEdges ← Except.ofOption (.graph "Graph field 'edges' must be a list")
    (data.get "edges").orList.list?
  let metadata ← Except.ofOption (.graph "Graph field 'metadata' must be an object")
    (data.get "metadata").orDict.dict?
  let nodes ← rawNodes.mapM (NodeSpec.fromDict rules)
  let edges ← rawEdges.mapM (EdgeSpec.fromDict rules)
  let state := data.get "validation_state"
  let validationState ← coerceEnum rules ValidationState.members
    (if state.truthy then state else .text ValidationState.UNVALIDATED.value) "validation_state"
  return {
    schemaVersion := version
    strategyId := rules.strOr (data.get "strategy_id")
    version := rules.strOr (data.get "version")
    name := rules.strOr (data.get "name")
    nodes := nodes
    edges := edges
    metadata := metadata
    validationState := validationState }

end GraphEnvelope

end VyomQuant.StrategyDag
