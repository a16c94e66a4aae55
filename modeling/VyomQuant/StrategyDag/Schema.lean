/-
  VyomQuant.StrategyDag.Schema

  The strategy graph of schema version 2 (`strategy_dag/schema.py`): nodes with their block
  and parameters, port-addressed edges, and what a client sends along with them.

  Of a node, its id, block and parameters are the author's; of an edge, its id and its two
  ends.  The category, the ports, the edge type, the validation state and `ui` are copies
  that the client makes.  `StrategyGraph.Authored` is what is left without them and without
  the order of the two lists.
-/

import Mathlib.Data.List.DropRight
import Mathlib.Data.Multiset.Bind
import Mathlib.Data.Rat.Floor
import Mathlib.Data.String.Basic

namespace VyomQuant.StrategyDag

/-! ## Text -/

/-- What `str.strip` takes off. -/
def isSpace (c : Char) : Bool :=
  (9 ≤ c.toNat && c.toNat ≤ 13) || (28 ≤ c.toNat && c.toNat ≤ 32) || c.toNat == 0x85 ||
    c.toNat == 0xA0 || c.toNat == 0x1680 || (0x2000 ≤ c.toNat && c.toNat ≤ 0x200A) ||
    c.toNat == 0x2028 || c.toNat == 0x2029 || c.toNat == 0x202F || c.toNat == 0x205F ||
    c.toNat == 0x3000

/-- `text.strip()`. -/
def strip (text : String) : String :=
  String.ofList (((text.toList.dropWhile isSpace).reverse.dropWhile isSpace).reverse)

theorem strip_eq (text : String) :
    strip text = String.ofList ((text.toList.dropWhile isSpace).rdropWhile isSpace) := rfl

theorem strip_of_forall {text : String} (h : ∀ c ∈ text.toList, isSpace c = false) :
    strip text = text := by
  have h_left : text.toList.dropWhile isSpace = text.toList :=
    List.dropWhile_eq_self_iff.mpr fun h_pos => by
      simp [h _ (List.getElem_mem h_pos)]
  have h_right : text.toList.rdropWhile isSpace = text.toList :=
    List.rdropWhile_eq_self_iff.mpr fun h_ne => by
      simp [h _ (List.getLast_mem h_ne)]
  rw [strip_eq, h_left, h_right, String.ofList_toList]

theorem strip_strip (text : String) : strip (strip text) = strip text := by
  have h_left : ((text.toList.dropWhile isSpace).rdropWhile isSpace).dropWhile isSpace
      = (text.toList.dropWhile isSpace).rdropWhile isSpace := by
    refine List.dropWhile_eq_self_iff.mpr fun h_pos => ?_
    -- The first character is the first that the left end kept.
    have h_prefix := List.rdropWhile_prefix isSpace (text.toList.dropWhile isSpace)
    have h_pos' := Nat.lt_of_lt_of_le h_pos h_prefix.length_le
    have h_first := List.dropWhile_get_zero_not isSpace text.toList h_pos'
    rw [List.IsPrefix.getElem h_prefix h_pos]
    simpa using h_first
  rw [strip_eq (strip text), strip_eq text, String.toList_ofList, h_left,
    List.rdropWhile_idempotent]

/-! ## Values -/

/-- A float, by the digits and the exponent of its shortest decimal text. -/
inductive PyFloat where
  | nan
  | infinity (negative : Bool)
  | finite (negative : Bool) (digits : ℕ) (exponent : ℤ)
deriving DecidableEq

inductive Scalar where
  | none
  | bool (b : Bool)
  | int (n : ℤ)
  | float (x : PyFloat)
  | str (s : String)
deriving DecidableEq

/-- What JSON is read into. -/
inductive Value where
  | scalar (s : Scalar)
  | list (items : List Value)
  | dict (members : List (String × Value))

/-- A dictionary, in insertion order. -/
abbrev Params := List (String × Value)

/-- `params.get(key)`. -/
def Params.get (params : Params) (key : String) : Value :=
  ((params.find? fun member => member.1 = key).map Prod.snd).getD (.scalar .none)

/-- `isinstance(value, str)`, and the text. -/
def Value.text? : Value → Option String
  | .scalar (.str s) => some s
  | _ => none

/-- `bool(value)`. -/
def Value.truthy : Value → Bool
  | .scalar .none => false
  | .scalar (.bool b) => b
  | .scalar (.int n) => n ≠ 0
  | .scalar (.float (.finite _ digits _)) => digits ≠ 0
  | .scalar (.float _) => true
  | .scalar (.str text) => text ≠ ""
  | .list items => !items.isEmpty
  | .dict members => !members.isEmpty

/-! ## The graph -/

inductive PortType where
  | OHLCV_FRAME
  | PRICE_SERIES
  | SCALAR_SERIES
  | BOOLEAN_SERIES
  | FEATURE_MATRIX
  | PREDICTION
  | SIGNAL
  | TRADE_INTENT
  | SCALAR
deriving DecidableEq

inductive BlockCategory where
  | DATA
  | INDICATOR
  | MATH
  | LOGIC
  | FEATURE_ENGINEERING
  | ML_DL
  | ACTION
deriving DecidableEq

def BlockCategory.value : BlockCategory → String
  | .DATA => "DATA"
  | .INDICATOR => "INDICATOR"
  | .MATH => "MATH"
  | .LOGIC => "LOGIC"
  | .FEATURE_ENGINEERING => "FEATURE_ENGINEERING"
  | .ML_DL => "ML_DL"
  | .ACTION => "ACTION"

inductive ValidationState where
  | UNVALIDATED
  | VALID
  | INVALID
deriving DecidableEq

structure Port where
  name : String
  type : PortType
  required : Bool
  variadic : Bool
  description : String
deriving DecidableEq

structure NodeSpec where
  id : String
  blockId : String
  category : BlockCategory
  params : Params
  inputs : List Port
  outputs : List Port
  ui : Params

structure EdgeSpec where
  id : String
  source : String
  sourcePort : String
  target : String
  targetPort : String
  type : Option PortType
deriving DecidableEq

/-- An issue as a block's own rule or a migration wrote it, its severity not yet read. -/
structure RawIssue where
  code : Option String
  severity : Option String
  nodeId : Option String
  edgeId : Option String
  field : Option String

structure StrategyGraph where
  schemaVersion : ℤ
  strategyId : String
  version : String
  name : String
  nodes : List NodeSpec
  edges : List EdgeSpec
  /-- `metadata["migration"]["issues"]`. -/
  migrationIssues : List RawIssue
  validationState : ValidationState

/-- `CURRENT_SCHEMA_VERSION`. -/
def currentSchemaVersion : ℤ := 2

/-- `SUPPORTED_SCHEMA_VERSIONS`. -/
def supportedSchemaVersions : List ℤ := [1, 2]

/-! ## Lookups -/

namespace StrategyGraph

def node (g : StrategyGraph) (nodeId : String) : Option NodeSpec :=
  g.nodes.find? fun node => node.id = nodeId

/-- The entry of `{node.id: node for node in nodes}`: the last node with this id. -/
def nodeIndex (g : StrategyGraph) (nodeId : String) : Option NodeSpec :=
  g.nodes.reverse.find? fun node => node.id = nodeId

def nodeIds (g : StrategyGraph) : List String := g.nodes.map NodeSpec.id

variable {g : StrategyGraph} {nodeId : String}

theorem mem_nodeIds : nodeId ∈ g.nodeIds ↔ ∃ node ∈ g.nodes, node.id = nodeId := List.mem_map

variable {node : NodeSpec}

theorem nodeIndex_eq_some (h : g.nodeIndex nodeId = some node) :
    node ∈ g.nodes ∧ node.id = nodeId := by
  have h_mem := List.mem_of_find?_eq_some h
  have h_id := List.find?_some h
  exact ⟨List.mem_reverse.mp h_mem, of_decide_eq_true h_id⟩

theorem nodeIndex_of_mem (h_nodup : g.nodeIds.Nodup) (h : node ∈ g.nodes) :
    g.nodeIndex node.id = some node := by
  cases h_find : g.nodeIndex node.id with
  | none =>
    have h_none := List.find?_eq_none.mp h_find node (List.mem_reverse.mpr h)
    simp at h_none
  | some found =>
    obtain ⟨h_found, h_id⟩ := nodeIndex_eq_some h_find
    rw [List.inj_on_of_nodup_map h_nodup h_found h h_id]

theorem node_of_mem (h_nodup : g.nodeIds.Nodup) (h : node ∈ g.nodes) :
    g.node node.id = some node := by
  cases h_find : g.node node.id with
  | none =>
    have h_none := List.find?_eq_none.mp h_find node h
    simp at h_none
  | some found =>
    have h_found := List.mem_of_find?_eq_some h_find
    have h_id := List.find?_some h_find
    rw [List.inj_on_of_nodup_map h_nodup h_found h (of_decide_eq_true h_id)]

theorem nodeIndex_eq_none (h : nodeId ∉ g.nodeIds) : g.nodeIndex nodeId = none := by
  refine List.find?_eq_none.mpr fun node h_node h_id => h (mem_nodeIds.mpr ⟨node, ?_, ?_⟩)
  · exact List.mem_reverse.mp h_node
  · exact of_decide_eq_true h_id

end StrategyGraph

/-! ## What the author decides -/

/-- A node without what the client copies. -/
structure AuthoredNode where
  id : String
  blockId : String
  params : Params

/-- An edge without its type. -/
structure AuthoredEdge where
  id : String
  source : String
  sourcePort : String
  target : String
  targetPort : String

def NodeSpec.authored (node : NodeSpec) : AuthoredNode :=
  { id := node.id, blockId := node.blockId, params := node.params }

def EdgeSpec.authored (edge : EdgeSpec) : AuthoredEdge :=
  { id := edge.id, source := edge.source, sourcePort := edge.sourcePort
    target := edge.target, targetPort := edge.targetPort }

/-- A graph without what the client copies and without the order of its lists. -/
structure Authored where
  schemaVersion : ℤ
  strategyId : String
  version : String
  name : String
  nodes : Multiset AuthoredNode
  edges : Multiset AuthoredEdge
  migrationIssues : List RawIssue

def StrategyGraph.authored (g : StrategyGraph) : Authored :=
  { schemaVersion := g.schemaVersion
    strategyId := g.strategyId
    version := g.version
    name := g.name
    nodes := g.nodes.map NodeSpec.authored
    edges := g.edges.map EdgeSpec.authored
    migrationIssues := g.migrationIssues }

end VyomQuant.StrategyDag
