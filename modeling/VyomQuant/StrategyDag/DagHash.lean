/-
  VyomQuant.StrategyDag.DagHash

  `compute_dag_hash` (`strategy_dag/schema.py`): the first 16 hex digits of the SHA-256 of
  a JSON text of the graph's version, nodes and wiring.

  The nodes are sorted by id and the edges by address, and every dictionary by key, so the
  text depends on what is hashed and not on the order it came in (`computeDagHash_congr`).
-/

import VyomQuant.Lib.KeySort
import VyomQuant.Lib.Sha256
import VyomQuant.StrategyDag.Schema

namespace VyomQuant.StrategyDag

/-! ## Floats -/

def finiteValue (negative : Bool) (digits : ℕ) (exponent : ℤ) : ℚ :=
  (if negative then -1 else 1) * digits * (10 : ℚ) ^ exponent

/-- `repr(x)` of a finite float: in plain form for a decimal point at most 16 places to the
    right of the first digit and 4 to the left of it, else with an exponent. -/
def finiteRepr (negative : Bool) (digits : ℕ) (exponent : ℤ) : List Char :=
  let sign := if negative then ['-'] else []
  let ds := (toString digits).toList
  let point := (ds.length : ℤ) + exponent
  let zeros (n : ℤ) := List.replicate n.toNat '0'
  if -4 < point ∧ point ≤ 16 then
    if point ≤ 0 then sign ++ ['0', '.'] ++ zeros (-point) ++ ds
    else if point < ds.length then
      sign ++ ds.take point.toNat ++ ['.'] ++ ds.drop point.toNat
    else sign ++ ds ++ zeros (point - ds.length) ++ ['.', '0']
  else
    let power := point - 1
    let fraction := if ds.length = 1 then [] else '.' :: ds.drop 1
    let places := (toString power.natAbs).toList
    let padded := if places.length = 1 then '0' :: places else places
    sign ++ ds.take 1 ++ fraction ++ ['e', if power < 0 then '-' else '+'] ++ padded

/-! ## The canonical form -/

/-- `_normalize_scalar`: an integral float below 2^53 is its integer, and what JSON has no
    number for is a text. -/
def normalizeScalar : Scalar → Scalar
  | .float .nan => .str "NaN"
  | .float (.infinity false) => .str "Infinity"
  | .float (.infinity true) => .str "-Infinity"
  | .float (.finite negative digits exponent) =>
    let value := finiteValue negative digits exponent
    if value.den = 1 ∧ value.num.natAbs < 2 ^ 53 then .int value.num
    else .float (.finite negative digits exponent)
  | s => s

def sortedByKey {α : Type} (members : List (String × α)) : List (String × α) :=
  members.insertionSort fun a b => a.1 ≤ b.1

mutual

def canonicalize : Value → Value
  | .scalar s => .scalar (normalizeScalar s)
  | .list items => .list (canonicalizeItems items)
  | .dict members => .dict (sortedByKey (canonicalizeMembers members))

def canonicalizeItems : List Value → List Value
  | [] => []
  | item :: rest => canonicalize item :: canonicalizeItems rest

def canonicalizeMembers : List (String × Value) → List (String × Value)
  | [] => []
  | (key, value) :: rest => (key, canonicalize value) :: canonicalizeMembers rest

end

/-! ## The text -/

/-- A UTF-16 unit as `\uXXXX`. -/
def escapeUnit (unit : ℕ) : List Char :=
  ['\\', 'u', Sha256.hexDigit (unit / 4096 % 16), Sha256.hexDigit (unit / 256 % 16),
    Sha256.hexDigit (unit / 16 % 16), Sha256.hexDigit (unit % 16)]

/-- A character of a string under `ensure_ascii`. -/
def escapeAscii (c : Char) : List Char :=
  if c = '"' then ['\\', '"']
  else if c = '\\' then ['\\', '\\']
  else if c = '\n' then ['\\', 'n']
  else if c = '\r' then ['\\', 'r']
  else if c = '\t' then ['\\', 't']
  else if c.toNat = 8 then ['\\', 'b']
  else if c.toNat = 12 then ['\\', 'f']
  else if 32 ≤ c.toNat ∧ c.toNat ≤ 126 then [c]
  else if c.toNat < 0x10000 then escapeUnit c.toNat
  else
    let offset := c.toNat - 0x10000
    escapeUnit (0xD800 + offset / 0x400) ++ escapeUnit (0xDC00 + offset % 0x400)

def quoted (s : String) : List Char := '"' :: s.toList.flatMap escapeAscii ++ ['"']

/-- The text of a scalar.  A canonical one is no NaN and no infinity. -/
def scalarText : Scalar → List Char
  | .none => "null".toList
  | .bool true => "true".toList
  | .bool false => "false".toList
  | .int n => (toString n).toList
  | .float .nan => "NaN".toList
  | .float (.infinity false) => "Infinity".toList
  | .float (.infinity true) => "-Infinity".toList
  | .float (.finite negative digits exponent) => finiteRepr negative digits exponent
  | .str s => quoted s

/-- `",".join`. -/
def joined (texts : List (List Char)) : List Char := [','].intercalate texts

mutual

/-- `json.dumps(value, sort_keys=True, separators=(",", ":"))`. -/
def dumps : Value → List Char
  | .scalar s => scalarText s
  | .list items => '[' :: joined (dumpsItems items) ++ [']']
  | .dict members =>
    '\x7b' :: joined ((sortedByKey (dumpsMembers members)).map fun member =>
      quoted member.1 ++ ':' :: member.2) ++ ['\x7d']

def dumpsItems : List Value → List (List Char)
  | [] => []
  | item :: rest => dumps item :: dumpsItems rest

def dumpsMembers : List (String × Value) → List (String × List Char)
  | [] => []
  | (key, value) :: rest => (key, dumps value) :: dumpsMembers rest

end

/-! ## The hash -/

def EdgeSpec.addressKey (edge : EdgeSpec) : List String :=
  [edge.source, edge.sourcePort, edge.target, edge.targetPort]

/-- The four parts of an address, as the hash and the messages write them. -/
def addressText : List String → String
  | [source, sourcePort, target, targetPort] =>
    source ++ "." ++ sourcePort ++ "->" ++ target ++ "." ++ targetPort
  | _ => ""

/-- `edge.address`. -/
def EdgeSpec.address (edge : EdgeSpec) : String := addressText edge.addressKey

def canonicalNode (node : NodeSpec) : Value :=
  .dict [("id", .scalar (.str node.id)), ("block_id", .scalar (.str node.blockId)),
    ("category", .scalar (.str node.category.value)), ("params", canonicalize (.dict node.params))]

def canonicalNodes (g : StrategyGraph) : List Value :=
  (g.nodes.insertionSort fun a b => a.id ≤ b.id).map canonicalNode

/-- `_sorted_edges`. -/
def sortedEdges (g : StrategyGraph) : List EdgeSpec :=
  g.edges.insertionSort fun a b => a.addressKey ≤ b.addressKey

def canonicalEdges (g : StrategyGraph) : List Value :=
  (sortedEdges g).map fun edge => .scalar (.str edge.address)

def hashPayload (g : StrategyGraph) : List Char :=
  dumps (.dict [("schema_version", .scalar (.int g.schemaVersion)),
    ("nodes", .list (canonicalNodes g)), ("edges", .list (canonicalEdges g))])

/-- `compute_dag_hash`. -/
def computeDagHash (g : StrategyGraph) : String :=
  String.ofList ((Sha256.hex (Sha256.sha256 ((hashPayload g).map fun c => c.toUInt8))).take 16)

theorem isSpace_hexDigit : ∀ n < 16, isSpace (Sha256.hexDigit n) = false := by decide

theorem strip_computeDagHash (g : StrategyGraph) : strip (computeDagHash g) = computeDagHash g := by
  refine strip_of_forall fun c h_c => ?_
  rw [computeDagHash, String.toList_ofList] at h_c
  exact Sha256.forall_mem_hex (fun c => isSpace c = false) isSpace_hexDigit
    (fun _ => Sha256.mem_sha256) (List.mem_of_mem_take h_c)

theorem computeDagHash_ne_empty (g : StrategyGraph) : computeDagHash g ≠ "" := by
  intro h_empty
  have h_length := congrArg (fun text => text.toList.length) h_empty
  simp only [computeDagHash, String.toList_ofList, List.length_take, Sha256.length_hex,
    Sha256.length_sha256] at h_length
  exact absurd h_length (by decide)

/-! ## What the hash depends on -/

/-- What is hashed of a node, with the key it is sorted by. -/
def hashedNode (node : NodeSpec) : String × Value := (node.id, canonicalNode node)

/-- The hash is one of the version, and of what is hashed of the nodes and the edges,
    whatever their order. -/
theorem computeDagHash_congr {g g' : StrategyGraph} (h_version : g.schemaVersion = g'.schemaVersion)
    (h_nodup : g.nodeIds.Nodup) (h_nodes : (g.nodes.map hashedNode).Perm (g'.nodes.map hashedNode))
    (h_edges : (g.edges.map EdgeSpec.addressKey).Perm (g'.edges.map EdgeSpec.addressKey)) :
    computeDagHash g = computeDagHash g' := by
  have h_canonicalNodes : canonicalNodes g = canonicalNodes g' := by
    refine @KeySort.insertionSort_map_congr _ _ _ _ NodeSpec.id _ _ _ (fun a h_a b h_b h_eq => ?_) h_nodes
    have h_b' := h_nodes.symm.subset (List.mem_map_of_mem h_b)
    obtain ⟨c, h_c, h_hashed⟩ := List.mem_map.mp h_b'
    obtain ⟨h_id, h_canonical⟩ := Prod.mk.inj h_hashed
    rw [List.inj_on_of_nodup_map h_nodup h_a h_c (h_eq.trans h_id.symm), h_canonical]
  have h_canonicalEdges : canonicalEdges g = canonicalEdges g' := by
    refine @KeySort.insertionSort_map_congr _ _ _ _ EdgeSpec.addressKey _ _ _ (fun a _ b _ h_eq => ?_) ?_
    · rw [EdgeSpec.address, EdgeSpec.address, h_eq]
    · have h_pairs := h_edges.map fun key => (key, Value.scalar (.str (addressText key)))
      rw [List.map_map, List.map_map] at h_pairs
      exact h_pairs
  rw [computeDagHash, computeDagHash, hashPayload, hashPayload, h_version, h_canonicalNodes,
    h_canonicalEdges]

end VyomQuant.StrategyDag
