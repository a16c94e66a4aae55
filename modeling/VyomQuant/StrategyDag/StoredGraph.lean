/-
  VyomQuant.StrategyDag.StoredGraph

  A graph that was loaded is stored as its document (`to_dict`) and loaded again.  It comes
  back as it was exactly where every block and every port has a name: what is read of version
  2 always has, and a node of version 1 that names no block is migrated, and stored, and can
  then not be read (`reloads_iff`).
-/

import VyomQuant.Lib.Codec
import VyomQuant.StrategyDag.Credentials

namespace VyomQuant.StrategyDag

open Codec
open Except (bind_eq_ok map_eq_ok ofOption_eq_ok pure_eq_ok)

variable {rules : TextRules}

/-! ## Texts and enumerations -/

@[simp] theorem nonEmpty?_text {text name : String} :
    (Value.text text).nonEmpty? = some name ↔ text = name ∧ text ≠ "" := by
  simp only [Value.nonEmpty?, Value.text, Value.text?, Option.filter_some, ne_eq,
    decide_not, Bool.not_eq_true', decide_eq_false_iff_not]
  by_cases h : text = "" <;> simp [h]

@[simp] theorem strOr_text (text : String) : rules.strOr (.text text) = text := by
  by_cases h : text = "" <;> simp [TextRules.strOr, Value.text, Value.truthy, TextRules.str, h]

theorem coerceEnum_member (rules : TextRules) {E : Type} {members : List (String × E)}
    {name : String} {value : E} (h : members.lookup name = some value) (fieldName : String) :
    coerceEnum rules members (.text name) fieldName = .ok value := by
  rw [coerceEnum, ofOption_eq_ok]
  simp [Value.text, Value.text?, h]

theorem lookup_portType (type : PortType) : PortType.members.lookup type.value = some type := by
  cases type <;> rfl

theorem lookup_category (category : BlockCategory) :
    BlockCategory.members.lookup category.value = some category := by
  cases category <;> rfl

theorem lookup_validationState (state : ValidationState) :
    ValidationState.members.lookup state.value = some state := by
  cases state <;> rfl

/-! ## Ports, nodes and edges -/

/-- What the document of a port says of it. -/
theorem Port.toDict_fields (rules : TextRules) (port : Port) :
    ∃ data : Params, port.toDict = .dict data ∧ data.get? "port" = some (.text port.name) ∧
      data.get? "type" = some (.text port.type.value) ∧
      (data.get "required").truthy = port.required ∧
      (data.get "variadic").truthy = port.variadic ∧
      rules.strOr (data.get "description") = port.description := by
  refine ⟨_, rfl, rfl, rfl, ?_⟩
  rcases port with ⟨name, type, required, variadic, description⟩
  by_cases h : description = "" <;> cases required <;> cases variadic <;>
    simp [Params.get, Value.truthy, TextRules.strOr, TextRules.str, Value.text, h]

theorem Port.readsBack (port : Port) :
    ReadsBack Port.toDict (Port.fromDict rules) port (port.name ≠ "") := by
  intro port'
  obtain ⟨data, h_dict, h_port, h_type, h_required, h_variadic, h_description⟩ :=
    port.toDict_fields rules
  simp only [h_dict, Port.fromDict, Value.dict?_dict, h_port, h_type, h_required, h_variadic,
    h_description, bind_eq_ok, ofOption_eq_ok, pure_eq_ok, Option.getD_some, nonEmpty?_text,
    coerceEnum_member rules (lookup_portType port.type), Option.some.injEq, Except.ok.injEq,
    exists_eq_left']
  constructor
  · rintro ⟨_, ⟨rfl, h_named⟩, rfl⟩
    exact ⟨rfl, h_named⟩
  · rintro ⟨rfl, h_named⟩
    exact ⟨_, ⟨rfl, h_named⟩, rfl⟩

theorem parsePorts_toDict {owner kind : String} {ports ports' : List Port} :
    parsePorts rules owner kind (.list (ports.map Port.toDict)) = .ok ports' ↔
      ports' = ports ∧ ∀ port ∈ ports, port.name ≠ "" :=
  ReadsBack.list (fun port _ => port.readsBack) ports'

@[simp] theorem dict?_orDict (members : Params) :
    (Value.dict members).orDict.dict? = some members := by
  cases members with
  | nil => rfl
  | cons member rest => rfl

/-- The names that a node needs to be read again. -/
structure NodeSpec.Named (node : NodeSpec) : Prop where
  block : node.blockId ≠ ""
  inputs : ∀ port ∈ node.inputs, port.name ≠ ""
  outputs : ∀ port ∈ node.outputs, port.name ≠ ""

theorem NodeSpec.readsBack {node : NodeSpec} (h_id : node.id ≠ "")
    (h_params : stripForbiddenParams rules node.params = node.params) :
    ReadsBack NodeSpec.toDict (NodeSpec.fromDict rules) node node.Named := by
  intro node'
  have h_category := coerceEnum_member rules (lookup_category node.category)
  simp only [NodeSpec.toDict, NodeSpec.fromDict, Params.get?, Params.get]
  simp [bind_eq_ok, map_eq_ok, ofOption_eq_ok, parsePorts_toDict, h_category]
  constructor
  · rintro ⟨-, h_block, h_inputs, h_outputs, rfl⟩
    rw [h_params]
    exact ⟨rfl, h_block, h_inputs, h_outputs⟩
  · rintro ⟨rfl, h_block, h_inputs, h_outputs⟩
    rw [h_params]
    exact ⟨h_id, h_block, h_inputs, h_outputs, rfl⟩

theorem edgeType_value (edgeId : String) (type : PortType) :
    edgeType rules edgeId (.text type.value) = .ok (some type) := by
  cases type <;> rfl

theorem EdgeSpec.readsBack (rules : TextRules) {edge : EdgeSpec} (h_id : edge.id ≠ "")
    (h_source : edge.source ≠ "") (h_target : edge.target ≠ "") :
    ReadsBack EdgeSpec.toDict (EdgeSpec.fromDict rules) edge
      (edge.sourcePort ≠ "" ∧ edge.targetPort ≠ "") := by
  intro edge'
  have h_type : edgeType rules edge.id (((edge.type.map fun type => Value.text type.value)).getD
      (.scalar .none)) = .ok edge.type := by
    cases edge.type with
    | none => rfl
    | some type => exact edgeType_value edge.id type
  rcases edge with ⟨id, source, sourcePort, target, targetPort, type⟩
  cases type <;>
    simp_all [EdgeSpec.toDict, EdgeSpec.fromDict, Params.get, edgeField, bind_eq_ok, map_eq_ok,
      ofOption_eq_ok]
  all_goals
    constructor
    · rintro ⟨h_from, h_to, rfl⟩
      exact ⟨rfl, h_from, h_to⟩
    · rintro ⟨rfl, h_from, h_to⟩
      exact ⟨h_from, h_to, rfl⟩

/-! ## The graph -/

namespace GraphEnvelope

variable {envelope : GraphEnvelope}

/-- Every block has a name, and every port of a node or an edge. -/
structure Named (envelope : GraphEnvelope) : Prop where
  nodes : ∀ node ∈ envelope.nodes, node.Named
  edges : ∀ edge ∈ envelope.edges, edge.sourcePort ≠ "" ∧ edge.targetPort ≠ ""

structure Loaded (rules : TextRules) (envelope : GraphEnvelope) : Prop where
  version : envelope.schemaVersion = currentSchemaVersion
  nodes : ∀ node ∈ envelope.nodes,
    node.id ≠ "" ∧ stripForbiddenParams rules node.params = node.params
  edges : ∀ edge ∈ envelope.edges, edge.id ≠ "" ∧ edge.source ≠ "" ∧ edge.target ≠ ""

theorem Loaded.readsBack (h : envelope.Loaded rules) :
    ReadsBack toDict (fromDict rules) envelope envelope.Named := by
  intro other
  have h_nodes := ReadsBack.list (fun node h_node =>
    NodeSpec.readsBack (h.nodes node h_node).1 (h.nodes node h_node).2)
  have h_edges := ReadsBack.list (fun edge h_edge =>
    EdgeSpec.readsBack rules (h.edges edge h_edge).1 (h.edges edge h_edge).2.1
      (h.edges edge h_edge).2.2)
  have h_state := coerceEnum_member rules (lookup_validationState envelope.validationState)
    "validation_state"
  have h_truthy : (Value.text envelope.validationState.value).truthy = true := by
    cases envelope.validationState <;> rfl
  have h_version : declaredVersion (.scalar (.int envelope.schemaVersion))
      = .ok envelope.schemaVersion := if_pos h.version
  simp only [toDict, fromDict, Params.get]
  simp [bind_eq_ok, map_eq_ok, ofOption_eq_ok, h_nodes _, h_edges _, h_state, h_truthy, h_version,
    -List.mapM_map]
  constructor
  · rintro ⟨h_nodes, h_edges, rfl⟩
    exact ⟨rfl, h_nodes, h_edges⟩
  · rintro ⟨rfl, h_named⟩
    exact ⟨h_named.nodes, h_named.edges, rfl⟩

end GraphEnvelope

/-! ## What is loaded -/

variable {lookup : Option Lookup} {raw : Params} {envelope : GraphEnvelope}

theorem ne_empty_of_nonEmpty? {value : Value} {text : String} (h : value.nonEmpty? = some text) :
    text ≠ "" :=
  of_decide_eq_true (Option.filter_eq_some_iff.mp h).2

theorem strip_idem (params : Params) :
    stripForbiddenParams rules (stripForbiddenParams rules params)
      = stripForbiddenParams rules params := by
  unfold stripForbiddenParams
  rw [List.filter_filter]
  simp

theorem port_named {value : Value} {port : Port} (h : Port.fromDict rules value = .ok port) :
    port.name ≠ "" := by
  obtain ⟨data, -, h⟩ := bind_eq_ok.mp h
  obtain ⟨name, h_name, h⟩ := bind_eq_ok.mp h
  obtain ⟨rawType, -, h⟩ := bind_eq_ok.mp h
  obtain ⟨type, -, rfl⟩ := Except.bind_pure_eq_ok.mp h
  exact ne_empty_of_nonEmpty? (ofOption_eq_ok.mp h_name)

theorem ports_named {owner kind : String} {value : Value} {ports : List Port}
    (h : parsePorts rules owner kind value = .ok ports) : ∀ port ∈ ports, port.name ≠ "" := by
  unfold parsePorts at h
  split at h
  · rw [← pure_eq_ok.mp h]
    simp
  · obtain ⟨items, -, h⟩ := bind_eq_ok.mp h
    intro port h_port
    obtain ⟨item, -, h_item⟩ := Except.exists_of_mem_mapM h h_port
    exact port_named h_item

theorem node_of_fromDict {value : Value} {node : NodeSpec} (h : NodeSpec.fromDict rules value = .ok node) :
    (node.id ≠ "" ∧ stripForbiddenParams rules node.params = node.params) ∧ node.Named := by
  obtain ⟨data, -, h⟩ := bind_eq_ok.mp h
  obtain ⟨id, h_id, h⟩ := bind_eq_ok.mp h
  obtain ⟨blockId, h_block, h⟩ := bind_eq_ok.mp h
  obtain ⟨rawCategory, -, h⟩ := bind_eq_ok.mp h
  obtain ⟨params, -, h⟩ := bind_eq_ok.mp h
  obtain ⟨ui, -, h⟩ := bind_eq_ok.mp h
  obtain ⟨category, -, h⟩ := bind_eq_ok.mp h
  obtain ⟨inputs, h_inputs, h⟩ := bind_eq_ok.mp h
  obtain ⟨outputs, h_outputs, rfl⟩ := Except.bind_pure_eq_ok.mp h
  rw [ofOption_eq_ok] at h_id h_block
  exact ⟨⟨ne_empty_of_nonEmpty? h_id, strip_idem params⟩,
    { block := ne_empty_of_nonEmpty? h_block
      inputs := ports_named h_inputs
      outputs := ports_named h_outputs }⟩

theorem edge_of_fromDict {value : Value} {edge : EdgeSpec} (h : EdgeSpec.fromDict rules value = .ok edge) :
    (edge.id ≠ "" ∧ edge.source ≠ "" ∧ edge.target ≠ "") ∧
      (edge.sourcePort ≠ "" ∧ edge.targetPort ≠ "") := by
  obtain ⟨data, -, h⟩ := bind_eq_ok.mp h
  obtain ⟨id, h_id, h⟩ := bind_eq_ok.mp h
  obtain ⟨source, h_source, h⟩ := bind_eq_ok.mp h
  obtain ⟨sourcePort, h_sourcePort, h⟩ := bind_eq_ok.mp h
  obtain ⟨target, h_target, h⟩ := bind_eq_ok.mp h
  obtain ⟨targetPort, h_targetPort, h⟩ := bind_eq_ok.mp h
  obtain ⟨type, -, rfl⟩ := Except.bind_pure_eq_ok.mp h
  unfold edgeField at h_source h_sourcePort h_target h_targetPort
  rw [ofOption_eq_ok] at h_id h_source h_sourcePort h_target h_targetPort
  exact ⟨⟨ne_empty_of_nonEmpty? h_id, ne_empty_of_nonEmpty? h_source, ne_empty_of_nonEmpty? h_target⟩,
    ne_empty_of_nonEmpty? h_sourcePort, ne_empty_of_nonEmpty? h_targetPort⟩

theorem loaded_of_fromDict {value : Value} (h : GraphEnvelope.fromDict rules value = .ok envelope) :
    envelope.Loaded rules ∧ envelope.Named := by
  obtain ⟨data, -, h⟩ := bind_eq_ok.mp h
  obtain ⟨version, h_version, h⟩ := bind_eq_ok.mp h
  obtain ⟨rawNodes, -, h⟩ := bind_eq_ok.mp h
  obtain ⟨rawEdges, -, h⟩ := bind_eq_ok.mp h
  obtain ⟨metadata, -, h⟩ := bind_eq_ok.mp h
  obtain ⟨nodes, h_nodes, h⟩ := bind_eq_ok.mp h
  obtain ⟨edges, h_edges, h⟩ := bind_eq_ok.mp h
  obtain ⟨state, -, rfl⟩ := Except.bind_pure_eq_ok.mp h
  have h_current : version = currentSchemaVersion := by
    unfold GraphEnvelope.declaredVersion at h_version
    split at h_version
    · split at h_version
      · rename_i h_n
        rw [← Except.ok.inj h_version, h_n]
      · cases h_version
    · cases h_version
  have h_node : ∀ node ∈ nodes, _ := fun node h_mem =>
    let ⟨_, _, h_item⟩ := Except.exists_of_mem_mapM h_nodes h_mem
    node_of_fromDict h_item
  have h_edge : ∀ edge ∈ edges, _ := fun edge h_mem =>
    let ⟨_, _, h_item⟩ := Except.exists_of_mem_mapM h_edges h_mem
    edge_of_fromDict h_item
  exact ⟨{ version := h_current
           nodes := fun node h_mem => (h_node node h_mem).1
           edges := fun edge h_mem => (h_edge edge h_mem).1 },
    { nodes := fun node h_mem => (h_node node h_mem).2
      edges := fun edge h_mem => (h_edge edge h_mem).2 }⟩

/-! ## What is migrated -/

theorem strip_putParam {members : Params} (h : stripForbiddenParams rules members = members)
    {key : String} (h_key : isForbiddenParam rules key = false) (value : Value) :
    stripForbiddenParams rules (BlockDescriptor.putParam key value members)
      = BlockDescriptor.putParam key value members := by
  unfold stripForbiddenParams at h ⊢
  rw [List.filter_eq_self] at h ⊢
  induction members with
  | nil =>
    rintro member h_member
    rw [BlockDescriptor.putParam, List.mem_singleton] at h_member
    simp [h_member, h_key]
  | cons member rest ih =>
    obtain ⟨h_head, h_rest⟩ := List.forall_mem_cons.mp h
    obtain ⟨key', value'⟩ := member
    unfold BlockDescriptor.putParam
    split_ifs with h_eq
    · exact List.forall_mem_cons.mpr ⟨by simpa using h_key, h_rest⟩
    · exact List.forall_mem_cons.mpr ⟨h_head, ih h_rest⟩

/-- What is stored of a version 1 node has no forbidden parameter. -/
theorem strip_mergedParams (node declared : Params) :
    stripForbiddenParams rules (mergedParams rules (legacyScalarFields rules node) declared)
      = mergedParams rules (legacyScalarFields rules node) declared := by
  have h_columns : stripForbiddenParams rules (legacyScalarFields rules node)
      = legacyScalarFields rules node := by
    unfold legacyScalarFields
    refine List.foldlRecOn (motive := fun merged => stripForbiddenParams rules merged = merged)
      node _ rfl fun merged h_merged member _ => ?_
    split_ifs with h_member
    · simp only [Bool.and_eq_true, Bool.not_eq_true'] at h_member
      exact strip_putParam h_merged h_member.1.2 _
    · exact h_merged
  unfold mergedParams
  refine List.foldlRecOn (motive := fun merged => stripForbiddenParams rules merged = merged)
    _ _ h_columns fun merged h_merged member h_member => ?_
  have h_allowed := (List.mem_filter.mp h_member).2
  rw [Bool.not_eq_true'] at h_allowed
  exact strip_putParam h_merged h_allowed _

theorem loaded_of_migrateNode {rawNode : Value × ℕ} {node : MigratedNode}
    (h : migrateNode rules lookup rawNode = .ok node) :
    node.node.id ≠ "" ∧ stripForbiddenParams rules node.node.params = node.node.params := by
  obtain ⟨data, -, h⟩ := bind_eq_ok.mp h
  obtain ⟨nodeId, h_id, h⟩ := bind_eq_ok.mp h
  obtain ⟨declared, -, rfl⟩ := Except.bind_pure_eq_ok.mp h
  exact ⟨ne_empty_of_nonEmpty? (ofOption_eq_ok.mp h_id), strip_mergedParams data declared⟩

theorem storedEdgeId_ne_empty {rawEdge : Value × ℕ} {id : String} (h : storedEdgeId rawEdge = some id) :
    id ≠ "" := by
  unfold storedEdgeId at h
  cases h_own : storedEntry rawEdge.1 "id" with
  | some own =>
    rw [h_own] at h
    cases h
    exact ne_empty_of_nonEmpty? h_own
  | none =>
    rw [h_own] at h
    simp only [Option.orElse_eq_orElse, Option.orElse_none, Option.bind_eq_bind,
      Option.bind_eq_some_iff, Option.some.injEq] at h
    obtain ⟨source, -, target, -, rfl⟩ := h
    -- it starts with `e_mig_`
    intro h_empty
    have h_length := congrArg String.length h_empty
    rw [migratedEdgeId, String.length_append] at h_length
    simp at h_length

/-- An edge that is migrated has the ends that it was stored with. -/
theorem loaded_of_outcome {rawEdge : Value × ℕ} {stored : StoredEdge} {edge : EdgeSpec}
    (h_read : ReadsEdge rawEdge stored) (h_kept : Outcome stored (.migrated edge)) :
    edge.id ≠ "" ∧ edge.source ≠ "" ∧ edge.target ≠ "" := by
  obtain ⟨h_id, h_source, h_target⟩ := h_kept
  rw [h_id, h_source, h_target]
  exact ⟨storedEdgeId_ne_empty h_read.id, ne_empty_of_nonEmpty? h_read.source,
    ne_empty_of_nonEmpty? h_read.target⟩

theorem loaded_of_readV1 {readings : Readings} (h : readV1 rules lookup raw = .ok readings) :
    (migratedGraph rules lookup raw readings).Loaded rules := by
  obtain ⟨h_nodes, h_edges⟩ := readV1_eq_ok h
  refine { version := rfl, nodes := fun node h_node => ?_, edges := fun edge h_edge => ?_ }
  · obtain ⟨migrated, h_migrated, rfl⟩ := List.mem_map.mp h_node
    obtain ⟨rawNode, -, h_rawNode⟩ := exists_of_mem_forall₂ h_nodes.flip h_migrated
    exact loaded_of_migrateNode h_rawNode
  · obtain ⟨outcome, h_outcome, h_some⟩ := List.mem_filterMap.mp h_edge
    cases outcome with
    | unmigrated data issue => cases h_some
    | migrated edge =>
      cases h_some
      obtain ⟨stored, h_stored, h_kept⟩ :=
        exists_of_mem_forall₂ (outcomes_migrateEdges _ _ _).flip h_outcome
      obtain ⟨rawEdge, -, h_rawEdge⟩ := exists_of_mem_forall₂ h_edges.flip h_stored
      exact loaded_of_outcome (readsEdge h_rawEdge) h_kept

/-- Every graph that is loaded is, and of version 2 has its names. -/
theorem loaded_of_loadPayload (h : loadPayload rules lookup raw = .ok envelope) :
    envelope.Loaded rules ∧ (isV1 raw = false → envelope.Named) := by
  rcases loadPayload_eq_ok.mp h with ⟨h_v1, readings, h_readings, rfl⟩ | ⟨-, -, h_parse⟩
  · exact ⟨loaded_of_readV1 h_readings, fun h_v2 => by rw [h_v1] at h_v2; cases h_v2⟩
  · exact ⟨(loaded_of_fromDict h_parse).1, fun _ => (loaded_of_fromDict h_parse).2⟩

/-- The document of a graph of the current version is parsed as it stands. -/
theorem loadGraph_toDict {loads : Loads} (h : envelope.schemaVersion = currentSchemaVersion) :
    loadGraph rules loads lookup envelope.toDict = GraphEnvelope.fromDict rules envelope.toDict := by
  unfold GraphEnvelope.toDict
  rw [loadGraph_payload ⟨rfl, rfl, rfl, rfl⟩, h]
  rfl

/-! ## The round trip -/

/-- A graph that was loaded comes back from its document as it was where every block and port
    has a name, and where one has none its document is refused.  Of version 2 all have one. -/
theorem reloads_iff {loads loads' : Loads} {lookup lookup' : Option Lookup} {row : Params}
    {envelope : GraphEnvelope} (h : loadGraph rules loads lookup (.dict row) = .ok envelope) :
    ReadsBack GraphEnvelope.toDict (loadGraph rules loads' lookup') envelope envelope.Named ∧
      ∃ raw, extractRawGraph rules loads row = .ok raw ∧ (isV1 raw = false → envelope.Named) := by
  obtain ⟨columns, h_columns, h⟩ := bind_eq_ok.mp h
  cases h_columns
  obtain ⟨raw, h_raw, h_load⟩ := bind_eq_ok.mp h
  obtain ⟨h_loaded, h_v2⟩ := loaded_of_loadPayload h_load
  refine ⟨fun other => ?_, raw, h_raw, h_v2⟩
  rw [loadGraph_toDict h_loaded.version]
  exact h_loaded.readsBack other

/-- A node of version 1 that names no block. -/
def unnamedPayload : Params :=
  [("nodes", .list [.dict [("id", .text "b"), ("type", .text "math")]])]

/-- It is loaded, and its document is refused. -/
theorem reloads_iff_unnamed :
    ∃ envelope, loadGraph asciiRules (fun _ => .error "") none (.dict unnamedPayload) = .ok envelope ∧
      ∀ other, loadGraph asciiRules (fun _ => .error "") none envelope.toDict ≠ .ok other := by
  cases h : loadGraph asciiRules (fun _ => .error "") none (.dict unnamedPayload) with
  | error e =>
    have h_some : (loadGraph asciiRules (fun _ => .error "") none
        (.dict unnamedPayload)).toOption.isSome = true := by decide +kernel
    rw [h] at h_some
    cases h_some
  | ok envelope =>
    refine ⟨envelope, rfl, fun other h_other => ?_⟩
    obtain ⟨h_reads, -⟩ := reloads_iff h
    have h_named := ((h_reads other).mp h_other).2
    have h_blank : (loadGraph asciiRules (fun _ => .error "") none
        (.dict unnamedPayload)).toOption.any (fun graph => graph.nodes.any fun node =>
          node.blockId = "") = true := by decide +kernel
    rw [h] at h_blank
    obtain ⟨node, h_node, h_empty⟩ := List.any_eq_true.mp h_blank
    exact (h_named.nodes node h_node).block (of_decide_eq_true h_empty)

end VyomQuant.StrategyDag
