/-
  VyomQuant.StrategyDag.AlikeParsing

  Which keys name a credential, and what the parser makes of two documents that differ under
  such keys only.  The keys that `load_graph` reads are none of them (`known_not_credential`),
  so it reads the same nodes, ports and edges off both (`GraphEnvelope.fromDict_alike`), and
  graphs that are alike are stored as alike documents (`toDict_alike`).
-/

import VyomQuant.StrategyDag.Migration
import VyomQuant.StrategyDag.Secrets

namespace VyomQuant.StrategyDag

/-! ## Credential names -/

/-- A forbidden key whose value is not quoted back. -/
def isCredentialKey (rules : TextRules) (key : String) : Bool :=
  isForbiddenParam rules key && rules.lower (strip key) ∉ quotableForbiddenKeys

/-- The keys that `load_graph` reads or writes itself. -/
def knownKeys : List String :=
  ["schema_version", "dag_schema_version", "strategy_id", "version", "name", "nodes", "edges",
    "_nodes", "_edges", "metadata", "validation_state", "migration", "id", "block_id", "category",
    "params", "inputs", "outputs", "ui", "port", "type", "required", "variadic", "description",
    "source", "source_port", "target", "target_port", "node_type", "indicator", "model_id",
    "action", "operator", "sourcePort", "sourceHandle", "targetPort", "targetHandle", "code",
    "severity", "node_id", "edge_id", "field", "message", "expected", "actual", "fix_hint",
    "from_schema_version", "to_schema_version", "read_only", "registry_available",
    "unresolved_nodes", "unmigrated_edges", "issues", "graph_json", "graph", "buy_logic",
    "blueprint", "exchange"] ++ v1UiKeys

variable {rules : TextRules}

variable {key : String}

theorem known_not_credential (h : key ∈ knownKeys) : isCredentialKey rules key = false := by
  have h_all : ∀ key ∈ knownKeys,
      (key.toList.all fun c => decide (c.toNat < 128 ∧ isSpace c = false)) = true ∧
      (String.ofList (key.toList.map Char.toLower) ∈ forbiddenParamFields →
        String.ofList (key.toList.map Char.toLower) ∈ quotableForbiddenKeys) := by decide +kernel
  obtain ⟨h_plain, h_names⟩ := h_all key h
  replace h_plain : ∀ c ∈ key.toList, c.toNat < 128 ∧ isSpace c = false := fun c h_c =>
    of_decide_eq_true (List.all_eq_true.mp h_plain c h_c)
  have h_strip : strip key = key := strip_of_forall fun c h_c => (h_plain c h_c).2
  have h_lower := rules.lower_ascii key fun c h_c => (h_plain c h_c).1
  rw [isCredentialKey, isForbiddenParam, h_strip, h_lower]
  simpa using h_names

theorem not_credential_of_not_forbidden (h : isForbiddenParam rules key = false) :
    isCredentialKey rules key = false := by
  rw [isCredentialKey, h, Bool.false_and]

/-- The values of two payloads, equal but for the values under credential-named keys. -/
def SameButSecrets (rules : TextRules) : Value → Value → Prop :=
  Alike (isCredentialKey rules) fun _ _ => True

variable {S : Value → Value → Prop}

/-- The entries of two dictionaries that are alike. -/
abbrev AlikeEntries (rules : TextRules) (S : Value → Value → Prop) : Params → Params → Prop :=
  List.Forall₂ (AlikeMember (isCredentialKey rules) S)

abbrev AlikeValue (rules : TextRules) (S : Value → Value → Prop) : Value → Value → Prop :=
  Alike (isCredentialKey rules) S

abbrev PlainValue (rules : TextRules) : Value → Prop := KeyFree (isCredentialKey rules)

variable {value value' : Value}

theorem AlikeMember.known (h_key : key ∈ knownKeys) (h : AlikeValue rules S value value') :
    AlikeMember (isCredentialKey rules) S (key, value) (key, value') :=
  .of_not_secret (known_not_credential h_key) h

theorem alike_getD (h : AlikeValue rules S value value') :
    AlikeEntries rules S (value.dict?.getD []) (value'.dict?.getD []) := by
  cases value with
  | scalar s =>
    cases value' with
    | scalar s' => exact .nil
    | list items' => exact .nil
    | dict members' => simp [Alike] at h
  | list items =>
    cases value' with
    | scalar s' => exact .nil
    | list items' => exact .nil
    | dict members' => simp [Alike] at h
  | dict members =>
    obtain ⟨members', h_members', h_alike⟩ := h.dict? rfl
    rw [h_members']
    exact h_alike

variable {members members' : Params}

theorem get?_known (h : AlikeEntries rules S members members') (key : String)
    (h_key : key ∈ knownKeys) :
    (members.get? key = none ∧ members'.get? key = none) ∨
      ∃ value value', members.get? key = some value ∧ members'.get? key = some value' ∧
        AlikeValue rules S value value' :=
  alike_get? h (known_not_credential h_key)

theorem get_known (h : AlikeEntries rules S members members') (key : String)
    (h_key : key ∈ knownKeys) : AlikeValue rules S (members.get key) (members'.get key) :=
  alike_get h (known_not_credential h_key)

theorem get?_some_known (h : AlikeEntries rules S members members') (key : String)
    (h_key : key ∈ knownKeys) (h_some : members.get? key = some value) :
    ∃ value', members'.get? key = some value' ∧ AlikeValue rules S value value' := by
  rcases get?_known h key h_key with ⟨h_none, -⟩ | ⟨v, v', h_v, h_v', h_alike⟩
  · rw [h_none] at h_some
    cases h_some
  · rw [h_v] at h_some
    cases h_some
    exact ⟨v', h_v', h_alike⟩

theorem alike_filter (h : AlikeEntries rules S members members') (keep : String → Bool) :
    AlikeEntries rules S (members.filter fun member => keep member.1)
      (members'.filter fun member => keep member.1) := by
  induction h with
  | nil => exact .nil
  | @cons member member' _ _ h_member _ ih =>
    rw [List.filter_cons, List.filter_cons, ← h_member.1]
    split_ifs
    · exact .cons h_member ih
    · exact ih

theorem alike_putParam (h : AlikeEntries rules S members members')
    (h_member : AlikeMember (isCredentialKey rules) S (key, value) (key, value')) :
    AlikeEntries rules S (BlockDescriptor.putParam key value members)
      (BlockDescriptor.putParam key value' members') := by
  induction h with
  | nil => exact .cons h_member .nil
  | @cons member member' _ _ h_first h_rest ih =>
    obtain ⟨k, v⟩ := member
    obtain ⟨k', v'⟩ := member'
    have h_eq : k = k' := h_first.1
    subst h_eq
    unfold BlockDescriptor.putParam
    split_ifs with h_key
    · exact .cons h_member h_rest
    · exact .cons h_first ih

/-! ## What parsing makes of alike documents -/

def itemsAt (value : Value) (key : String) : List Value :=
  ((value.dict?.getD []).get key).orList.list?.getD []

/-- The descriptions of a node's ports are texts, or hold no secret. -/
def PlainPorts (rules : TextRules) (node : Value) (key : String) : Prop :=
  ∀ port ∈ itemsAt node key, PlainValue rules ((port.dict?.getD []).get "description")

theorem coerceEnum_alike {E : Type} {members : List (String × E)}
    (h : AlikeValue rules S value value') {fieldName : String} {member : E}
    (h_ok : coerceEnum rules members value fieldName = .ok member) :
    coerceEnum rules members value' fieldName = .ok member := by
  have h_some := Except.ofOption_eq_ok.mp h_ok
  exact Except.ofOption_eq_ok.mpr (by rw [h.outside.1]; exact h_some)

theorem Port.fromDict_alike (h : AlikeValue rules S value value')
    (h_text : PlainValue rules ((value.dict?.getD []).get "description")) {port : Port}
    (h_ok : Port.fromDict rules value = .ok port) : Port.fromDict rules value' = .ok port := by
  obtain ⟨data, h_data, h_ok⟩ := Except.bind_eq_ok.mp h_ok
  obtain ⟨name, h_name, h_ok⟩ := Except.bind_eq_ok.mp h_ok
  obtain ⟨rawType, h_rawType, h_ok⟩ := Except.bind_eq_ok.mp h_ok
  obtain ⟨type, h_type, rfl⟩ := Except.bind_pure_eq_ok.mp h_ok
  rw [Except.ofOption_eq_ok] at h_data h_name h_rawType
  obtain ⟨data', h_data', h_alike⟩ := h.dict? h_data
  rw [h_data, Option.getD_some] at h_text
  have h_name' : ((data'.get? "port").getD (data'.get "name")).nonEmpty? = some name := by
    rcases get?_known h_alike "port" (by decide) with
      ⟨h_none, h_none'⟩ | ⟨v, v', h_some, h_some', h_v⟩
    · rw [h_none, Option.getD_none] at h_name
      rw [h_none', Option.getD_none, (get_known h_alike "name" (by decide)).nonEmpty?]
      exact h_name
    · rw [h_some, Option.getD_some] at h_name
      rw [h_some', Option.getD_some, h_v.nonEmpty?]
      exact h_name
  obtain ⟨rawType', h_rawType', h_alikeType⟩ := get?_some_known h_alike "type" (by decide) h_rawType
  have h_required := (get_known h_alike "required" (by decide)).outside.2.1
  have h_variadic := (get_known h_alike "variadic" (by decide)).outside.2.1
  have h_description := get_eq_of_keyFree h_alike
    (known_not_credential (by decide : "description" ∈ knownKeys)) h_text
  unfold Port.fromDict
  rw [h_data', Except.ofOption]
  simp only [bind, Except.bind, h_name', Except.ofOption, h_rawType',
    coerceEnum_alike h_alikeType h_type, h_required, h_variadic, h_description]
  rfl

theorem parsePorts_alike {owner kind : String} {raw raw' : Value} (h : AlikeValue rules S raw raw')
    (h_text : ∀ port ∈ raw.orList.list?.getD [],
      PlainValue rules ((port.dict?.getD []).get "description")) {ports : List Port}
    (h_ok : parsePorts rules owner kind raw = .ok ports) :
    parsePorts rules owner kind raw' = .ok ports := by
  cases raw with
  | scalar s =>
    rw [h.eq_scalar]
    exact h_ok
  | dict members => cases h_ok
  | list items =>
    obtain ⟨items', h_items', h_alike⟩ := h.list? rfl
    cases raw' with
    | scalar s' => simp [Alike] at h
    | dict members' => simp [Alike] at h
    | list items'' =>
      cases h_items'
      rw [Value.list?_orList, Option.getD_some] at h_text
      obtain ⟨ports', h_ports', h_eq⟩ := @forall₂_mapM _ _ _ (Port.fromDict rules) Eq _ _ h_alike _ h_ok
        fun port h_port port' parsed h_like h_parsed =>
          ⟨parsed, Port.fromDict_alike h_like (h_text port h_port) h_parsed, rfl⟩
      rw [List.forall₂_eq_eq_eq] at h_eq
      rw [h_eq]
      exact h_ports'

/-- Two nodes that differ in kept values only. -/
structure AlikeNode (rules : TextRules) (S : Value → Value → Prop) (node node' : NodeSpec) : Prop where
  same : node' = { node with params := node'.params, ui := node'.ui }
  params : AlikeEntries rules S node.params node'.params
  ui : AlikeEntries rules S node.ui node'.ui

theorem NodeSpec.fromDict_alike (h : AlikeValue rules S value value')
    (h_inputs : PlainPorts rules value "inputs") (h_outputs : PlainPorts rules value "outputs")
    {node : NodeSpec} (h_ok : NodeSpec.fromDict rules value = .ok node) :
    ∃ node', NodeSpec.fromDict rules value' = .ok node' ∧ AlikeNode rules S node node' := by
  obtain ⟨data, h_data, h_ok⟩ := Except.bind_eq_ok.mp h_ok
  obtain ⟨id, h_id, h_ok⟩ := Except.bind_eq_ok.mp h_ok
  obtain ⟨blockId, h_blockId, h_ok⟩ := Except.bind_eq_ok.mp h_ok
  obtain ⟨rawCategory, h_rawCategory, h_ok⟩ := Except.bind_eq_ok.mp h_ok
  obtain ⟨params, h_params, h_ok⟩ := Except.bind_eq_ok.mp h_ok
  obtain ⟨ui, h_ui, h_ok⟩ := Except.bind_eq_ok.mp h_ok
  obtain ⟨category, h_category, h_ok⟩ := Except.bind_eq_ok.mp h_ok
  obtain ⟨inputs, h_in, h_ok⟩ := Except.bind_eq_ok.mp h_ok
  obtain ⟨outputs, h_out, rfl⟩ := Except.bind_pure_eq_ok.mp h_ok
  rw [Except.ofOption_eq_ok] at h_data h_id h_blockId h_rawCategory h_params h_ui
  obtain ⟨data', h_data', h_alike⟩ := h.dict? h_data
  rw [PlainPorts, itemsAt, h_data, Option.getD_some] at h_inputs h_outputs
  obtain ⟨rawCategory', h_rawCategory', h_alikeCategory⟩ :=
    get?_some_known h_alike "category" (by decide) h_rawCategory
  obtain ⟨params', h_params', h_alikeParams⟩ :=
    (get_known h_alike "params" (by decide)).orDict.dict? h_params
  obtain ⟨ui', h_ui', h_alikeUi⟩ := (get_known h_alike "ui" (by decide)).orDict.dict? h_ui
  have h_id' := (get_known h_alike "id" (by decide)).nonEmpty?.trans h_id
  have h_blockId' := (get_known h_alike "block_id" (by decide)).nonEmpty?.trans h_blockId
  have h_category' := coerceEnum_alike h_alikeCategory h_category
  have h_in' := parsePorts_alike (get_known h_alike "inputs" (by decide)) h_inputs h_in
  have h_out' := parsePorts_alike (get_known h_alike "outputs" (by decide)) h_outputs h_out
  refine ⟨{ id := id, blockId := blockId, category := category
            params := stripForbiddenParams rules params', inputs := inputs, outputs := outputs
            ui := ui' }, ?_, ?_⟩
  · unfold NodeSpec.fromDict
    simp only [bind, Except.bind, Except.ofOption, h_data', h_id', h_blockId', h_rawCategory',
      h_params', h_ui', h_category', h_in', h_out']
    rfl
  · exact { same := rfl, params := alike_filter h_alikeParams fun key => !isForbiddenParam rules key, ui := h_alikeUi }

theorem edgeField_alike {edgeId text : String} {data data' : Params}
    (h : AlikeEntries rules S data data') (h_key : key ∈ knownKeys)
    (h_ok : edgeField edgeId data key = .ok text) : edgeField edgeId data' key = .ok text := by
  have h_some := Except.ofOption_eq_ok.mp h_ok
  exact Except.ofOption_eq_ok.mpr ((get_known h key h_key).nonEmpty?.trans h_some)

theorem edgeType_alike {edgeId : String} {raw raw' : Value} (h : AlikeValue rules S raw raw')
    {type : Option PortType} (h_ok : edgeType rules edgeId raw = .ok type) :
    edgeType rules edgeId raw' = .ok type := by
  cases raw with
  | scalar s =>
    rw [h.eq_scalar]
    exact h_ok
  | list items =>
    obtain ⟨member, h_member, -⟩ := Except.map_eq_ok.mp h_ok
    cases h_member
  | dict members =>
    obtain ⟨member, h_member, -⟩ := Except.map_eq_ok.mp h_ok
    cases h_member

theorem EdgeSpec.fromDict_alike (h : AlikeValue rules S value value') {edge : EdgeSpec}
    (h_ok : EdgeSpec.fromDict rules value = .ok edge) :
    EdgeSpec.fromDict rules value' = .ok edge := by
  obtain ⟨data, h_data, h_ok⟩ := Except.bind_eq_ok.mp h_ok
  obtain ⟨id, h_id, h_ok⟩ := Except.bind_eq_ok.mp h_ok
  obtain ⟨source, h_source, h_ok⟩ := Except.bind_eq_ok.mp h_ok
  obtain ⟨sourcePort, h_sourcePort, h_ok⟩ := Except.bind_eq_ok.mp h_ok
  obtain ⟨target, h_target, h_ok⟩ := Except.bind_eq_ok.mp h_ok
  obtain ⟨targetPort, h_targetPort, h_ok⟩ := Except.bind_eq_ok.mp h_ok
  obtain ⟨type, h_type, rfl⟩ := Except.bind_pure_eq_ok.mp h_ok
  rw [Except.ofOption_eq_ok] at h_data h_id
  obtain ⟨data', h_data', h_alike⟩ := h.dict? h_data
  have h_id' := (get_known h_alike "id" (by decide)).nonEmpty?.trans h_id
  unfold EdgeSpec.fromDict
  simp only [bind, Except.bind, Except.ofOption, h_data', h_id',
    edgeField_alike h_alike (by decide) h_source, edgeField_alike h_alike (by decide) h_sourcePort,
    edgeField_alike h_alike (by decide) h_target, edgeField_alike h_alike (by decide) h_targetPort,
    edgeType_alike (get_known h_alike "type" (by decide)) h_type]
  rfl

/-- Two graphs that differ in kept values only. -/
structure AlikeGraph (rules : TextRules) (S : Value → Value → Prop)
    (envelope envelope' : GraphEnvelope) : Prop where
  same : envelope' = { envelope with nodes := envelope'.nodes, metadata := envelope'.metadata }
  nodes : List.Forall₂ (AlikeNode rules S) envelope.nodes envelope'.nodes
  metadata : AlikeEntries rules S envelope.metadata envelope'.metadata

/-- The fields of an envelope that are texts hold no secret. -/
structure PlainEnvelope (rules : TextRules) (raw : Params) : Prop where
  strategyId : PlainValue rules (raw.get "strategy_id")
  version : PlainValue rules (raw.get "version")
  name : PlainValue rules (raw.get "name")

theorem PlainEnvelope.get_eq {raw raw' : Params} (h : PlainEnvelope rules raw)
    (h_alike : AlikeEntries rules S raw raw') :
    raw'.get "strategy_id" = raw.get "strategy_id" ∧ raw'.get "version" = raw.get "version" ∧
      raw'.get "name" = raw.get "name" :=
  ⟨get_eq_of_keyFree h_alike (known_not_credential (by decide)) h.strategyId,
    get_eq_of_keyFree h_alike (known_not_credential (by decide)) h.version,
    get_eq_of_keyFree h_alike (known_not_credential (by decide)) h.name⟩

theorem GraphEnvelope.fromDict_alike {raw raw' : Params} (h : AlikeEntries rules S raw raw')
    (h_envelope : PlainEnvelope rules raw)
    (h_ports : ∀ node ∈ itemsAt (.dict raw) "nodes",
      PlainPorts rules node "inputs" ∧ PlainPorts rules node "outputs")
    {envelope : GraphEnvelope} (h_ok : GraphEnvelope.fromDict rules (.dict raw) = .ok envelope) :
    ∃ envelope', GraphEnvelope.fromDict rules (.dict raw') = .ok envelope' ∧
      AlikeGraph rules S envelope envelope' := by
  obtain ⟨data, h_data, h_ok⟩ := Except.bind_eq_ok.mp h_ok
  cases h_data
  obtain ⟨version, h_version, h_ok⟩ := Except.bind_eq_ok.mp h_ok
  obtain ⟨rawNodes, h_rawNodes, h_ok⟩ := Except.bind_eq_ok.mp h_ok
  obtain ⟨rawEdges, h_rawEdges, h_ok⟩ := Except.bind_eq_ok.mp h_ok
  obtain ⟨metadata, h_metadata, h_ok⟩ := Except.bind_eq_ok.mp h_ok
  obtain ⟨nodes, h_nodes, h_ok⟩ := Except.bind_eq_ok.mp h_ok
  obtain ⟨edges, h_edges, h_ok⟩ := Except.bind_eq_ok.mp h_ok
  obtain ⟨state, h_state, rfl⟩ := Except.bind_pure_eq_ok.mp h_ok
  rw [Except.ofOption_eq_ok] at h_rawNodes h_rawEdges h_metadata
  obtain ⟨rawNodes', h_rawNodes', h_alikeNodes⟩ :=
    (get_known h "nodes" (by decide)).orList.list? h_rawNodes
  obtain ⟨rawEdges', h_rawEdges', h_alikeEdges⟩ :=
    (get_known h "edges" (by decide)).orList.list? h_rawEdges
  obtain ⟨metadata', h_metadata', h_alikeMetadata⟩ :=
    (get_known h "metadata" (by decide)).orDict.dict? h_metadata
  have h_items : itemsAt (.dict raw) "nodes" = rawNodes := by
    rw [itemsAt, Value.dict?_dict, Option.getD_some, h_rawNodes, Option.getD_some]
  obtain ⟨nodes', h_nodes', h_alike⟩ := forall₂_mapM h_alikeNodes h_nodes
    fun node h_node node' parsed h_like h_parsed =>
      NodeSpec.fromDict_alike h_like (h_ports node (h_items ▸ h_node)).1
        (h_ports node (h_items ▸ h_node)).2 h_parsed
  obtain ⟨edges', h_edges', h_same⟩ := @forall₂_mapM _ _ _ (EdgeSpec.fromDict rules) Eq _ _
    h_alikeEdges _ h_edges fun edge _ edge' parsed h_like h_parsed =>
      ⟨parsed, EdgeSpec.fromDict_alike h_like h_parsed, rfl⟩
  rw [List.forall₂_eq_eq_eq] at h_same
  subst h_same
  have h_versionValue : GraphEnvelope.declaredVersion (raw'.get "schema_version") = .ok version := by
    have h_like := get_known h "schema_version" (by decide)
    revert h_version h_like
    generalize raw.get "schema_version" = value
    generalize raw'.get "schema_version" = value'
    intro h_version h_like
    cases value with
    | scalar s =>
      rw [h_like.eq_scalar]
      exact h_version
    | list items => cases h_version
    | dict members => cases h_version
  obtain ⟨h_strategyId, h_versionText, h_name⟩ := h_envelope.get_eq h
  have h_stateAlike := get_known h "validation_state" (by decide)
  have h_state' : coerceEnum rules ValidationState.members
      (if (raw'.get "validation_state").truthy then raw'.get "validation_state"
        else .text ValidationState.UNVALIDATED.value) "validation_state" = .ok state := by
    rw [h_stateAlike.outside.2.1]
    split_ifs at h_state ⊢
    · exact coerceEnum_alike h_stateAlike h_state
    · exact h_state
  refine ⟨{ schemaVersion := version, strategyId := rules.strOr (raw.get "strategy_id")
            version := rules.strOr (raw.get "version"), name := rules.strOr (raw.get "name")
            nodes := nodes', edges := edges, metadata := metadata'
            validationState := state }, ?_, ?_⟩
  · unfold GraphEnvelope.fromDict
    simp only [bind, Except.bind, Except.ofOption, Value.dict?_dict, h_versionValue, h_rawNodes',
      h_rawEdges', h_metadata', h_nodes', h_edges', h_state', h_strategyId, h_versionText, h_name]
    rfl
  · exact { same := rfl, nodes := h_alike, metadata := h_alikeMetadata }

/-! ## Storing -/

theorem toDict_port_alike (port : Port) : AlikeValue rules S port.toDict port.toDict := by
  refine alike_dict_iff.mpr (List.forall₂_same.mpr fun member h_member => ?_)
  have h_cases : member.1 ∈ knownKeys ∧ ∃ s, member.2 = .scalar s := by
    unfold Value.text at h_member
    simp only [List.mem_append, List.mem_cons, List.not_mem_nil, or_false, List.mem_ite_nil_right]
      at h_member
    rcases h_member with (((rfl | rfl) | ⟨-, rfl⟩) | ⟨-, rfl⟩) | ⟨-, rfl⟩
    · exact ⟨(by decide : "port" ∈ knownKeys), _, rfl⟩
    · exact ⟨(by decide : "type" ∈ knownKeys), _, rfl⟩
    · exact ⟨(by decide : "required" ∈ knownKeys), _, rfl⟩
    · exact ⟨(by decide : "variadic" ∈ knownKeys), _, rfl⟩
    · exact ⟨(by decide : "description" ∈ knownKeys), _, rfl⟩
  obtain ⟨h_key, s, h_scalar⟩ := h_cases
  obtain ⟨key, value⟩ := member
  dsimp only at h_key h_scalar
  subst h_scalar
  refine .known h_key ?_
  unfold AlikeValue
  rw [Alike]

theorem toDict_node_alike {node node' : NodeSpec} (h : AlikeNode rules S node node') :
    AlikeValue rules S node.toDict node'.toDict := by
  have h_params := h.params
  have h_ui := h.ui
  have h_ports : ∀ ports : List Port, AlikeValue rules S (.list (ports.map Port.toDict))
      (.list (ports.map Port.toDict)) := by
    intro ports
    refine alike_list_iff.mpr (List.forall₂_same.mpr fun value h_value => ?_)
    obtain ⟨port, -, rfl⟩ := List.mem_map.mp h_value
    exact toDict_port_alike port
  rw [h.same]
  refine alike_dict_iff.mpr (.cons ?_ (.cons ?_ (.cons ?_ (.cons ?_ (.cons ?_ (.cons ?_ (.cons ?_
    .nil)))))))
  · exact .known (by decide) (Alike.text _)
  · exact .known (by decide) (Alike.text _)
  · exact .known (by decide) (Alike.text _)
  · exact .known (by decide) (alike_dict_iff.mpr h_params)
  · exact .known (by decide) (h_ports _)
  · exact .known (by decide) (h_ports _)
  · exact .known (by decide) (alike_dict_iff.mpr h_ui)

theorem toDict_edge_alike (edge : EdgeSpec) : AlikeValue rules S edge.toDict edge.toDict := by
  refine alike_dict_iff.mpr (List.rel_append (.cons (.known (by decide) (Alike.text _))
    (.cons (.known (by decide) (Alike.text _)) (.cons (.known (by decide) (Alike.text _))
    (.cons (.known (by decide) (Alike.text _)) (.cons (.known (by decide) (Alike.text _)) .nil)))))
    ?_)
  cases edge.type with
  | none => exact .nil
  | some type => exact .cons (.known (by decide) (Alike.text _)) .nil

theorem toDict_alike {envelope envelope' : GraphEnvelope} (h : AlikeGraph rules S envelope envelope') :
    AlikeValue rules S envelope.toDict envelope'.toDict := by
  have h_nodes := h.nodes
  have h_metadata := h.metadata
  rw [h.same]
  refine alike_dict_iff.mpr (.cons ?_ (.cons ?_ (.cons ?_ (.cons ?_ (.cons ?_ (.cons ?_ (.cons ?_
    (.cons ?_ .nil))))))))
  · refine .known (by decide) ?_
    unfold AlikeValue
    rw [Alike]
  · exact .known (by decide) (Alike.text _)
  · exact .known (by decide) (Alike.text _)
  · exact .known (by decide) (Alike.text _)
  · refine .known (by decide) (alike_list_iff.mpr ?_)
    rw [List.forall₂_map_left_iff, List.forall₂_map_right_iff]
    exact h_nodes.imp fun _ _ h_node => toDict_node_alike h_node
  · refine .known (by decide) (alike_list_iff.mpr (List.forall₂_same.mpr fun value h_value => ?_))
    obtain ⟨edge, -, rfl⟩ := List.mem_map.mp h_value
    exact toDict_edge_alike edge
  · exact .known (by decide) (alike_dict_iff.mpr h_metadata)
  · exact .known (by decide) (Alike.text _)

end VyomQuant.StrategyDag
