/-
  VyomQuant.StrategyDag.AlikeMigration

  What a migration makes of two payloads that differ under credential-named keys only: the
  same ports for the same edges, the same issues up to the values they quote, and metadata,
  parameters and `ui` that differ under such keys only (`migratedGraph_alike`).
-/

import VyomQuant.StrategyDag.AlikeParsing
import VyomQuant.StrategyDag.PortInference

namespace VyomQuant.StrategyDag

variable {rules : TextRules} {S : Value → Value → Prop}

/-! ## What a migration makes of alike documents -/

variable {value value' : Value}

theorem isNone_alike (h : AlikeValue rules S value value') : isNone value' = isNone value := by
  cases value with
  | scalar s => rw [h.eq_scalar]
  | list items =>
    cases value' with
    | scalar s' => simp [Alike] at h
    | _ => rfl
  | dict members =>
    cases value' with
    | scalar s' => simp [Alike] at h
    | _ => rfl

theorem alike_putChosen {members members' acc acc' : Params} (h : AlikeEntries rules S members members')
    (h_acc : AlikeEntries rules S acc acc') {chosen : String × Value → Bool}
    (h_chosen : ∀ member member', AlikeMember (isCredentialKey rules) S member member' →
      chosen member' = chosen member) :
    AlikeEntries rules S
      (members.foldl (fun merged member =>
        if chosen member then BlockDescriptor.putParam member.1 member.2 merged else merged) acc)
      (members'.foldl (fun merged member =>
        if chosen member then BlockDescriptor.putParam member.1 member.2 merged else merged) acc') := by
  induction h generalizing acc acc' with
  | nil => exact h_acc
  | @cons member member' _ _ h_member _ ih =>
    rw [List.foldl_cons, List.foldl_cons, h_chosen member member' h_member]
    split_ifs
    · refine ih ?_
      obtain ⟨key, value⟩ := member
      obtain ⟨key', value'⟩ := member'
      obtain rfl : key = key' := h_member.1
      exact alike_putParam h_acc h_member
    · exact ih h_acc

variable {node node' declared raw raw' : Params}

theorem legacyScalarFields_alike (h : AlikeEntries rules S node node') :
    AlikeEntries rules S (legacyScalarFields rules node) (legacyScalarFields rules node') := by
  refine alike_putChosen h .nil fun member member' h_member => ?_
  rw [← h_member.1]
  cases h_forbidden : isForbiddenParam rules member.1 with
  | true => simp
  | false =>
    have h_value := h_member.2
    rw [not_credential_of_not_forbidden h_forbidden, if_neg Bool.false_ne_true] at h_value
    rw [isNone_alike h_value]

theorem mergedParams_alike {columns columns' declared' : Params}
    (h_columns : AlikeEntries rules S columns columns')
    (h_declared : AlikeEntries rules S declared declared') :
    AlikeEntries rules S (mergedParams rules columns declared) (mergedParams rules columns' declared') := by
  have h_kept : AlikeEntries rules S (stripForbiddenParams rules declared)
      (stripForbiddenParams rules declared') :=
    alike_filter h_declared fun key => !isForbiddenParam rules key
  have h_put := @alike_putChosen rules S _ _ _ _ h_kept h_columns (fun _ => true) fun _ _ _ => rfl
  simpa [mergedParams] using h_put

/-- Two issues that differ in the value they quote. -/
structure AlikeIssue (rules : TextRules) (S : Value → Value → Prop) (issue issue' : MigrationIssue) :
    Prop where
  same : issue' = { issue with actual := issue'.actual }
  expected : AlikeValue rules S issue.expected issue'.expected
  actual : AlikeValue rules S issue.actual issue'.actual

theorem redactForbiddenValue_alike {member member' : String × Value}
    (h : AlikeMember (isCredentialKey rules) S member member') :
    AlikeValue rules S (redactForbiddenValue rules member.1 member.2)
      (redactForbiddenValue rules member'.1 member'.2) := by
  rw [← h.1, redactForbiddenValue, redactForbiddenValue]
  split_ifs with h_quotable
  · have h_value := h.2
    have h_key : isCredentialKey rules member.1 = false := by simp [isCredentialKey, h_quotable]
    rw [h_key, if_neg Bool.false_ne_true] at h_value
    exact h_value
  · exact Alike.text _

theorem alike_none : AlikeValue rules S (.scalar .none) (.scalar .none) := by
  unfold AlikeValue
  rw [Alike]

variable {nodeId : String}

theorem droppedFields_alike {members members' : Params} (h : AlikeEntries rules S members members')
    (dropped : String → Bool) (carried field : String → String) :
    List.Forall₂ (AlikeIssue rules S)
      ((members.filter fun member => dropped member.1).map fun member =>
        droppedField rules nodeId (carried member.1) (field member.1) member.1 member.2)
      ((members'.filter fun member => dropped member.1).map fun member =>
        droppedField rules nodeId (carried member.1) (field member.1) member.1 member.2) := by
  have h_kept := alike_filter h dropped
  rw [List.forall₂_map_left_iff, List.forall₂_map_right_iff]
  refine h_kept.imp fun member member' h_member => ?_
  have h_actual := redactForbiddenValue_alike h_member
  rw [← h_member.1] at h_actual ⊢
  exact { same := rfl, expected := alike_none, actual := h_actual }

/-- The columns of a node that are texts hold no secret. -/
structure PlainColumns (rules : TextRules) (node : Params) : Prop where
  type : PlainValue rules (storedType node)
  blocks : ∀ key ∈ ["indicator", "model_id", "action", "operator"], PlainValue rules (node.get key)

theorem storedType_alike (h : AlikeEntries rules S node node') :
    AlikeValue rules S (storedType node) (storedType node') := by
  rw [storedType, storedType]
  rcases get?_known h "type" (by decide) with ⟨h_none, h_none'⟩ | ⟨v, v', h_v, h_v', h_alike⟩
  · rw [h_none, h_none', Option.getD_none, Option.getD_none]
    exact get_known h "node_type" (by decide)
  · rw [h_v, h_v']
    exact h_alike

theorem legacyBlockId_alike (h : AlikeEntries rules S node node')
    (h_plain : PlainColumns rules node) (category : Option BlockCategory) :
    legacyBlockId rules node' category = legacyBlockId rules node category := by
  have h_column : ∀ key ∈ ["indicator", "model_id", "action", "operator"],
      blockColumn rules node' key = blockColumn rules node key := by
    intro key h_key
    have h_known : key ∈ knownKeys := by
      revert key
      decide
    rw [blockColumn, blockColumn,
      get_eq_of_keyFree h (known_not_credential h_known) (h_plain.blocks key h_key)]
  simp only [List.forall_mem_cons] at h_column
  obtain ⟨h_indicator, h_model, h_action, h_operator, -⟩ := h_column
  rw [legacyBlockId, legacyBlockId]
  simp only [List.findSome?_cons, List.findSome?_nil, h_indicator, h_model, h_action, h_operator]

theorem setDefault_alike {resolved resolved' : Params} (h : AlikeEntries rules S node node')
    (h_resolved : AlikeEntries rules S resolved resolved') {key : String}
    (h_key : key ∈ knownKeys) :
    AlikeEntries rules S (setDefault node resolved key) (setDefault node' resolved' key) := by
  have h_get := get_known h key h_key
  have h_some : (resolved'.get? key).isSome = (resolved.get? key).isSome := by
    rcases get?_known h_resolved key h_key with ⟨h_none, h_none'⟩ | ⟨v, v', h_v, h_v', -⟩
    · rw [h_none, h_none']
    · rw [h_v, h_v']
      rfl
  rw [setDefault, setDefault, isNone_alike h_get, h_some]
  split_ifs
  · exact h_resolved
  · exact List.rel_append h_resolved (.cons (.known h_key h_get) .nil)

theorem legacyUiFields_alike (h : AlikeEntries rules S node node') :
    AlikeEntries rules S (legacyUiFields node) (legacyUiFields node') := by
  have h_fold : ∀ (keys : List String), (∀ key ∈ keys, key ∈ knownKeys) →
      ∀ {resolved resolved' : Params}, AlikeEntries rules S resolved resolved' →
        AlikeEntries rules S (keys.foldl (setDefault node) resolved)
          (keys.foldl (setDefault node') resolved') := by
    intro keys h_keys
    induction keys with
    | nil => exact fun h_resolved => h_resolved
    | cons key rest ih =>
      rw [List.forall_mem_cons] at h_keys
      intro resolved resolved' h_resolved
      exact ih h_keys.2 (setDefault_alike h h_resolved h_keys.1)
  exact h_fold v1UiKeys (by decide) (alike_getD (get_known h "ui" (by decide)))

/-- Two nodes of a migration that differ in kept values only. -/
structure AlikeMigrated (rules : TextRules) (S : Value → Value → Prop)
    (migrated migrated' : MigratedNode) : Prop where
  node : AlikeNode rules S migrated.node migrated'.node
  issues : List.Forall₂ (AlikeIssue rules S) migrated.issues migrated'.issues
  unresolved : migrated'.unresolved = migrated.unresolved

variable {issue : MigrationIssue}

theorem AlikeIssue.refl (h_expected : AlikeValue rules S issue.expected issue.expected)
    (h_actual : AlikeValue rules S issue.actual issue.actual) : AlikeIssue rules S issue issue :=
  { same := rfl, expected := h_expected, actual := h_actual }

theorem readBlock_issues_alike (lookup : Option Lookup) (nodeId : String) (named : Option String) :
    List.Forall₂ (AlikeIssue rules S) (readBlock rules lookup nodeId named).issues
      (readBlock rules lookup nodeId named).issues := by
  unfold readBlock
  split
  · exact .cons (.refl (Alike.text _) alike_none) .nil
  · split
    · exact .nil
    · dsimp only
      split_ifs
      · exact .nil
      · exact .cons (.refl (Alike.text _) (Alike.text _)) .nil

theorem readCategory_issues_alike {blockId : String} {rawType : Value}
    (h_type : AlikeValue rules S rawType rawType) (stored published : Option BlockCategory) :
    List.Forall₂ (AlikeIssue rules S) (readCategory rules nodeId blockId rawType stored published).2
      (readCategory rules nodeId blockId rawType stored published).2 := by
  unfold readCategory
  split
  · dsimp only
    split_ifs
    · exact .cons (.refl (Alike.text _) (Alike.text _)) .nil
    · exact .nil
  · exact .nil
  · exact .nil
  · exact .cons (.refl (Alike.text _) h_type) .nil

variable {lookup : Option Lookup}

theorem assembleNode_alike {declared' : Params} (h : AlikeEntries rules S node node')
    (h_declared : AlikeEntries rules S declared declared') (h_plain : PlainColumns rules node) :
    AlikeMigrated rules S (assembleNode rules lookup node nodeId declared)
      (assembleNode rules lookup node' nodeId declared') := by
  have h_type := storedType_alike h
  have h_same : storedType node' = storedType node := (h_type.eq_of_keyFree h_plain.type).symm
  have h_block := legacyBlockId_alike h h_plain (mapLegacyType rules (storedType node))
  rw [h_same] at h_type
  unfold assembleNode
  rw [h_same]
  dsimp only
  rw [h_block]
  refine { node := { same := rfl, params := ?_, ui := legacyUiFields_alike h }, issues := ?_,
           unresolved := rfl }
  · exact mergedParams_alike (legacyScalarFields_alike h) h_declared
  · refine List.rel_append (List.rel_append (List.rel_append ?_ ?_) ?_) ?_
    · exact droppedFields_alike h (fun key => isColumn key && isForbiddenParam rules key)
        (fun key => "'" ++ key ++ "'") fun key => key
    · exact droppedFields_alike h_declared (fun key => isForbiddenParam rules key)
        (fun key => "params['" ++ key ++ "']") fun key => "params." ++ key
    · exact readBlock_issues_alike _ _ _
    · exact readCategory_issues_alike h_type _ _

theorem declaredParams_alike (h : AlikeValue rules S value value')
    (h_ok : declaredParams nodeId value = .ok declared) :
    ∃ declared', declaredParams nodeId value' = .ok declared' ∧
      AlikeEntries rules S declared declared' := by
  cases value with
  | scalar s =>
    rw [h.eq_scalar]
    refine ⟨declared, h_ok, ?_⟩
    unfold declaredParams at h_ok
    split at h_ok
    · cases h_ok
      exact .nil
    · cases h_ok
  | list items => cases h_ok
  | dict members =>
    cases h_ok
    obtain ⟨members', h_members', h_alike⟩ := h.dict? rfl
    refine ⟨members', ?_, h_alike⟩
    cases value' with
    | scalar s' => cases h_members'
    | list items' => cases h_members'
    | dict members'' =>
      cases h_members'
      rfl

theorem migrateNode_alike {rawNode rawNode' : Value × ℕ}
    (h : AlikeValue rules S rawNode.1 rawNode'.1)
    (h_plain : PlainColumns rules (rawNode.1.dict?.getD [])) {node : MigratedNode}
    (h_ok : migrateNode rules lookup rawNode = .ok node) :
    ∃ node', migrateNode rules lookup rawNode' = .ok node' ∧ AlikeMigrated rules S node node' := by
  obtain ⟨data, h_data, h_ok⟩ := Except.bind_eq_ok.mp h_ok
  obtain ⟨nodeId, h_id, h_ok⟩ := Except.bind_eq_ok.mp h_ok
  obtain ⟨declared, h_declared, rfl⟩ := Except.bind_pure_eq_ok.mp h_ok
  rw [Except.ofOption_eq_ok] at h_data h_id
  rw [h_data, Option.getD_some] at h_plain
  obtain ⟨data', h_data', h_alike⟩ := h.dict? h_data
  have h_id' := (get_known h_alike "id" (by decide)).nonEmpty?.trans h_id
  obtain ⟨declared', h_declared', h_alikeDeclared⟩ :=
    declaredParams_alike (get_known h_alike "params" (by decide)) h_declared
  refine ⟨assembleNode rules lookup data' nodeId declared', ?_,
    assembleNode_alike h_alike h_alikeDeclared h_plain⟩
  unfold migrateNode
  simp only [bind, Except.bind, Except.ofOption, h_data', h_id', h_declared']
  rfl

/-! ## Edges of version 1 -/

/-- Two stored edges that differ in secrets only. -/
structure AlikeStored (rules : TextRules) (S : Value → Value → Prop) (stored stored' : StoredEdge) :
    Prop where
  same : stored' = { stored with data := stored'.data }
  data : AlikeEntries rules S stored.data stored'.data

theorem explicitPort_alike {data data' : Params} (h : AlikeEntries rules S data data')
    {keys : List String} (h_keys : ∀ key ∈ keys, key ∈ knownKeys) :
    explicitPort data' keys = explicitPort data keys := by
  induction keys with
  | nil => rfl
  | cons key rest ih =>
    rw [List.forall_mem_cons] at h_keys
    have h_rest := ih h_keys.2
    unfold explicitPort at h_rest ⊢
    rw [List.findSome?_cons, List.findSome?_cons, h_rest,
      (get_known h key h_keys.1).nonEmpty?]

variable {stored : StoredEdge}

theorem readStoredEdge_alike {rawEdge rawEdge' : Value × ℕ}
    (h : AlikeValue rules S rawEdge.1 rawEdge'.1) (h_index : rawEdge'.2 = rawEdge.2)
    (h_ok : readStoredEdge rawEdge = .ok stored) :
    ∃ stored', readStoredEdge rawEdge' = .ok stored' ∧ AlikeStored rules S stored stored' := by
  obtain ⟨data, h_data, h_ok⟩ := Except.bind_eq_ok.mp h_ok
  obtain ⟨source, h_source, h_ok⟩ := Except.bind_eq_ok.mp h_ok
  obtain ⟨target, h_target, rfl⟩ := Except.bind_pure_eq_ok.mp h_ok
  rw [Except.ofOption_eq_ok] at h_data h_source h_target
  obtain ⟨data', h_data', h_alike⟩ := h.dict? h_data
  have h_source' := (get_known h_alike "source" (by decide)).nonEmpty?.trans h_source
  have h_target' := (get_known h_alike "target" (by decide)).nonEmpty?.trans h_target
  have h_id' := (get_known h_alike "id" (by decide)).nonEmpty?
  have h_sourcePort := explicitPort_alike h_alike (by decide : ∀ key ∈ v1SourcePortKeys, key ∈ knownKeys)
  have h_targetPort := explicitPort_alike h_alike (by decide : ∀ key ∈ v1TargetPortKeys, key ∈ knownKeys)
  refine ⟨{ data := data', source := source, target := target
            id := (data.get "id").nonEmpty?.getD (migratedEdgeId source target rawEdge.2)
            sourcePort := explicitPort data v1SourcePortKeys
            targetPort := explicitPort data v1TargetPortKeys }, ?_, ?_⟩
  · unfold readStoredEdge
    simp only [bind, Except.bind, Except.ofOption, h_data', h_source', h_target', h_id', h_index,
      h_sourcePort, h_targetPort]
    rfl
  · exact { same := rfl, data := h_alike }

/-- The same fate, for the same reason. -/
def AlikeOutcome (rules : TextRules) (S : Value → Value → Prop) : EdgeOutcome → EdgeOutcome → Prop
  | .migrated edge, .migrated edge' => edge' = edge
  | .unmigrated data issue, .unmigrated data' issue' => AlikeEntries rules S data data' ∧ issue' = issue
  | _, _ => False

/-- Two lookups of nodes that differ in kept values only. -/
def AlikeNodes (rules : TextRules) (S : Value → Value → Prop) (nodesById nodesById' : String → Option NodeSpec) :
    Prop :=
  ∀ nodeId, (nodesById nodeId = none ∧ nodesById' nodeId = none) ∨
    ∃ node node', nodesById nodeId = some node ∧ nodesById' nodeId = some node' ∧
      AlikeNode rules S node node'

theorem portAddress_alike {source source' target target' : NodeSpec} {stored' : StoredEdge}
    (h_source : AlikeNode rules S source source') (h_target : AlikeNode rules S target target')
    (h : AlikeStored rules S stored stored') (used : String → ℕ) :
    AlikeOutcome rules S (portAddress source target used stored)
      (portAddress source' target' used stored') := by
  rw [h.same]
  have h_sole : soleOutputPort source' = soleOutputPort source := by rw [h_source.same]; rfl
  have h_free : nextFreeInputPort target' used = nextFreeInputPort target used := by
    rw [h_target.same]; rfl
  have h_outputs : source'.outputs = source.outputs := by rw [h_source.same]
  unfold portAddress
  dsimp only
  rw [h_sole, h_free, h_outputs]
  cases namedOr stored.sourcePort (soleOutputPort source) with
  | ok sourcePort =>
    cases namedOr stored.targetPort (nextFreeInputPort target used) with
    | ok targetPort => exact rfl
    | error reason => exact ⟨h.data, rfl⟩
  | error reason =>
    cases namedOr stored.targetPort (nextFreeInputPort target used) with
    | ok targetPort => exact ⟨h.data, rfl⟩
    | error reason' => exact ⟨h.data, rfl⟩

theorem migrateEdge_alike {nodesById nodesById' : String → Option NodeSpec}
    (h_nodes : AlikeNodes rules S nodesById nodesById') {stored' : StoredEdge}
    (h : AlikeStored rules S stored stored') (occupied : Occupied) :
    AlikeOutcome rules S (migrateEdge nodesById occupied stored)
      (migrateEdge nodesById' occupied stored') := by
  have h_source : stored'.source = stored.source := by rw [h.same]
  have h_target : stored'.target = stored.target := by rw [h.same]
  unfold migrateEdge
  rw [h_source, h_target]
  rcases h_nodes stored.source with ⟨h_s, h_s'⟩ | ⟨source, source', h_s, h_s', h_sources⟩
  · rcases h_nodes stored.target with ⟨h_t, h_t'⟩ | ⟨target, target', h_t, h_t', h_targets⟩
    · rw [h_s, h_s', h_t, h_t', h.same]
      exact ⟨h.data, rfl⟩
    · rw [h_s, h_s', h_t, h_t', h.same]
      exact ⟨h.data, rfl⟩
  · rcases h_nodes stored.target with ⟨h_t, h_t'⟩ | ⟨target, target', h_t, h_t', h_targets⟩
    · rw [h_s, h_s', h_t, h_t', h.same]
      exact ⟨h.data, rfl⟩
    · rw [h_s, h_s', h_t, h_t']
      exact portAddress_alike h_sources h_targets h _

theorem AlikeOutcome.add {outcome outcome' : EdgeOutcome} (h : AlikeOutcome rules S outcome outcome')
    (occupied : Occupied) : occupied.add outcome' = occupied.add outcome := by
  cases outcome with
  | migrated edge =>
    cases outcome' with
    | migrated edge' => rw [show edge' = edge from h]
    | unmigrated data' issue' => exact h.elim
  | unmigrated data issue =>
    cases outcome' with
    | migrated edge' => exact h.elim
    | unmigrated data' issue' => rfl

theorem migrateEdges_alike {nodesById nodesById' : String → Option NodeSpec}
    (h_nodes : AlikeNodes rules S nodesById nodesById') {edges edges' : List StoredEdge}
    (h : List.Forall₂ (AlikeStored rules S) edges edges') (occupied : Occupied) :
    List.Forall₂ (AlikeOutcome rules S) (migrateEdges nodesById occupied edges)
      (migrateEdges nodesById' occupied edges') := by
  induction h generalizing occupied with
  | nil => exact .nil
  | cons h_stored _ ih =>
    have h_outcome := migrateEdge_alike h_nodes h_stored occupied
    rw [migrateEdges, migrateEdges]
    refine .cons h_outcome ?_
    rw [h_outcome.add]
    exact ih _

/-! ## Graphs of version 1 -/

theorem rawList_alike (h : AlikeEntries rules S raw raw') {key legacyKey : String}
    (h_key : key ∈ knownKeys) (h_legacy : legacyKey ∈ knownKeys) {items : List Value}
    (h_ok : rawList raw key legacyKey = .ok items) :
    ∃ items', rawList raw' key legacyKey = .ok items' ∧
      List.Forall₂ (AlikeValue rules S) items items' := by
  unfold rawList at h_ok ⊢
  dsimp only at h_ok ⊢
  rw [isNone_alike (get_known h key h_key), isNone_alike (get_known h legacyKey h_legacy)]
  split_ifs at h_ok ⊢
  · obtain ⟨items', h_items', h_alike⟩ :=
      (get_known h key h_key).list? (Except.ofOption_eq_ok.mp h_ok)
    exact ⟨items', Except.ofOption_eq_ok.mpr h_items', h_alike⟩
  · obtain ⟨items', h_items', h_alike⟩ :=
      (get_known h legacyKey h_legacy).list? (Except.ofOption_eq_ok.mp h_ok)
    exact ⟨items', Except.ofOption_eq_ok.mpr h_items', h_alike⟩
  · cases h_ok
    exact ⟨[], rfl, .nil⟩

structure AlikeReadings (rules : TextRules) (S : Value → Value → Prop) (readings readings' : Readings) :
    Prop where
  nodes : List.Forall₂ (AlikeMigrated rules S) readings.nodes readings'.nodes
  edges : List.Forall₂ (AlikeStored rules S) readings.edges readings'.edges

theorem normalizeSchemaVersion_alike (h : AlikeValue rules S value value') {version : ℤ}
    (h_ok : normalizeSchemaVersion value = .ok version) :
    normalizeSchemaVersion value' = .ok version := by
  cases value with
  | scalar s =>
    rw [h.eq_scalar]
    exact h_ok
  | list items => cases h_ok
  | dict members => cases h_ok

variable {readings readings' : Readings}

theorem readV1_alike (h : AlikeEntries rules S raw raw')
    (h_plain : ∀ node ∈ storedItems raw "nodes" "_nodes", PlainColumns rules (node.dict?.getD []))
    (h_ok : readV1 rules lookup raw = .ok readings) :
    ∃ readings', readV1 rules lookup raw' = .ok readings' ∧ AlikeReadings rules S readings readings' := by
  obtain ⟨declared, h_declared, h_ok⟩ := Except.bind_eq_ok.mp h_ok
  obtain ⟨passed, h_one, h_ok⟩ := Except.bind_eq_ok.mp h_ok
  obtain ⟨rawNodes, h_rawNodes, h_ok⟩ := Except.bind_eq_ok.mp h_ok
  obtain ⟨nodes, h_nodes, h_ok⟩ := Except.bind_eq_ok.mp h_ok
  obtain ⟨rawEdges, h_rawEdges, h_ok⟩ := Except.bind_eq_ok.mp h_ok
  obtain ⟨edges, h_edges, rfl⟩ := Except.bind_pure_eq_ok.mp h_ok
  have h_declared' := normalizeSchemaVersion_alike (get_known h "schema_version" (by decide)) h_declared
  obtain ⟨rawNodes', h_rawNodes', h_alikeNodes⟩ := rawList_alike h (by decide) (by decide) h_rawNodes
  obtain ⟨rawEdges', h_rawEdges', h_alikeEdges⟩ := rawList_alike h (by decide) (by decide) h_rawEdges
  rw [storedItems, h_rawNodes] at h_plain
  obtain ⟨nodes', h_nodes', h_migrated⟩ := forall₂_mapM (forall₂_zipIdx h_alikeNodes 0) h_nodes
    fun rawNode h_rawNode rawNode' node h_like h_node => by
      have h_mem : rawNode.1 ∈ rawNodes := by
        rw [← List.zipIdx_map_fst 0 rawNodes]
        exact List.mem_map_of_mem h_rawNode
      exact migrateNode_alike h_like.1 (h_plain rawNode.1 h_mem) h_node
  obtain ⟨edges', h_edges', h_stored⟩ := forall₂_mapM (forall₂_zipIdx h_alikeEdges 0) h_edges
    fun rawEdge _ rawEdge' stored h_like h_stored =>
      readStoredEdge_alike h_like.1 h_like.2 h_stored
  refine ⟨{ nodes := nodes', edges := edges' }, ?_, { nodes := h_migrated, edges := h_stored }⟩
  unfold readV1
  simp only [bind, Except.bind, h_declared', h_one, h_rawNodes', h_nodes', h_rawEdges', h_edges']
  rfl

theorem firstWithId_alike {nodes nodes' : List MigratedNode}
    (h : List.Forall₂ (AlikeMigrated rules S) nodes nodes') :
    AlikeNodes rules S (firstWithId (nodes.map MigratedNode.node))
      (firstWithId (nodes'.map MigratedNode.node)) := by
  intro nodeId
  unfold firstWithId
  induction h with
  | nil => exact .inl ⟨rfl, rfl⟩
  | @cons migrated migrated' rest rest' h_first _ ih =>
    have h_id : migrated'.node.id = migrated.node.id := by rw [h_first.node.same]
    rw [List.map_cons, List.map_cons]
    by_cases h_eq : migrated.node.id = nodeId
    · refine .inr ⟨migrated.node, migrated'.node, ?_, ?_, h_first.node⟩
      · rw [List.find?_cons_of_pos (by simpa using h_eq)]
      · rw [List.find?_cons_of_pos (by simpa [h_id] using h_eq)]
    · rw [List.find?_cons_of_neg (by simpa using h_eq),
        List.find?_cons_of_neg (by simpa [h_id] using h_eq)]
      exact ih

theorem AlikeReadings.nodesById (h : AlikeReadings rules S readings readings') :
    AlikeNodes rules S readings.nodesById readings'.nodesById :=
  firstWithId_alike h.nodes

theorem AlikeReadings.outcomes (h : AlikeReadings rules S readings readings') :
    List.Forall₂ (AlikeOutcome rules S) readings.outcomes readings'.outcomes :=
  migrateEdges_alike h.nodesById h.edges _

theorem forall₂_filterMap {α β : Type} {R : α → α → Prop} {r : β → β → Prop} {f : α → Option β}
    {l l' : List α} (h : List.Forall₂ R l l')
    (h_f : ∀ a a', R a a' → (f a = none ∧ f a' = none) ∨ ∃ b b', f a = some b ∧ f a' = some b' ∧ r b b') :
    List.Forall₂ r (l.filterMap f) (l'.filterMap f) := by
  induction h with
  | nil => exact .nil
  | @cons a a' _ _ h_head _ ih =>
    rcases h_f a a' h_head with ⟨h_a, h_a'⟩ | ⟨b, b', h_a, h_a', h_r⟩
    · rw [List.filterMap_cons_none h_a, List.filterMap_cons_none h_a']
      exact ih
    · rw [List.filterMap_cons_some h_a, List.filterMap_cons_some h_a']
      exact .cons h_r ih

theorem edges_alike {outcomes outcomes' : List EdgeOutcome}
    (h : List.Forall₂ (AlikeOutcome rules S) outcomes outcomes') :
    outcomes'.filterMap EdgeOutcome.edge? = outcomes.filterMap EdgeOutcome.edge? := by
  have h_eq := @forall₂_filterMap _ _ _ Eq EdgeOutcome.edge? _ _ h fun outcome outcome' h_outcome => by
    cases outcome with
    | migrated edge =>
      cases outcome' with
      | migrated edge' => exact .inr ⟨edge, edge', rfl, rfl, (show edge' = edge from h_outcome).symm⟩
      | unmigrated data' issue' => exact h_outcome.elim
    | unmigrated data issue =>
      cases outcome' with
      | migrated edge' => exact h_outcome.elim
      | unmigrated data' issue' => exact .inl ⟨rfl, rfl⟩
  rw [List.forall₂_eq_eq_eq] at h_eq
  exact h_eq.symm

theorem unmigrated_alike {outcomes outcomes' : List EdgeOutcome}
    (h : List.Forall₂ (AlikeOutcome rules S) outcomes outcomes') :
    List.Forall₂ (AlikeEntries rules S) (outcomes.filterMap EdgeOutcome.unmigrated?)
      (outcomes'.filterMap EdgeOutcome.unmigrated?) :=
  forall₂_filterMap h fun outcome outcome' h_outcome => by
    cases outcome with
    | migrated edge =>
      cases outcome' with
      | migrated edge' => exact .inl ⟨rfl, rfl⟩
      | unmigrated data' issue' => exact h_outcome.elim
    | unmigrated data issue =>
      cases outcome' with
      | migrated edge' => exact h_outcome.elim
      | unmigrated data' issue' => exact .inr ⟨data, data', rfl, rfl, h_outcome.1⟩

theorem alike_endpointsOf (stored : StoredEdge) :
    AlikeValue rules S (endpointsOf stored) (endpointsOf stored) :=
  alike_dict_iff.mpr (.cons (.known (by decide) (Alike.text _)) (.cons (.known (by decide) (Alike.text _)) .nil))

theorem migrateEdge_issue_alike (nodesById : String → Option NodeSpec) (occupied : Occupied)
    (stored : StoredEdge) (h : (migrateEdge nodesById occupied stored).issue? = some issue) :
    AlikeIssue rules S issue issue := by
  have h_ends := @alike_endpointsOf rules S stored
  revert h
  unfold migrateEdge
  split
  · unfold portAddress
    split
    · intro h
      cases h
    all_goals
      intro h
      cases h
      exact .refl (Alike.text _) h_ends
  all_goals
    intro h
    cases h
    exact .refl (Alike.text _) h_ends

theorem edgeIssues_alike {nodesById nodesById' : String → Option NodeSpec}
    (h_nodes : AlikeNodes rules S nodesById nodesById') {edges edges' : List StoredEdge}
    (h : List.Forall₂ (AlikeStored rules S) edges edges') (occupied : Occupied) :
    List.Forall₂ (AlikeIssue rules S)
      ((migrateEdges nodesById occupied edges).filterMap EdgeOutcome.issue?)
      ((migrateEdges nodesById' occupied edges').filterMap EdgeOutcome.issue?) := by
  induction h generalizing occupied with
  | nil => exact .nil
  | @cons stored stored' _ _ h_stored _ ih =>
    have h_outcome := migrateEdge_alike h_nodes h_stored occupied
    rw [migrateEdges, migrateEdges, h_outcome.add]
    have h_issue := fun issue => @migrateEdge_issue_alike rules S issue nodesById occupied stored
    revert h_outcome h_issue
    generalize migrateEdge nodesById occupied stored = outcome
    generalize migrateEdge nodesById' occupied stored' = outcome'
    intro h_outcome h_issue
    cases outcome with
    | migrated edge =>
      cases outcome' with
      | migrated edge' =>
        rw [List.filterMap_cons_none rfl, List.filterMap_cons_none rfl]
        exact ih _
      | unmigrated data' issue' => exact h_outcome.elim
    | unmigrated data issue =>
      cases outcome' with
      | migrated edge' => exact h_outcome.elim
      | unmigrated data' issue' =>
        have h_same : issue' = issue := h_outcome.2
        subst h_same
        exact .cons (h_issue _ rfl) (ih _)

theorem envelopeIssues_alike (h : AlikeEntries rules S raw raw') :
    List.Forall₂ (AlikeIssue rules S) (envelopeIssues raw) (envelopeIssues raw') := by
  unfold envelopeIssues forbiddenEnvelopeFields
  rcases get?_known h "exchange" (by decide) with ⟨h_none, h_none'⟩ | ⟨v, v', h_v, h_v', -⟩
  · simp [h_none, h_none']
  · rw [List.filter_cons_of_pos (by rw [h_v]; rfl), List.filter_cons_of_pos (by rw [h_v']; rfl)]
    exact .cons { same := rfl, expected := alike_none, actual := get_known h "exchange" (by decide) } .nil

theorem nodeIssues_alike {nodes nodes' : List MigratedNode}
    (h : List.Forall₂ (AlikeMigrated rules S) nodes nodes') :
    List.Forall₂ (AlikeIssue rules S) (nodes.flatMap MigratedNode.issues)
      (nodes'.flatMap MigratedNode.issues) := by
  induction h with
  | nil => exact .nil
  | cons h_first _ ih =>
    rw [List.flatMap_cons, List.flatMap_cons]
    exact List.rel_append h_first.issues ih

theorem migrationIssuesOf_alike (h : AlikeEntries rules S raw raw')
    (h_readings : AlikeReadings rules S readings readings') :
    List.Forall₂ (AlikeIssue rules S) (migrationIssuesOf lookup raw readings)
      (migrationIssuesOf lookup raw' readings') := by
  refine List.rel_append (List.rel_append (List.rel_append (envelopeIssues_alike h) ?_)
    (nodeIssues_alike h_readings.nodes)) (edgeIssues_alike h_readings.nodesById h_readings.edges _)
  split_ifs
  · exact .cons (.refl (Alike.text _) alike_none) .nil
  · exact .nil

theorem toDict_issue_alike {issue' : MigrationIssue} (h : AlikeIssue rules S issue issue') :
    AlikeValue rules S issue.toDict issue'.toDict := by
  have h_optText : ∀ text : Option String, AlikeValue rules S (.optText text) (.optText text) := by
    intro text
    cases text with
    | none => exact alike_none
    | some text => exact Alike.text text
  have h_actual := h.actual
  have h_expected := h.expected
  rw [h.same] at h_expected ⊢
  unfold MigrationIssue.toDict
  refine alike_dict_iff.mpr (.cons ?_ (.cons ?_ (.cons ?_ (.cons ?_ (.cons ?_ (.cons ?_ (.cons ?_
    (.cons ?_ (.cons ?_ .nil)))))))))
  · exact .known (by decide) (Alike.text _)
  · exact .known (by decide) (Alike.text _)
  · exact .known (by decide) (h_optText _)
  · exact .known (by decide) (h_optText _)
  · exact .known (by decide) (h_optText _)
  · exact .known (by decide) (Alike.text _)
  · exact .known (by decide) h_expected
  · exact .known (by decide) h_actual
  · exact .known (by decide) (Alike.text _)

theorem migratedMetadata_alike (h : AlikeEntries rules S raw raw')
    (h_readings : AlikeReadings rules S readings readings') :
    AlikeEntries rules S (migratedMetadata lookup raw readings)
      (migratedMetadata lookup raw' readings') := by
  have h_stored := alike_filter (alike_getD (get_known h "metadata" (by decide)))
    fun key => decide (key ∉ forbiddenEnvelopeFields)
  have h_unresolved : ∀ {nodes nodes' : List MigratedNode},
      List.Forall₂ (AlikeMigrated rules S) nodes nodes' →
      (nodes'.filter MigratedNode.unresolved).map (fun node => node.node.id)
        = (nodes.filter MigratedNode.unresolved).map fun node => node.node.id := by
    intro nodes nodes' h_nodes
    induction h_nodes with
    | nil => rfl
    | @cons node node' _ _ h_first _ ih =>
      have h_id : node'.node.id = node.node.id := by rw [h_first.node.same]
      rw [List.filter_cons, List.filter_cons, h_first.unresolved]
      split_ifs
      · rw [List.map_cons, List.map_cons, h_id, ih]
      · exact ih
  have h_texts : ∀ texts : List String, AlikeValue rules S (.list (texts.map Value.text))
      (.list (texts.map Value.text)) := by
    intro texts
    refine alike_list_iff.mpr ?_
    induction texts with
    | nil => exact .nil
    | cons text rest ih => exact .cons (Alike.text text) ih
  have h_scalar : ∀ s : Scalar, AlikeValue rules S (.scalar s) (.scalar s) := fun s => by
    unfold AlikeValue
    rw [Alike]
  unfold migratedMetadata
  dsimp only
  rw [h_unresolved h_readings.nodes]
  refine alike_putParam h_stored (.known (by decide) ?_)
  unfold migrationReport
  refine alike_dict_iff.mpr (.cons ?_ (.cons ?_ (.cons ?_ (.cons ?_ (.cons ?_ (.cons ?_ (.cons ?_
    .nil)))))))
  · exact .known (by decide) (h_scalar _)
  · exact .known (by decide) (h_scalar _)
  · exact .known (by decide) (h_scalar _)
  · exact .known (by decide) (h_scalar _)
  · exact .known (by decide) (h_texts _)
  · refine .known (by decide) (alike_list_iff.mpr ?_)
    rw [List.forall₂_map_left_iff, List.forall₂_map_right_iff]
    exact (unmigrated_alike h_readings.outcomes).imp fun _ _ h_data => alike_dict_iff.mpr h_data
  · refine .known (by decide) (alike_list_iff.mpr ?_)
    rw [List.forall₂_map_left_iff, List.forall₂_map_right_iff]
    exact (migrationIssuesOf_alike h h_readings).imp fun _ _ h_issue => toDict_issue_alike h_issue

theorem migratedGraph_alike (h : AlikeEntries rules S raw raw') (h_plain : PlainEnvelope rules raw)
    (h_readings : AlikeReadings rules S readings readings') :
    AlikeGraph rules S (migratedGraph rules lookup raw readings)
      (migratedGraph rules lookup raw' readings') := by
  obtain ⟨h_strategyId, h_version, h_name⟩ := h_plain.get_eq h
  have h_any : ∀ {issues issues' : List MigrationIssue},
      List.Forall₂ (AlikeIssue rules S) issues issues' →
      (issues'.any fun issue => issue.severity = severityError)
        = issues.any fun issue => issue.severity = severityError := by
    intro issues issues' h_issues
    induction h_issues with
    | nil => rfl
    | @cons issue issue' _ _ h_first _ ih =>
      have h_severity : issue'.severity = issue.severity := by rw [h_first.same]
      rw [List.any_cons, List.any_cons, h_severity, ih]
  have h_state := h_any (@migrationIssuesOf_alike rules S _ _ lookup _ _ h h_readings)
  refine { same := ?_, nodes := ?_, metadata := migratedMetadata_alike h h_readings }
  · unfold migratedGraph
    rw [h_strategyId, h_version, h_name, h_state, edges_alike h_readings.outcomes]
  · show List.Forall₂ _ (readings.nodes.map MigratedNode.node) (readings'.nodes.map MigratedNode.node)
    rw [List.forall₂_map_left_iff, List.forall₂_map_right_iff]
    exact h_readings.nodes.imp fun _ _ h_node => h_node.node

end VyomQuant.StrategyDag
