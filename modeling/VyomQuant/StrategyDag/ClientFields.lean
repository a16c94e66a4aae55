/-
  VyomQuant.StrategyDag.ClientFields

  The server trusts nothing that the client derived.  Two graphs with the same authored part
  have the same verdict, hash and levels, and where they are resolved the same warmup and the
  same canonical graph, up to the order of its lists and `ui`.

  Validating a canonical graph again changes nothing, and overrides nothing: what a client
  can send wrong is what the registry publishes already.
-/

import VyomQuant.StrategyDag.Verdict

namespace VyomQuant.StrategyDag

open Digraph (Reaches converse successors)

variable {registry : Registry} {options : Options} {g g' : StrategyGraph} {state state' : ValidationState}

/-! ## Warmup -/

theorem maxOrZero_congr {values values' : List ℤ} (h : ∀ v, v ∈ values ↔ v ∈ values') :
    maxOrZero values = maxOrZero values' := by
  unfold maxOrZero
  cases h_max : values.max? with
  | none =>
    rw [List.max?_eq_none_iff] at h_max
    subst h_max
    have h_nil : values' = [] := List.eq_nil_iff_forall_not_mem.mpr fun v h_v => by
      cases (h v).mpr h_v
    rw [h_nil]
    rfl
  | some most =>
    obtain ⟨h_mem, h_le⟩ := List.max?_eq_some_iff.mp h_max
    have h_max' : values'.max? = some most :=
      List.max?_eq_some_iff.mpr ⟨(h most).mp h_mem, fun v h_v => h_le v ((h v).mpr h_v)⟩
    rw [h_max']

theorem nodeIndex_congr (h_resolved : Resolved registry g) (h : g.authored = g'.authored)
    {nodeId : String} {node : NodeSpec} (h_node : g.nodeIndex nodeId = some node) :
    ∃ node', g'.nodeIndex nodeId = some node' ∧ node'.authored = node.authored := by
  obtain ⟨h_mem, h_id⟩ := StrategyGraph.nodeIndex_eq_some h_node
  obtain ⟨node', h_mem', h_authored⟩ := exists_node h.symm h_mem
  have h_id' : node'.id = node.id := congrArg AuthoredNode.id h_authored
  refine ⟨node', ?_, h_authored⟩
  rw [← h_id, ← h_id']
  exact StrategyGraph.nodeIndex_of_mem (h_resolved.congr h).nodup h_mem'

theorem composeWarmups_congr (h_resolved : Resolved registry g) (h : g.authored = g'.authored)
    (order : List String) (warmups : List (String × ℤ)) :
    composeWarmups registry g order warmups = composeWarmups registry g' order warmups := by
  induction order generalizing warmups with
  | nil => rfl
  | cons nodeId rest ih =>
    rw [composeWarmups, composeWarmups]
    cases h_node : g.nodeIndex nodeId with
    | none =>
      have h_node' : g'.nodeIndex nodeId = none := by
        rw [← Option.not_isSome_iff_eq_none, isSome_nodeIndex, ← mem_nodeIds_congr h,
          ← isSome_nodeIndex, h_node]
        nofun
      rw [h_node']
      exact ih warmups
    | some node =>
      obtain ⟨node', h_node', h_authored⟩ := nodeIndex_congr h_resolved h h_node
      have h_id : node'.id = node.id := congrArg AuthoredNode.id h_authored
      have h_params : node'.params = node.params := congrArg AuthoredNode.params h_authored
      have h_own : ownWarmup registry g node = ownWarmup registry g' node' := by
        rw [ownWarmup, ownWarmup, h_id, h_params, h_resolved.descriptorOf_congr h]
      have h_upstream : maxOrZero ((successors (converse (arcs g)) nodeId).map (warmupAt warmups))
          = maxOrZero ((successors (converse (arcs g')) nodeId).map (warmupAt warmups)) := by
        refine maxOrZero_congr fun v => ?_
        simp only [List.mem_map, Digraph.mem_successors, Digraph.arc_converse, arc_congr h]
      rw [h_node']
      dsimp only
      rw [h_own, h_upstream]
      exact ih _

theorem warmupOf_congr (h_resolved : Resolved registry g) (h : g.authored = g'.authored) :
    warmupOf registry g = warmupOf registry g' := by
  have h_total : ∀ warmups, totalWarmup registry g warmups = totalWarmup registry g' warmups := by
    intro warmups
    have h_nil : idsIn registry g .ACTION = [] ↔ idsIn registry g' .ACTION = [] := by
      rw [List.eq_nil_iff_forall_not_mem, List.eq_nil_iff_forall_not_mem]
      simp only [h_resolved.mem_idsIn_congr h]
    unfold totalWarmup
    refine maxOrZero_congr fun v => ?_
    by_cases h_action : idsIn registry g .ACTION = []
    · simp only [if_pos h_action, if_pos (h_nil.mp h_action)]
    · simp only [if_neg h_action, if_neg (mt h_nil.mpr h_action), List.mem_map,
        h_resolved.mem_idsIn_congr h]
  have h_compose : composeWarmup registry g = composeWarmup registry g' := by
    unfold composeWarmup
    dsimp only
    rw [executionOrder_congr h, composeWarmups_congr h_resolved h, h_total]
  unfold warmupOf
  simp only [cycleIn_eq_nil_congr h, h_compose]

/-! ## The canonical graph -/

theorem authored_recomputeNode (node : NodeSpec) :
    (recomputeNode registry g node).authored = node.authored := by
  unfold recomputeNode
  split <;> rfl

theorem authored_recomputeGraph : (recomputeGraph registry g state).authored = g.authored := by
  have h_nodes : (g.nodes.map (recomputeNode registry g)).map NodeSpec.authored
      = g.nodes.map NodeSpec.authored := by
    rw [List.map_map]
    exact List.map_congr_left fun node _ => authored_recomputeNode node
  have h_edges : (g.edges.map (recomputeEdge registry g)).map EdgeSpec.authored
      = g.edges.map EdgeSpec.authored := by
    rw [List.map_map]
    rfl
  unfold StrategyGraph.authored recomputeGraph
  dsimp only
  rw [h_nodes, h_edges]

theorem nodeIds_recomputeGraph : (recomputeGraph registry g state).nodeIds = g.nodeIds := by
  have h_ids : ∀ node, (recomputeNode registry g node).id = node.id := fun node =>
    congrArg AuthoredNode.id (authored_recomputeNode node)
  unfold StrategyGraph.nodeIds recomputeGraph
  rw [List.map_map]
  exact List.map_congr_left fun node _ => h_ids node

/-- The node that the server makes of an authored one. -/
def publishedNode (registry : Registry) (g : StrategyGraph) (node : AuthoredNode) : Option NodeSpec :=
  (descriptorOf registry g node.id).map fun descriptor =>
    { id := node.id, blockId := node.blockId, category := descriptor.category
      params := node.params, inputs := descriptor.inputs, outputs := descriptor.outputs, ui := [] }

/-- A node without where the client drew it. -/
def NodeSpec.withoutUi (node : NodeSpec) : NodeSpec := { node with ui := [] }

theorem withoutUi_recomputeNode (h_resolved : Resolved registry g) {node : NodeSpec}
    (h_node : node ∈ g.nodes) :
    some (recomputeNode registry g node).withoutUi = publishedNode registry g node.authored := by
  obtain ⟨descriptor, h_descriptor⟩ := h_resolved.exists_descriptor h_node
  unfold publishedNode NodeSpec.authored
  dsimp only
  rw [h_descriptor, recomputeNode, h_descriptor]
  rfl

theorem nodes_recomputeGraph_perm (h_resolved : Resolved registry g) (h : g.authored = g'.authored) :
    ((recomputeGraph registry g state).nodes.map NodeSpec.withoutUi).Perm
      ((recomputeGraph registry g' state').nodes.map NodeSpec.withoutUi) := by
  have h_published : ∀ {g : StrategyGraph} {state : ValidationState}, Resolved registry g →
      ((recomputeGraph registry g state).nodes.map NodeSpec.withoutUi).map some
        = (g.nodes.map NodeSpec.authored).map (publishedNode registry g) := by
    intro g state h_resolved
    unfold recomputeGraph
    rw [List.map_map, List.map_map, List.map_map]
    exact List.map_congr_left fun node h_node => withoutUi_recomputeNode h_resolved h_node
  have h_same : publishedNode registry g = publishedNode registry g' := by
    funext node
    rw [publishedNode, publishedNode, h_resolved.descriptorOf_congr h]
  have h_perm : (((recomputeGraph registry g state).nodes.map NodeSpec.withoutUi).map some).Perm
      (((recomputeGraph registry g' state').nodes.map NodeSpec.withoutUi).map some) := by
    rw [h_published h_resolved, h_published (h_resolved.congr h), h_same]
    exact (nodes_perm h).map _
  have h_back := h_perm.filterMap id
  rw [List.filterMap_map, List.filterMap_map] at h_back
  simpa using h_back

/-- Every edge leaves from a port that its source's block publishes. -/
def PortsPublished (registry : Registry) (g : StrategyGraph) : Prop :=
  ∀ edge ∈ g.edges, (sourceType registry g edge).isSome

variable {edge : EdgeSpec}

theorem sourceType_congr (h_resolved : Resolved registry g) (h : g.authored = g'.authored)
    {edge' : EdgeSpec} (h_edge : edge.authored = edge'.authored) :
    sourceType registry g edge = sourceType registry g' edge' := by
  have h_source : edge.source = edge'.source := congrArg AuthoredEdge.source h_edge
  have h_port : edge.sourcePort = edge'.sourcePort := congrArg AuthoredEdge.sourcePort h_edge
  rw [sourceType, sourceType, h_source, h_port, h_resolved.descriptorOf_congr h]

/-- An edge as it was authored, with the type of its source port. -/
def typedEdge (registry : Registry) (g : StrategyGraph) (edge : AuthoredEdge) : EdgeSpec :=
  let untyped : EdgeSpec :=
    { id := edge.id, source := edge.source, sourcePort := edge.sourcePort
      target := edge.target, targetPort := edge.targetPort, type := none }
  { untyped with type := sourceType registry g untyped }

theorem edges_recomputeGraph_perm (h_resolved : Resolved registry g) (h : g.authored = g'.authored)
    (h_ports : PortsPublished registry g) :
    (recomputeGraph registry g state).edges.Perm (recomputeGraph registry g' state').edges := by
  have h_typed : ∀ {g : StrategyGraph} {state : ValidationState}, PortsPublished registry g →
      (recomputeGraph registry g state).edges
        = (g.edges.map EdgeSpec.authored).map (typedEdge registry g) := by
    intro g state h_ports
    unfold recomputeGraph
    rw [List.map_map]
    refine List.map_congr_left fun edge h_edge => ?_
    obtain ⟨type, h_type⟩ := Option.isSome_iff_exists.mp (h_ports edge h_edge)
    have h_untyped : sourceType registry g
        { id := edge.id, source := edge.source, sourcePort := edge.sourcePort
          target := edge.target, targetPort := edge.targetPort, type := none } = some type := h_type
    unfold recomputeEdge
    rw [Function.comp_apply, EdgeSpec.authored, typedEdge, h_untyped, h_type]
    rfl
  have h_ports' : PortsPublished registry g' := by
    intro edge' h_edge'
    obtain ⟨edge, h_edge, h_authored⟩ := exists_edge h h_edge'
    rw [← sourceType_congr h_resolved h h_authored]
    exact h_ports edge h_edge
  have h_same : typedEdge registry g = typedEdge registry g' := by
    funext edge
    unfold typedEdge
    dsimp only
    rw [sourceType_congr h_resolved h rfl]
  rw [h_typed h_ports, h_typed h_ports', h_same]
  exact (edges_perm h).map _

/-- The same up to the order of the lists and `ui`. -/
structure SameUpToOrder (g g' : StrategyGraph) : Prop where
  schemaVersion : g.schemaVersion = g'.schemaVersion
  strategyId : g.strategyId = g'.strategyId
  version : g.version = g'.version
  name : g.name = g'.name
  nodes : (g.nodes.map NodeSpec.withoutUi).Perm (g'.nodes.map NodeSpec.withoutUi)
  edges : g.edges.Perm g'.edges
  migrationIssues : g.migrationIssues = g'.migrationIssues
  validationState : g.validationState = g'.validationState

theorem recomputeGraph_congr (h_resolved : Resolved registry g) (h : g.authored = g'.authored)
    (h_ports : PortsPublished registry g) :
    SameUpToOrder (recomputeGraph registry g state) (recomputeGraph registry g' state) where
  schemaVersion := congrArg Authored.schemaVersion h
  strategyId := congrArg Authored.strategyId h
  version := congrArg Authored.version h
  name := congrArg Authored.name h
  nodes := nodes_recomputeGraph_perm h_resolved h
  edges := edges_recomputeGraph_perm h_resolved h h_ports
  migrationIssues := congrArg Authored.migrationIssues h
  validationState := rfl

/-- The hash is taken of what the registry publishes, so `ui` and the order are not in it. -/
theorem computeDagHash_recomputeGraph (h_resolved : Resolved registry g)
    (h : g.authored = g'.authored) :
    computeDagHash (recomputeGraph registry g state)
      = computeDagHash (recomputeGraph registry g' state') := by
  have h_published : ((recomputeGraph registry g state).nodes.map NodeSpec.withoutUi).Perm
      ((recomputeGraph registry g' state').nodes.map NodeSpec.withoutUi) :=
    nodes_recomputeGraph_perm h_resolved h
  have h_nodes := h_published.map hashedNode
  rw [List.map_map, List.map_map] at h_nodes
  refine computeDagHash_congr (congrArg Authored.schemaVersion h) ?_ h_nodes ?_
  · rw [nodeIds_recomputeGraph]
    exact h_resolved.nodup
  · have h_edges := edges_map_perm h fun edge =>
      [edge.source, edge.sourcePort, edge.target, edge.targetPort]
    unfold recomputeGraph
    rw [List.map_map, List.map_map]
    exact h_edges

/-! ## Validating again -/

theorem isSome_sourceType (h_resolved : Resolved registry g) (h_source : edge.source ∈ g.nodeIds)
    (h_target : edge.target ∈ g.nodeIds) (h_legal : isEdgeLegal registry g edge = none) :
    (sourceType registry g edge).isSome := by
  obtain ⟨src, h_src, h_src_id⟩ := StrategyGraph.mem_nodeIds.mp h_source
  obtain ⟨dst, h_dst, h_dst_id⟩ := StrategyGraph.mem_nodeIds.mp h_target
  unfold isEdgeLegal at h_legal
  rw [← h_src_id, ← h_dst_id, StrategyGraph.node_of_mem h_resolved.nodup h_src,
    StrategyGraph.node_of_mem h_resolved.nodup h_dst] at h_legal
  dsimp only at h_legal
  split at h_legal
  · cases h_legal
  · split at h_legal
    · cases h_legal
    · split at h_legal
      · cases h_legal
      · unfold portsIssue at h_legal
        unfold sourceType
        rw [← h_src_id]
        split at h_legal
        · cases h_legal
        · rename_i outPort h_port
          rw [h_port]
          rfl

theorem severity_portsIssue {src dst : String}
    {srcDescriptor dstDescriptor : Option BlockDescriptor} {issue : Issue}
    (h : portsIssue g edge src dst srcDescriptor dstDescriptor = some issue) :
    issue.severity = .error := by
  unfold portsIssue at h
  split at h
  · cases h
    rfl
  · split at h
    · cases h
      rfl
    · split at h
      · cases h
        rfl
      · split at h
        · cases h
          rfl
        · cases h

theorem severity_isEdgeLegal {issue : Issue} (h : isEdgeLegal registry g edge = some issue) :
    issue.severity = .error := by
  unfold isEdgeLegal at h
  split at h
  · dsimp only at h
    split at h
    · cases h
      rfl
    · split at h
      · cases h
        rfl
      · split at h
        · cases h
          rfl
        · exact severity_portsIssue h
  · cases h
    rfl

theorem Clear.isEdgeLegal_eq_none (h_clear : Clear registry options g) (h_edge : edge ∈ g.edges) :
    isEdgeLegal registry g edge = none := by
  obtain ⟨-, -, -, -, h_ends, -⟩ := structuralIssues_eq_nil_iff.mp h_clear.structural
  by_contra h_issue
  obtain ⟨issue, h_issue⟩ := Option.ne_none_iff_exists'.mp h_issue
  refine h_clear.edges issue ?_ (severity_isEdgeLegal h_issue)
  refine List.mem_filterMap.mpr ⟨edge, List.mem_filter.mpr ⟨h_edge, ?_⟩, h_issue⟩
  exact decide_eq_true (h_ends edge h_edge)

theorem Clear.portsPublished (h_clear : Clear registry options g) : PortsPublished registry g := by
  obtain ⟨-, -, -, -, h_ends, -⟩ := structuralIssues_eq_nil_iff.mp h_clear.structural
  intro edge h_edge
  exact isSome_sourceType h_clear.resolved (h_ends edge h_edge).1 (h_ends edge h_edge).2
    (h_clear.isEdgeLegal_eq_none h_edge)

/-- In a graph that the server recomputed there is nothing left to override. -/
theorem clientOverrides_recomputeGraph (h_resolved : Resolved registry g) :
    clientOverrides registry (recomputeGraph registry g state) state = [] := by
  have h_authored : (recomputeGraph registry g state).authored = g.authored := authored_recomputeGraph
  have h_descriptors : descriptorOf registry (recomputeGraph registry g state) = descriptorOf registry g :=
    (h_resolved.descriptorOf_congr h_authored.symm).symm
  have h_ids : ∀ node, (recomputeNode registry g node).id = node.id := fun node =>
    congrArg AuthoredNode.id (authored_recomputeNode node)
  have h_nodes : ∀ node ∈ g.nodes,
      nodeOverrides registry (recomputeGraph registry g state) (recomputeNode registry g node) = [] := by
    intro node h_node
    obtain ⟨descriptor, h_descriptor⟩ := h_resolved.exists_descriptor h_node
    unfold nodeOverrides
    rw [h_descriptors, h_ids, h_descriptor]
    simp [recomputeNode, h_descriptor]
  have h_edges : ∀ edge ∈ g.edges,
      edgeOverrides registry (recomputeGraph registry g state) (recomputeEdge registry g edge) = [] := by
    intro edge _
    have h_type : sourceType registry (recomputeGraph registry g state) (recomputeEdge registry g edge)
        = sourceType registry g edge := by
      unfold sourceType
      rw [h_descriptors]
      rfl
    unfold edgeOverrides
    rw [h_type]
    cases h_source : sourceType registry g edge with
    | none =>
      split
      · contradiction
      · rfl
    | some type => simp [recomputeEdge, h_source]
  have h_state : stateOverrides (recomputeGraph registry g state) state = [] := by
    simp [stateOverrides, recomputeGraph]
  unfold clientOverrides
  rw [h_state, List.append_nil, List.append_eq_nil_iff, List.flatMap_eq_nil_iff,
    List.flatMap_eq_nil_iff]
  exact ⟨List.forall_mem_map.mpr h_nodes, List.forall_mem_map.mpr h_edges⟩

/-! ## The reports -/

variable {report report' : ValidationReport}

theorem valid_iff_validates (h : validate registry options g = .ok report) :
    report.valid = true ↔ Validates registry options g := by
  constructor
  · exact fun h_valid => ⟨report, h, h_valid⟩
  · rintro ⟨report', h', h_valid⟩
    rw [Except.ok.inj (h.symm.trans h')]
    exact h_valid

theorem dagHash_eq (h : validate registry options g = .ok report) :
    report.dagHash = if report.valid then some (computeDagHash report.canonicalGraph) else none := by
  obtain ⟨found, -, rfl⟩ := validate_eq_ok_iff.mp h
  rfl

theorem canonicalGraph_eq (h : validate registry options g = .ok report) :
    report.canonicalGraph = recomputeGraph registry g (stateOf report.errors) := by
  obtain ⟨found, -, rfl⟩ := validate_eq_ok_iff.mp h
  rfl

theorem canonicalGraph_of_valid (h : validate registry options g = .ok report)
    (h_valid : report.valid = true) : report.canonicalGraph = recomputeGraph registry g .VALID := by
  have h_errors : report.errors = [] := List.isEmpty_iff.mp h_valid
  rw [canonicalGraph_eq h, h_errors]
  rfl

theorem order_eq (h : validate registry options g = .ok report) :
    report.executionOrder = (executionOrder g).map Prod.fst ∧
      report.executionLevels = (executionOrder g).map Prod.snd := by
  obtain ⟨found, -, rfl⟩ := validate_eq_ok_iff.mp h
  exact ⟨rfl, rfl⟩

theorem warmup_eq (h : validate registry options g = .ok report) :
    report.warmupByNode = ((warmupOf registry g).map Prod.fst).getD [] ∧
      report.warmupBars = (warmupOf registry g).map Prod.snd := by
  obtain ⟨found, -, rfl⟩ := validate_eq_ok_iff.mp h
  exact ⟨rfl, rfl⟩

theorem stateOf_errors (h : report.valid = report'.valid) :
    stateOf report.errors = stateOf report'.errors := by
  unfold ValidationReport.valid at h
  rw [stateOf, stateOf, h]

theorem dagHash_congr (h : g.authored = g'.authored)
    (h_report : validate registry options g = .ok report)
    (h_report' : validate registry options g' = .ok report')
    (h_valid : report.valid = report'.valid) : report.dagHash = report'.dagHash := by
  rw [dagHash_eq h_report, dagHash_eq h_report', ← h_valid]
  split
  · rename_i h_true
    have h_clear := validates_iff.mp ((valid_iff_validates h_report).mp h_true)
    rw [canonicalGraph_eq h_report, canonicalGraph_eq h_report',
      computeDagHash_recomputeGraph h_clear.resolved h]
  · rfl

theorem returns_congr (h_resolved : Resolved registry g) (h : g.authored = g'.authored)
    (h_report : validate registry options g = .ok report) :
    ∃ report', validate registry options g' = .ok report' := by
  obtain ⟨found, h_found, -⟩ := validate_eq_ok_iff.mp h_report
  obtain ⟨params, h_params, h_found⟩ := Except.bind_eq_ok.mp h_found
  obtain ⟨leakage, h_leakage, -⟩ := Except.bind_eq_ok.mp h_found
  obtain ⟨params', h_params', -⟩ := paramStage_subset h_resolved h h_params
  obtain ⟨leakage', h_leakage', -⟩ := leakageStage_subset h_resolved h h_leakage
  exact ⟨_, validate_eq_ok_iff.mpr ⟨_, by rw [stageIssues, h_params', h_leakage']; rfl, rfl⟩⟩

/-- What two reports on the same authored graph have in common. -/
structure SameReport (registry : Registry) (g : StrategyGraph) (report report' : ValidationReport) :
    Prop where
  valid : report.valid = report'.valid
  dagHash : report.dagHash = report'.dagHash
  executionOrder : report.executionOrder = report'.executionOrder
  executionLevels : report.executionLevels = report'.executionLevels
  warmup : Resolved registry g →
    report.warmupByNode = report'.warmupByNode ∧ report.warmupBars = report'.warmupBars
  canonicalGraph : Resolved registry g → PortsPublished registry g →
    SameUpToOrder report.canonicalGraph report'.canonicalGraph

theorem sameReport (h : g.authored = g'.authored)
    (h_report : validate registry options g = .ok report)
    (h_report' : validate registry options g' = .ok report') :
    SameReport registry g report report' := by
  have h_valid : report.valid = report'.valid := by
    rw [Bool.eq_iff_iff, valid_iff_validates h_report, valid_iff_validates h_report']
    exact validates_congr h
  refine ⟨h_valid, dagHash_congr h h_report h_report' h_valid, ?_, ?_, fun h_resolved => ?_,
    fun h_resolved h_ports => ?_⟩
  · rw [(order_eq h_report).1, (order_eq h_report').1, executionOrder_congr h]
  · rw [(order_eq h_report).2, (order_eq h_report').2, executionOrder_congr h]
  · rw [(warmup_eq h_report).1, (warmup_eq h_report).2, (warmup_eq h_report').1,
      (warmup_eq h_report').2, warmupOf_congr h_resolved h]
    exact ⟨rfl, rfl⟩
  · rw [canonicalGraph_eq h_report, canonicalGraph_eq h_report', stateOf_errors h_valid]
    exact recomputeGraph_congr h_resolved h h_ports

theorem validate_canonicalGraph (h_report : validate registry options g = .ok report)
    (h_valid : report.valid = true) :
    ∃ again, validate registry options report.canonicalGraph = .ok again ∧ again.valid = true ∧
      again.dagHash = report.dagHash ∧
      clientOverrides registry report.canonicalGraph (stateOf again.errors) = [] := by
  have h_clear := validates_iff.mp ((valid_iff_validates h_report).mp h_valid)
  have h_authored : g.authored = report.canonicalGraph.authored := by
    rw [canonicalGraph_eq h_report]
    exact authored_recomputeGraph.symm
  obtain ⟨again, h_again, h_again_valid⟩ := (validates_congr h_authored).mp ⟨report, h_report, h_valid⟩
  have h_same := sameReport h_authored h_report h_again
  refine ⟨again, h_again, h_again_valid, h_same.dagHash.symm, ?_⟩
  rw [← stateOf_errors h_same.valid, canonicalGraph_eq h_report]
  exact clientOverrides_recomputeGraph h_clear.resolved

/-- The verdict, the hash and the levels are those of the authored graph, and so are the
    warmup and the canonical graph where the registry publishes what the graph names, as it
    does for every valid one. -/
theorem validate_ignores_client_copies (registry : Registry) (options : Options)
    (g g' : StrategyGraph) (h : g.authored = g'.authored) :
    (Validates registry options g ↔ Validates registry options g') ∧
    (∀ report report', validate registry options g = .ok report →
      validate registry options g' = .ok report' → SameReport registry g report report') ∧
    (Resolved registry g →
      ((∃ report, validate registry options g = .ok report) ↔
        ∃ report', validate registry options g' = .ok report')) ∧
    (Validates registry options g → Resolved registry g ∧ PortsPublished registry g) ∧
    (∀ report, validate registry options g = .ok report → report.valid = true →
      ∃ again, validate registry options report.canonicalGraph = .ok again ∧ again.valid = true ∧
        again.dagHash = report.dagHash ∧
        clientOverrides registry report.canonicalGraph (stateOf again.errors) = []) := by
  refine ⟨validates_congr h, fun report report' => sameReport h, fun h_resolved => ⟨?_, ?_⟩,
    fun h_valid => ?_, fun report => validate_canonicalGraph⟩
  · rintro ⟨report, h_report⟩
    exact returns_congr h_resolved h h_report
  · rintro ⟨report', h_report'⟩
    exact returns_congr (h_resolved.congr h) h.symm h_report'
  · have h_clear := validates_iff.mp h_valid
    exact ⟨h_clear.resolved, h_clear.portsPublished⟩

/-! ### A block that the registry withdrew -/

def closePort : Port :=
  { name := "close", type := .PRICE_SERIES, required := false, variadic := false
    description := "Bar close" }

/-- A feed that needs five bars. -/
def feedBlock : BlockDescriptor :=
  { category := .DATA, inputs := [], outputs := [closePort]
    params := [{ key := "symbol", type := .SYMBOL, required := true, default := .scalar .none
                 min := none, max := none, options := none }]
    warmupFn := fun _ => some 5
    allowedSuccessorCategories := [.LOGIC]
    executionSemantics := .SERIES_MAP, leakageRisk := .NONE, capabilityFlags := []
    validate := none
    metadata := { operator := "", globalStatisticBlock := false, leakyOutputs := [], model := none } }

def feedRegistry : Registry := fun blockId =>
  if blockId = "ohlcv_feed" then some feedBlock else none

def feedNode (symbol : String) : NodeSpec :=
  { id := "n1", blockId := "ohlcv_feed", category := .DATA
    params := [("symbol", .scalar (.str symbol))], inputs := [], outputs := [closePort], ui := [] }

/-- A feed, and a block that is not published, which the client says is of this category. -/
def withWithdrawn (category : BlockCategory) : StrategyGraph :=
  { schemaVersion := 2, strategyId := "s1", version := "1", name := "strategy"
    nodes :=
      [feedNode "BTC/USDT",
        { id := "n2", blockId := "withdrawn", category := category, params := [], inputs := []
          outputs := [], ui := [] }]
    edges := [], migrationIssues := [], validationState := .UNVALIDATED }

theorem validate_ignores_client_copies_withdrawn :
    Validates feedRegistry {} (withWithdrawn .ACTION) ↔
      Validates feedRegistry {} (withWithdrawn .INDICATOR) :=
  (validate_ignores_client_copies feedRegistry {} (withWithdrawn .ACTION)
    (withWithdrawn .INDICATOR) rfl).1

/-- With the one category no bars are needed, with the other five. -/
theorem withdrawn_category_changes_warmup :
    ¬ ∀ (registry : Registry) (options : Options) (g g' : StrategyGraph),
      g.authored = g'.authored →
        (validate registry options g).toOption.bind ValidationReport.warmupBars
          = (validate registry options g').toOption.bind ValidationReport.warmupBars := by
  intro h
  have h_same := h feedRegistry {} (withWithdrawn .ACTION) (withWithdrawn .INDICATOR) rfl
  have h_action : (validate feedRegistry {} (withWithdrawn .ACTION)).toOption.bind
      ValidationReport.warmupBars = some 0 := by decide +kernel
  have h_indicator : (validate feedRegistry {} (withWithdrawn .INDICATOR)).toOption.bind
      ValidationReport.warmupBars = some 5 := by decide +kernel
  rw [h_action, h_indicator] at h_same
  cases h_same

end VyomQuant.StrategyDag
