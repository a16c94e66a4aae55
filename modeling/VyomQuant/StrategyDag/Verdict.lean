/-
  VyomQuant.StrategyDag.Verdict

  The verdict is one on the authored part of a graph: what the client copied, and the order
  of the lists, do not change it (`validates_congr`).

  An unresolved graph is invalid in any case.  On a resolved one each stage reads the
  registry only, and finds nothing in one order that it does not find in another.
-/

import VyomQuant.StrategyDag.Agreement

namespace VyomQuant.StrategyDag

open Digraph (Reaches converse)

variable {registry : Registry} {options : Options} {g g' : StrategyGraph}

/-! ## Stage 1 -/

theorem ite_singleton_eq_nil {α : Type} {p : Prop} [Decidable p] {a : α} :
    (if p then [a] else []) = [] ↔ ¬ p := by
  rw [ite_eq_right_iff]
  exact imp_congr_right fun _ => by simp

theorem repeated_eq_nil_iff {seen ids : List String} :
    repeated seen ids = [] ↔ ids.Nodup ∧ ∀ id ∈ ids, id ∉ seen := by
  induction ids generalizing seen with
  | nil => simp [repeated]
  | cons id rest ih =>
    rw [repeated]
    split
    · rename_i h_seen
      simp [h_seen]
    · rename_i h_seen
      rw [ih, List.nodup_cons]
      simp only [List.mem_cons, not_or, forall_eq_or_imp]
      constructor
      · rintro ⟨h_nodup, h_fresh⟩
        exact ⟨⟨fun h_mem => (h_fresh id h_mem).1 rfl, h_nodup⟩, h_seen, fun a h_a => (h_fresh a h_a).2⟩
      · rintro ⟨⟨h_id, h_nodup⟩, -, h_fresh⟩
        exact ⟨h_nodup, fun a h_a => ⟨fun h_eq => h_id (h_eq ▸ h_a), h_fresh a h_a⟩⟩

theorem edgeIssues_eq_nil_iff {known seen : List String} {edges : List EdgeSpec} :
    edgeIssues known seen edges = [] ↔
      (edges.map EdgeSpec.id).Nodup ∧ (∀ edge ∈ edges, edge.id ∉ seen) ∧
        ∀ edge ∈ edges, edge.source ∈ known ∧ edge.target ∈ known := by
  induction edges generalizing seen with
  | nil => simp [edgeIssues]
  | cons edge rest ih =>
    rw [edgeIssues, List.append_eq_nil_iff, List.append_eq_nil_iff, ih, List.map_cons,
      List.nodup_cons, ite_singleton_eq_nil, ite_singleton_eq_nil, not_or, not_not, not_not]
    simp only [List.mem_cons, not_or, forall_eq_or_imp, List.mem_map]
    constructor
    · rintro ⟨⟨h_fresh, h_ends⟩, h_nodup, h_rest, h_rest_ends⟩
      refine ⟨⟨?_, h_nodup⟩, ⟨h_fresh, fun e h_e => (h_rest e h_e).2⟩, h_ends, h_rest_ends⟩
      rintro ⟨e, h_e, h_eq⟩
      exact (h_rest e h_e).1 h_eq
    · rintro ⟨⟨h_id, h_nodup⟩, ⟨h_fresh, h_rest⟩, h_ends, h_rest_ends⟩
      refine ⟨⟨h_fresh, h_ends⟩, h_nodup, fun e h_e => ⟨?_, h_rest e h_e⟩, h_rest_ends⟩
      exact fun h_eq => h_id ⟨e, h_e, h_eq⟩

theorem mem_fanInKeys {key : String × String} :
    key ∈ fanInKeys g ↔ ∃ edge ∈ g.edges, (edge.target, edge.targetPort) = key := by
  rw [fanInKeys, List.mem_insertionSort, List.mem_eraseDups, List.mem_map]

theorem limitIssues_subset (h_resolved : Resolved registry g) (h : g.authored = g'.authored) :
    limitIssues registry options g' ⊆ limitIssues registry options g := by
  have h_nodes := (nodes_perm h).length_eq
  have h_edges := (edges_perm h).length_eq
  rw [List.length_map, List.length_map] at h_nodes h_edges
  unfold limitIssues
  rw [h_nodes, h_edges, (h_resolved.idsIn_perm h .ML_DL).length_eq,
    (h_resolved.idsIn_perm h .FEATURE_ENGINEERING).length_eq]
  refine List.append_subset.mpr ⟨List.subset_append_left _ _, fun issue h_issue => ?_⟩
  refine List.mem_append_right _ ?_
  -- A port over the limit in one order of the edges is over it in another.
  obtain ⟨key, h_key, rfl⟩ := List.mem_map.mp h_issue
  obtain ⟨h_key, h_over⟩ := List.mem_filter.mp h_key
  obtain ⟨edge', h_edge', h_target⟩ := mem_fanInKeys.mp h_key
  obtain ⟨edge, h_edge, h_authored⟩ := exists_edge h h_edge'
  have h_inbound := (inbound_perm h key.1 key.2).length_eq
  rw [List.length_map, List.length_map] at h_inbound
  refine List.mem_map.mpr ⟨key, List.mem_filter.mpr ⟨mem_fanInKeys.mpr ⟨edge, h_edge, ?_⟩, ?_⟩, rfl⟩
  · rw [← h_target]
    exact congrArg (fun edge : AuthoredEdge => (edge.target, edge.targetPort)) h_authored
  · rw [h_inbound]
    exact h_over

theorem structuralIssues_eq_nil_iff :
    structuralIssues registry options g = [] ↔
      g.schemaVersion ∈ supportedSchemaVersions ∧ g.nodes ≠ [] ∧ g.nodeIds.Nodup ∧
        (g.edges.map EdgeSpec.id).Nodup ∧
        (∀ edge ∈ g.edges, edge.source ∈ g.nodeIds ∧ edge.target ∈ g.nodeIds) ∧
        limitIssues registry options g = [] := by
  rw [structuralIssues]
  simp only [List.append_eq_nil_iff, ite_singleton_eq_nil, List.map_eq_nil_iff, repeated_eq_nil_iff,
    edgeIssues_eq_nil_iff, List.not_mem_nil, not_false_eq_true, implies_true, and_true, true_and,
    not_not, ne_eq, and_assoc]

theorem structuralIssues_transfer (h_resolved : Resolved registry g) (h : g.authored = g'.authored)
    (h_none : structuralIssues registry options g = []) :
    structuralIssues registry options g' = [] := by
  rw [structuralIssues_eq_nil_iff] at h_none ⊢
  obtain ⟨h_version, h_nodes, h_nodup, h_edge_ids, h_ends, h_limits⟩ := h_none
  refine ⟨?_, ?_, (h_resolved.congr h).nodup, ?_, ?_, ?_⟩
  · have h_same : g.schemaVersion = g'.schemaVersion := congrArg Authored.schemaVersion h
    rw [← h_same]
    exact h_version
  · intro h_empty
    have h_perm := nodes_perm h
    rw [h_empty, List.map_nil, List.perm_nil, List.map_eq_nil_iff] at h_perm
    exact h_nodes h_perm
  · exact (edges_map_perm h AuthoredEdge.id).nodup_iff.mp h_edge_ids
  · intro edge' h_edge'
    obtain ⟨edge, h_edge, h_authored⟩ := exists_edge h h_edge'
    have h_source : edge.source = edge'.source := congrArg AuthoredEdge.source h_authored
    have h_target : edge.target = edge'.target := congrArg AuthoredEdge.target h_authored
    rw [← h_source, ← h_target, ← mem_nodeIds_congr h, ← mem_nodeIds_congr h]
    exact h_ends edge h_edge
  · exact List.subset_nil.mp (h_limits ▸ limitIssues_subset h_resolved h)

/-! ## Stages 2 and 3 -/

theorem unresolvedIssues_eq_nil (h_resolved : Resolved registry g) :
    unresolvedIssues registry g = [] := by
  rw [unresolvedIssues, List.map_eq_nil_iff, List.filter_eq_nil_iff]
  intro node h_node
  obtain ⟨descriptor, h_descriptor⟩ := h_resolved.exists_descriptor h_node
  simp [h_descriptor]

theorem resolved_of_no_issues (h_structural : structuralIssues registry options g = [])
    (h_unresolved : unresolvedIssues registry g = []) : Resolved registry g where
  nodup := (structuralIssues_eq_nil_iff.mp h_structural).2.2.1
  published := by
    intro node h_node
    rw [unresolvedIssues, List.map_eq_nil_iff, List.filter_eq_nil_iff] at h_unresolved
    have h_some := h_unresolved node h_node
    rw [descriptorOf_of_mem (structuralIssues_eq_nil_iff.mp h_structural).2.2.1 h_node,
      Bool.not_eq_true, Option.isNone_eq_false_iff] at h_some
    exact Option.isSome_iff_exists.mp h_some

theorem paramStage_subset (h_resolved : Resolved registry g) (h : g.authored = g'.authored)
    {found : List Issue} (h_found : paramStage registry g = .ok found) :
    ∃ found', paramStage registry g' = .ok found' ∧ found' ⊆ found := by
  obtain ⟨issues, h_issues, rfl⟩ := Except.bind_pure_eq_ok.mp h_found
  have h_each : ∀ node' ∈ g'.nodes, ∃ node ∈ g.nodes, ∀ b, nodeParamIssues registry g node = .ok b →
      ∃ b', nodeParamIssues registry g' node' = .ok b' ∧ b' ⊆ b := by
    intro node' h_node'
    obtain ⟨node, h_node, h_authored⟩ := exists_node h h_node'
    have h_id : node.id = node'.id := congrArg AuthoredNode.id h_authored
    have h_params : node.params = node'.params := congrArg AuthoredNode.params h_authored
    refine ⟨node, h_node, fun b h_b => ⟨b, ?_, List.Subset.refl b⟩⟩
    rw [nodeParamIssues, ← h_id, ← h_params, ← h_resolved.descriptorOf_congr h]
    exact h_b
  obtain ⟨issues', h_issues', h_subset⟩ := Except.mapM_flatten_subset h_issues h_each
  exact ⟨issues'.flatten, by rw [paramStage, h_issues']; rfl, h_subset⟩

/-! ## Stages 4 and 5 -/

theorem any_inbound_congr (h : g.authored = g'.authored) (nodeId port : String)
    (p : AuthoredEdge → Bool) :
    ((inbound g nodeId port).any fun edge => p edge.authored)
      = (inbound g' nodeId port).any fun edge => p edge.authored := by
  have h_any := (inbound_perm h nodeId port).any_eq (f := p)
  rw [List.any_map, List.any_map] at h_any
  exact h_any

theorem isEmpty_inbound_congr (h : g.authored = g'.authored) (nodeId port : String) :
    (inbound g nodeId port).isEmpty = (inbound g' nodeId port).isEmpty := by
  have h_length := (inbound_perm h nodeId port).length_eq
  rw [List.length_map, List.length_map] at h_length
  rw [Bool.eq_iff_iff, List.isEmpty_iff_length_eq_zero, List.isEmpty_iff_length_eq_zero, h_length]

theorem portsIssue_congr (h : g.authored = g'.authored) {edge edge' : EdgeSpec}
    (h_edge : edge.authored = edge'.authored) (src dst : String)
    (srcDescriptor dstDescriptor : Option BlockDescriptor) :
    portsIssue g edge src dst srcDescriptor dstDescriptor
      = portsIssue g' edge' src dst srcDescriptor dstDescriptor := by
  have h_id : edge.id = edge'.id := congrArg AuthoredEdge.id h_edge
  have h_sourcePort : edge.sourcePort = edge'.sourcePort := congrArg AuthoredEdge.sourcePort h_edge
  have h_targetPort : edge.targetPort = edge'.targetPort := congrArg AuthoredEdge.targetPort h_edge
  have h_any : ((inbound g dst edge'.targetPort).any fun candidate => candidate.id ≠ edge'.id)
      = (inbound g' dst edge'.targetPort).any fun candidate => candidate.id ≠ edge'.id :=
    any_inbound_congr h dst edge'.targetPort fun candidate => candidate.id ≠ edge'.id
  unfold portsIssue
  rw [h_id, h_sourcePort, h_targetPort, h_any]

theorem isEdgeLegal_congr (h_resolved : Resolved registry g) (h : g.authored = g'.authored)
    {edge edge' : EdgeSpec} (h_edge : edge.authored = edge'.authored)
    (h_source : edge.source ∈ g.nodeIds) (h_target : edge.target ∈ g.nodeIds) :
    isEdgeLegal registry g edge = isEdgeLegal registry g' edge' := by
  have h_resolved' := h_resolved.congr h
  have h_same_source : edge.source = edge'.source := congrArg AuthoredEdge.source h_edge
  have h_same_target : edge.target = edge'.target := congrArg AuthoredEdge.target h_edge
  -- Both ends are found in both graphs, under the same ids.
  obtain ⟨src, h_src, h_src_id⟩ := StrategyGraph.mem_nodeIds.mp h_source
  obtain ⟨dst, h_dst, h_dst_id⟩ := StrategyGraph.mem_nodeIds.mp h_target
  obtain ⟨src', h_src', h_src_id'⟩ :=
    StrategyGraph.mem_nodeIds.mp ((mem_nodeIds_congr h _).mp h_source)
  obtain ⟨dst', h_dst', h_dst_id'⟩ :=
    StrategyGraph.mem_nodeIds.mp ((mem_nodeIds_congr h _).mp h_target)
  have h_category := h_resolved.categoryIn_congr h h_dst (h_dst_id.trans h_dst_id'.symm)
  unfold categoryIn at h_category
  rw [h_dst_id, h_dst_id'] at h_category
  unfold isEdgeLegal
  rw [← h_same_source, ← h_same_target, ← h_src_id, ← h_dst_id,
    StrategyGraph.node_of_mem h_resolved.nodup h_src, StrategyGraph.node_of_mem h_resolved.nodup h_dst,
    h_src_id, h_dst_id, ← h_src_id', ← h_dst_id',
    StrategyGraph.node_of_mem h_resolved'.nodup h_src',
    StrategyGraph.node_of_mem h_resolved'.nodup h_dst']
  dsimp only
  rw [h_src_id, h_dst_id, h_src_id', h_dst_id', h_category, h_resolved.descriptorOf_congr h,
    portsIssue_congr h h_edge]
  have h_id : edge.id = edge'.id := congrArg AuthoredEdge.id h_edge
  have h_targetPort : edge.targetPort = edge'.targetPort := congrArg AuthoredEdge.targetPort h_edge
  rw [h_id, h_targetPort]

theorem edgeStage_subset (h_resolved : Resolved registry g) (h : g.authored = g'.authored) :
    edgeStage registry g' ⊆ edgeStage registry g := by
  intro issue h_issue
  obtain ⟨edge', h_edge', h_legal⟩ := List.mem_filterMap.mp h_issue
  obtain ⟨h_edge', h_known⟩ := List.mem_filter.mp h_edge'
  obtain ⟨edge, h_edge, h_authored⟩ := exists_edge h h_edge'
  have h_source : edge.source = edge'.source := congrArg AuthoredEdge.source h_authored
  have h_target : edge.target = edge'.target := congrArg AuthoredEdge.target h_authored
  have h_known' : edge.source ∈ g.nodeIds ∧ edge.target ∈ g.nodeIds := by
    rw [h_source, h_target, mem_nodeIds_congr h, mem_nodeIds_congr h]
    exact of_decide_eq_true h_known
  refine List.mem_filterMap.mpr ⟨edge, List.mem_filter.mpr ⟨h_edge, decide_eq_true h_known'⟩, ?_⟩
  rw [isEdgeLegal_congr h_resolved h h_authored h_known'.1 h_known'.2]
  exact h_legal

theorem requiredInputStage_subset (h_resolved : Resolved registry g) (h : g.authored = g'.authored) :
    requiredInputStage registry g' ⊆ requiredInputStage registry g := by
  intro issue h_issue
  obtain ⟨node', h_node', h_issue⟩ := List.mem_flatMap.mp h_issue
  obtain ⟨node, h_node, h_authored⟩ := exists_node h h_node'
  have h_id : node.id = node'.id := congrArg AuthoredNode.id h_authored
  refine List.mem_flatMap.mpr ⟨node, h_node, ?_⟩
  rw [h_id, h_resolved.descriptorOf_congr h]
  unfold requiredInputIssues at h_issue ⊢
  simp only [isEmpty_inbound_congr h]
  exact h_issue

/-! ## Stages 6 to 8 -/

theorem cycleStage_eq_nil_iff : cycleStage g = [] ↔ cycleIn g = [] := by
  unfold cycleStage
  split
  · rename_i h_cycle
    simp [h_cycle]
  · rename_i h_cycle
    simp [h_cycle]

theorem orphanStage_subset (h_resolved : Resolved registry g) (h : g.authored = g'.authored) :
    orphanStage registry g' ⊆ orphanStage registry g := by
  intro issue h_issue
  obtain ⟨id, h_id, rfl⟩ := List.mem_map.mp h_issue
  obtain ⟨h_id, h_orphan⟩ := List.mem_filter.mp h_id
  refine List.mem_map.mpr ⟨id, List.mem_filter.mpr ⟨(mem_nodeIds_congr h id).mpr h_id, ?_⟩, rfl⟩
  simp only [h_resolved.mem_downstreamOfData_congr h,
    mem_upstreamOf_congr h (h_resolved.mem_idsIn_congr h .ACTION)]
  exact h_orphan

theorem executionPathStage_congr (h_resolved : Resolved registry g) (h : g.authored = g'.authored) :
    executionPathStage registry g = executionPathStage registry g' := by
  have h_empty : ∀ category, (idsIn registry g category).isEmpty
      = (idsIn registry g' category).isEmpty := by
    intro category
    have h_length := (h_resolved.idsIn_perm h category).length_eq
    rw [Bool.eq_iff_iff, List.isEmpty_iff_length_eq_zero, List.isEmpty_iff_length_eq_zero, h_length]
  have h_nil : ∀ category, idsIn registry g category ≠ [] ↔ idsIn registry g' category ≠ [] := by
    intro category
    rw [ne_eq, ne_eq, ← List.isEmpty_iff, ← List.isEmpty_iff, h_empty]
  have h_missing : ([idsIn registry g .DATA, idsIn registry g .ACTION].filter List.isEmpty).length
      = ([idsIn registry g' .DATA, idsIn registry g' .ACTION].filter List.isEmpty).length := by
    simp only [List.filter_cons, h_empty, List.filter_nil]
    split <;> split <;> rfl
  unfold executionPathStage
  dsimp only
  rw [List.map_const', List.map_const', h_missing]
  simp only [h_nil, h_resolved.mem_idsIn_congr h, h_resolved.mem_downstreamOfData_congr h]

/-! ## Stage 9 -/

theorem mem_fedInbound {nodeId : String} {edge : EdgeSpec} :
    edge ∈ (fedPorts g nodeId).flatMap (inbound g nodeId) ↔ edge ∈ g.edges ∧ edge.target = nodeId := by
  rw [List.mem_flatMap]
  constructor
  · rintro ⟨port, -, h_edge⟩
    obtain ⟨h_edge, h_target⟩ := List.mem_filter.mp h_edge
    exact ⟨h_edge, (of_decide_eq_true h_target).1⟩
  · rintro ⟨h_edge, h_target⟩
    refine ⟨edge.targetPort, ?_, List.mem_filter.mpr ⟨h_edge, decide_eq_true ⟨h_target, rfl⟩⟩⟩
    refine List.mem_eraseDups.mpr (List.mem_map_of_mem (List.mem_filter.mpr ⟨h_edge, ?_⟩))
    exact decide_eq_true h_target

theorem provenanceIssues_subset (h_resolved : Resolved registry g) (h : g.authored = g'.authored)
    (actionId : String) :
    provenanceIssues registry g' actionId ⊆ provenanceIssues registry g actionId := by
  intro issue h_issue
  obtain ⟨edge', h_edge', h_found⟩ := List.mem_filterMap.mp h_issue
  obtain ⟨h_edge', h_action⟩ := mem_fedInbound.mp h_edge'
  obtain ⟨edge, h_edge, h_authored⟩ := exists_edge h h_edge'
  have h_id : edge.id = edge'.id := congrArg AuthoredEdge.id h_authored
  have h_source : edge.source = edge'.source := congrArg AuthoredEdge.source h_authored
  have h_sourcePort : edge.sourcePort = edge'.sourcePort := congrArg AuthoredEdge.sourcePort h_authored
  have h_target : edge.target = edge'.target := congrArg AuthoredEdge.target h_authored
  have h_targetPort : edge.targetPort = edge'.targetPort := congrArg AuthoredEdge.targetPort h_authored
  refine List.mem_filterMap.mpr ⟨edge, mem_fedInbound.mpr ⟨h_edge, h_target.trans h_action⟩, ?_⟩
  cases h_index' : g'.nodeIndex edge'.source with
  | none =>
    rw [h_index'] at h_found
    cases h_found
  | some source' =>
    obtain ⟨h_source', h_source_id'⟩ := StrategyGraph.nodeIndex_eq_some h_index'
    obtain ⟨source, h_mem, h_node⟩ := exists_node h h_source'
    have h_source_id : source.id = source'.id := congrArg AuthoredNode.id h_node
    have h_index : g.nodeIndex edge.source = some source := by
      rw [h_source, ← h_source_id', ← h_source_id]
      exact StrategyGraph.nodeIndex_of_mem h_resolved.nodup h_mem
    have h_category := h_resolved.categoryIn_congr h h_mem h_source_id
    have h_decides : decides source (descriptorOf registry g source.id) edge.sourcePort
        = decides source' (descriptorOf registry g' source'.id) edge'.sourcePort := by
      unfold decides
      unfold categoryIn at h_category
      rw [h_category, h_source_id, h_sourcePort, h_resolved.descriptorOf_congr h]
    rw [h_index'] at h_found
    rw [h_index]
    dsimp only at h_found ⊢
    rw [h_decides, h_id, h_source_id, h_targetPort]
    exact h_found

theorem dataSymbol_congr (h_resolved : Resolved registry g) (h : g.authored = g'.authored)
    (nodeId : String) : dataSymbol registry g nodeId = dataSymbol registry g' nodeId := by
  have h_resolved' := h_resolved.congr h
  unfold dataSymbol
  by_cases h_id : nodeId ∈ g'.nodeIds
  · obtain ⟨node', h_node', rfl⟩ := StrategyGraph.mem_nodeIds.mp h_id
    obtain ⟨node, h_node, h_authored⟩ := exists_node h h_node'
    have h_node_id : node.id = node'.id := congrArg AuthoredNode.id h_authored
    have h_params : node.params = node'.params := congrArg AuthoredNode.params h_authored
    have h_category := h_resolved.categoryIn_congr h h_node h_node_id
    unfold categoryIn at h_category
    rw [StrategyGraph.nodeIndex_of_mem h_resolved'.nodup h_node', ← h_node_id,
      StrategyGraph.nodeIndex_of_mem h_resolved.nodup h_node]
    dsimp only
    rw [h_category, h_params, h_node_id]
  · rw [StrategyGraph.nodeIndex_eq_none h_id,
      StrategyGraph.nodeIndex_eq_none (mt (mem_nodeIds_congr h nodeId).mp h_id)]

theorem isSome_nodeIndex {nodeId : String} : (g.nodeIndex nodeId).isSome ↔ nodeId ∈ g.nodeIds := by
  constructor
  · intro h_some
    obtain ⟨node, h_node⟩ := Option.isSome_iff_exists.mp h_some
    obtain ⟨h_mem, h_id⟩ := StrategyGraph.nodeIndex_eq_some h_node
    exact StrategyGraph.mem_nodeIds.mpr ⟨node, h_mem, h_id⟩
  · intro h_id
    obtain ⟨node, h_node, h_eq⟩ := StrategyGraph.mem_nodeIds.mp h_id
    refine Option.isSome_iff_ne_none.mpr fun h_none => ?_
    exact (List.find?_eq_none.mp h_none node (List.mem_reverse.mpr h_node)) (decide_eq_true h_eq)

theorem isAllocator_congr (h_resolved : Resolved registry g) (h : g.authored = g'.authored)
    (nodeId : String) : isAllocator registry g nodeId = isAllocator registry g' nodeId := by
  have h_some : (g.nodeIndex nodeId).isSome = (g'.nodeIndex nodeId).isSome := by
    rw [Bool.eq_iff_iff, isSome_nodeIndex, isSome_nodeIndex, mem_nodeIds_congr h]
  rw [isAllocator, isAllocator, h_some, h_resolved.descriptorOf_congr h]

theorem length_eraseDups_congr {l l' : List String} (h : ∀ a, a ∈ l ↔ a ∈ l') :
    l.eraseDups.length = l'.eraseDups.length := by
  refine ((List.perm_ext_iff_of_nodup (List.nodup_eraseDups l) (List.nodup_eraseDups l')).mpr ?_).length_eq
  intro a
  rw [List.mem_eraseDups, List.mem_eraseDups, h]

theorem multiSymbolIssues_congr (h_resolved : Resolved registry g) (h : g.authored = g'.authored)
    (actionId : String) :
    multiSymbolIssues registry g actionId = multiSymbolIssues registry g' actionId := by
  have h_closure : ∀ id, id ∈ upstreamOf g [actionId] ↔ id ∈ upstreamOf g' [actionId] :=
    mem_upstreamOf_congr h fun _ => Iff.rfl
  have h_symbols : (((upstreamOf g [actionId]).filterMap (dataSymbol registry g)).eraseDups).length
      = (((upstreamOf g' [actionId]).filterMap (dataSymbol registry g')).eraseDups).length := by
    refine length_eraseDups_congr fun symbol => ?_
    simp only [List.mem_filterMap, h_closure, dataSymbol_congr h_resolved h]
  have h_allocator : (upstreamOf g [actionId]).any (isAllocator registry g)
      = (upstreamOf g' [actionId]).any (isAllocator registry g') := by
    rw [Bool.eq_iff_iff, List.any_eq_true, List.any_eq_true]
    simp only [h_closure, isAllocator_congr h_resolved h]
  rw [multiSymbolIssues, multiSymbolIssues, h_symbols, h_allocator]

theorem provenanceStage_subset (h_resolved : Resolved registry g) (h : g.authored = g'.authored) :
    provenanceStage registry g' ⊆ provenanceStage registry g := by
  intro issue h_issue
  obtain ⟨actionId, h_action, h_issue⟩ := List.mem_flatMap.mp h_issue
  refine List.mem_flatMap.mpr ⟨actionId, (h_resolved.mem_idsIn_congr h .ACTION actionId).mpr h_action, ?_⟩
  rcases List.mem_append.mp h_issue with h_issue | h_issue
  · exact List.mem_append_left _ (provenanceIssues_subset h_resolved h actionId h_issue)
  · rw [multiSymbolIssues_congr h_resolved h]
    exact List.mem_append_right _ h_issue

/-! ## Stage 10 -/

theorem leakyFeatureIssues_subset (h_resolved : Resolved registry g) (h : g.authored = g'.authored)
    (descriptor : BlockDescriptor) (node : AuthoredNode) :
    leakyFeatureIssues registry g' descriptor node ⊆ leakyFeatureIssues registry g descriptor node := by
  intro issue h_issue
  unfold leakyFeatureIssues at h_issue ⊢
  simp only [← h_resolved.mem_mlReachable_congr h] at h_issue
  split at h_issue
  · cases h_issue
  · rename_i h_review
    rw [if_neg h_review]
    split at h_issue
    · rename_i h_ports
      rw [if_pos h_ports]
      obtain ⟨edge', h_edge', rfl⟩ := List.mem_map.mp h_issue
      obtain ⟨h_edge', h_leaks⟩ := List.mem_filter.mp h_edge'
      obtain ⟨edge, h_edge, h_authored⟩ := exists_edge h h_edge'
      have h_id : edge.id = edge'.id := congrArg AuthoredEdge.id h_authored
      have h_source : edge.source = edge'.source := congrArg AuthoredEdge.source h_authored
      have h_port : edge.sourcePort = edge'.sourcePort := congrArg AuthoredEdge.sourcePort h_authored
      have h_target : edge.target = edge'.target := congrArg AuthoredEdge.target h_authored
      refine List.mem_map.mpr ⟨edge, List.mem_filter.mpr ⟨h_edge, ?_⟩, ?_⟩
      · rw [h_source, h_port, h_target]
        exact h_leaks
      · rw [h_id, h_port]
    · rename_i h_ports
      rw [if_neg h_ports]
      exact h_issue

theorem leakageStage_subset (h_resolved : Resolved registry g) (h : g.authored = g'.authored)
    {found : List Issue} (h_found : leakageStage registry g = .ok found) :
    ∃ found', leakageStage registry g' = .ok found' ∧ found' ⊆ found := by
  obtain ⟨issues, h_issues, rfl⟩ := Except.bind_pure_eq_ok.mp h_found
  have h_each : ∀ node' ∈ g'.nodes, ∃ node ∈ g.nodes, ∀ b,
      nodeLeakageIssues registry g node = .ok b →
        ∃ b', nodeLeakageIssues registry g' node' = .ok b' ∧ b' ⊆ b := by
    intro node' h_node'
    obtain ⟨node, h_node, h_authored⟩ := exists_node h h_node'
    have h_id : node.id = node'.id := congrArg AuthoredNode.id h_authored
    refine ⟨node, h_node, fun b h_b => ?_⟩
    unfold nodeLeakageIssues at h_b ⊢
    rw [h_id, h_authored, h_resolved.descriptorOf_congr h] at h_b
    split at h_b
    · obtain ⟨shifts, h_shifts, rfl⟩ := Except.bind_pure_eq_ok.mp h_b
      refine ⟨_, by rw [leakageIssues, h_shifts]; rfl, List.append_subset.mpr ⟨?_, ?_⟩⟩
      · exact List.subset_append_left _ _
      · exact List.Subset.trans (leakyFeatureIssues_subset h_resolved h _ _)
          (List.subset_append_right _ _)
    · exact ⟨b, h_b, List.Subset.refl b⟩
  obtain ⟨issues', h_issues', h_subset⟩ := Except.mapM_flatten_subset h_issues h_each
  refine ⟨_, by rw [leakageStage, h_issues']; rfl, fun issue h_issue => ?_⟩
  exact (List.mem_insertionSort _).mpr (h_subset ((List.mem_insertionSort _).mp h_issue))

/-! ## The verdict -/

def NoErrors (issues : List Issue) : Prop := ∀ issue ∈ issues, issue.severity ≠ .error

theorem noErrors_append {issues issues' : List Issue} :
    NoErrors (issues ++ issues') ↔ NoErrors issues ∧ NoErrors issues' := List.forall_mem_append

theorem NoErrors.mono {issues issues' : List Issue} (h : NoErrors issues) (h_subset : issues' ⊆ issues) :
    NoErrors issues' := fun issue h_issue => h issue (h_subset h_issue)

theorem NoErrors.eq_nil {issues : List Issue} (h : NoErrors issues)
    (h_errors : ∀ issue ∈ issues, issue.severity = .error) : issues = [] :=
  List.eq_nil_iff_forall_not_mem.mpr fun issue h_issue => h issue h_issue (h_errors issue h_issue)

theorem filter_error_eq_nil_iff {issues : List Issue} :
    (issues.filter fun issue => issue.severity = .error) = [] ↔ NoErrors issues := by
  rw [List.filter_eq_nil_iff]
  simp only [decide_eq_true_eq]
  rfl

theorem severity_edgeIssues {known seen : List String} {edges : List EdgeSpec} :
    ∀ issue ∈ edgeIssues known seen edges, issue.severity = .error := by
  induction edges generalizing seen with
  | nil => nofun
  | cons edge rest ih =>
    intro issue h_issue
    rw [edgeIssues, List.mem_append, List.mem_append] at h_issue
    rcases h_issue with (h_issue | h_issue) | h_issue
    · rw [eq_of_reported h_issue]
    · rw [eq_of_reported h_issue]
    · exact ih issue h_issue

theorem severity_overLimit {code : IssueCode} {key : String} {permitted actual : ℤ} :
    ∀ issue ∈ overLimit code key permitted actual, issue.severity = .error := by
  intro issue h_issue
  unfold overLimit at h_issue
  rw [eq_of_reported h_issue]

theorem severity_limitIssues : ∀ issue ∈ limitIssues registry options g, issue.severity = .error := by
  intro issue h_issue
  simp only [limitIssues, List.mem_append] at h_issue
  rcases h_issue with ((((h_issue | h_issue) | h_issue) | h_issue) | h_issue) | h_issue
  · exact severity_overLimit issue h_issue
  · exact severity_overLimit issue h_issue
  · exact severity_overLimit issue h_issue
  · exact severity_overLimit issue h_issue
  · split at h_issue
    · exact severity_overLimit issue h_issue
    · cases h_issue
  · obtain ⟨key, -, rfl⟩ := List.mem_map.mp h_issue
    rfl

theorem severity_structuralIssues :
    ∀ issue ∈ structuralIssues registry options g, issue.severity = .error := by
  intro issue h_issue
  simp only [structuralIssues, List.mem_append] at h_issue
  rcases h_issue with (((h_issue | h_issue) | h_issue) | h_issue) | h_issue
  · rw [eq_of_reported h_issue]
  · rw [eq_of_reported h_issue]
  · obtain ⟨id, -, rfl⟩ := List.mem_map.mp h_issue
    rfl
  · exact severity_edgeIssues issue h_issue
  · exact severity_limitIssues issue h_issue

theorem severity_unresolvedIssues :
    ∀ issue ∈ unresolvedIssues registry g, issue.severity = .error := by
  intro issue h_issue
  obtain ⟨node, -, rfl⟩ := List.mem_map.mp h_issue
  rfl

theorem severity_cycleStage : ∀ issue ∈ cycleStage g, issue.severity = .error := by
  intro issue h_issue
  unfold cycleStage at h_issue
  split at h_issue
  · cases h_issue
  · rw [List.mem_singleton.mp h_issue]

theorem noErrors_warmup :
    NoErrors ((warmupOf registry g).elim [] fun warmup => warmupStage options warmup.2) := by
  intro issue h_issue
  cases h_warmup : warmupOf registry g with
  | none =>
    rw [h_warmup] at h_issue
    cases h_issue
  | some warmup =>
    rw [h_warmup, Option.elim_some, warmupStage] at h_issue
    split at h_issue
    · cases h_issue
    · split at h_issue
      · rw [List.mem_singleton.mp h_issue]
        nofun
      · cases h_issue

/-- What the stages found of a graph without an error. -/
structure Clear (registry : Registry) (options : Options) (g : StrategyGraph) : Prop where
  migration : NoErrors (migrationStage options g)
  structural : structuralIssues registry options g = []
  unresolved : unresolvedIssues registry g = []
  params : ∃ found, paramStage registry g = .ok found ∧ NoErrors found
  edges : NoErrors (edgeStage registry g)
  requiredInputs : NoErrors (requiredInputStage registry g)
  acyclic : cycleIn g = []
  orphans : NoErrors (orphanStage registry g)
  executionPath : NoErrors (executionPathStage registry g)
  provenance : NoErrors (provenanceStage registry g)
  leakage : ∃ found, leakageStage registry g = .ok found ∧ NoErrors found

theorem clear_iff :
    Clear registry options g ↔
      ∃ found, stageIssues registry options g = .ok found ∧ NoErrors found := by
  constructor
  · intro h
    obtain ⟨params, h_params, h_params_clear⟩ := h.params
    obtain ⟨leakage, h_leakage, h_leakage_clear⟩ := h.leakage
    refine ⟨_, by rw [stageIssues, h_params, h_leakage]; rfl, ?_⟩
    rw [h.structural, h.unresolved, cycleStage_eq_nil_iff.mpr h.acyclic]
    simp only [noErrors_append, List.append_nil]
    exact ⟨⟨⟨⟨⟨⟨⟨⟨h.migration, h_params_clear⟩, h.edges⟩, h.requiredInputs⟩, h.orphans⟩,
      h.executionPath⟩, h.provenance⟩, noErrors_warmup⟩, h_leakage_clear⟩
  · rintro ⟨found, h_found, h_clear⟩
    obtain ⟨params, h_params, h_found⟩ := Except.bind_eq_ok.mp h_found
    obtain ⟨leakage, h_leakage, rfl⟩ := Except.bind_pure_eq_ok.mp h_found
    simp only [noErrors_append] at h_clear
    obtain ⟨⟨⟨⟨⟨⟨⟨⟨⟨⟨⟨h_migration, h_structural⟩, h_unresolved⟩, h_params_clear⟩, h_edges⟩,
      h_requiredInputs⟩, h_cycle⟩, h_orphans⟩, h_executionPath⟩, h_provenance⟩, -⟩, h_leakage_clear⟩ :=
        h_clear
    exact
      { migration := h_migration
        structural := h_structural.eq_nil severity_structuralIssues
        unresolved := h_unresolved.eq_nil severity_unresolvedIssues
        params := ⟨params, h_params, h_params_clear⟩
        edges := h_edges
        requiredInputs := h_requiredInputs
        acyclic := cycleStage_eq_nil_iff.mp (h_cycle.eq_nil severity_cycleStage)
        orphans := h_orphans
        executionPath := h_executionPath
        provenance := h_provenance
        leakage := ⟨leakage, h_leakage, h_leakage_clear⟩ }

theorem Clear.resolved (h : Clear registry options g) : Resolved registry g :=
  resolved_of_no_issues h.structural h.unresolved

theorem Clear.congr (h : g.authored = g'.authored) (h_clear : Clear registry options g) :
    Clear registry options g' where
  migration := by
    have h_same : g.migrationIssues = g'.migrationIssues := congrArg Authored.migrationIssues h
    rw [migrationStage, ← h_same]
    exact h_clear.migration
  structural := structuralIssues_transfer h_clear.resolved h h_clear.structural
  unresolved := unresolvedIssues_eq_nil (h_clear.resolved.congr h)
  params := by
    obtain ⟨found, h_found, h_none⟩ := h_clear.params
    obtain ⟨found', h_found', h_subset⟩ := paramStage_subset h_clear.resolved h h_found
    exact ⟨found', h_found', h_none.mono h_subset⟩
  edges := h_clear.edges.mono (edgeStage_subset h_clear.resolved h)
  requiredInputs := h_clear.requiredInputs.mono (requiredInputStage_subset h_clear.resolved h)
  acyclic := (cycleIn_eq_nil_congr h).mp h_clear.acyclic
  orphans := h_clear.orphans.mono (orphanStage_subset h_clear.resolved h)
  executionPath := executionPathStage_congr h_clear.resolved h ▸ h_clear.executionPath
  provenance := h_clear.provenance.mono (provenanceStage_subset h_clear.resolved h)
  leakage := by
    obtain ⟨found, h_found, h_none⟩ := h_clear.leakage
    obtain ⟨found', h_found', h_subset⟩ := leakageStage_subset h_clear.resolved h h_found
    exact ⟨found', h_found', h_none.mono h_subset⟩

theorem severity_clientOverrides {state : ValidationState} :
    ∀ issue ∈ clientOverrides registry g state, issue.severity = .warning := by
  intro issue h_issue
  simp only [clientOverrides, List.mem_append, List.mem_flatMap] at h_issue
  rcases h_issue with (⟨node, -, h_issue⟩ | ⟨edge, -, h_issue⟩) | h_issue
  · unfold nodeOverrides at h_issue
    split at h_issue
    · cases h_issue
    · rcases List.mem_append.mp h_issue with h_issue | h_issue
      · rw [eq_of_reported h_issue]
      · rw [eq_of_reported h_issue]
  · unfold edgeOverrides at h_issue
    split at h_issue
    · rw [eq_of_reported h_issue]
    · cases h_issue
  · unfold stateOverrides at h_issue
    rw [eq_of_reported h_issue]

theorem validate_eq_ok_iff {report : ValidationReport} :
    validate registry options g = .ok report ↔
      ∃ found, stageIssues registry options g = .ok found ∧
        let errors := found.filter fun issue => issue.severity = .error
        let canonical := recomputeGraph registry g (stateOf errors)
        report =
          { errors := errors
            warnings := (found ++ clientOverrides registry g (stateOf errors)).filter fun issue =>
              issue.severity = .warning
            dagHash := if errors.isEmpty then some (computeDagHash canonical) else none
            canonicalGraph := canonical
            executionOrder := (executionOrder g).map Prod.fst
            executionLevels := (executionOrder g).map Prod.snd
            warmupByNode := ((warmupOf registry g).map Prod.fst).getD []
            warmupBars := (warmupOf registry g).map Prod.snd } := by
  have h_overrides : ∀ state, (clientOverrides registry g state).filter
      (fun issue => issue.severity = .error) = [] := by
    intro state
    rw [List.filter_eq_nil_iff]
    intro issue h_issue
    rw [severity_clientOverrides issue h_issue]
    decide
  rw [validate, Except.bind_eq_ok]
  refine exists_congr fun found => and_congr_right fun _ => ?_
  rw [Except.pure_eq_ok, List.filter_append, h_overrides, List.append_nil]
  exact eq_comm

/-- A graph is valid when its report holds no error. -/
def Validates (registry : Registry) (options : Options) (g : StrategyGraph) : Prop :=
  ∃ report, validate registry options g = .ok report ∧ report.valid

theorem validates_iff : Validates registry options g ↔ Clear registry options g := by
  rw [clear_iff]
  constructor
  · rintro ⟨report, h_report, h_valid⟩
    obtain ⟨found, h_found, rfl⟩ := validate_eq_ok_iff.mp h_report
    exact ⟨found, h_found, filter_error_eq_nil_iff.mp (List.isEmpty_iff.mp h_valid)⟩
  · rintro ⟨found, h_found, h_none⟩
    refine ⟨_, validate_eq_ok_iff.mpr ⟨found, h_found, rfl⟩, ?_⟩
    exact List.isEmpty_iff.mpr (filter_error_eq_nil_iff.mpr h_none)

theorem validates_congr (h : g.authored = g'.authored) :
    Validates registry options g ↔ Validates registry options g' := by
  rw [validates_iff, validates_iff]
  exact ⟨Clear.congr h, Clear.congr h.symm⟩

end VyomQuant.StrategyDag
