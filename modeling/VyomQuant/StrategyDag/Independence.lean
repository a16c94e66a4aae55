/-
  VyomQuant.StrategyDag.Independence

  Two graphs that differ in the nodes under one id (`SameBut`) have the same errors for
  every node that is not connected with it (`errors_congr`): a stage reads of a node what
  the registry publishes of its block, its own parameters and edges, and the nodes that
  reach it or that it reaches.
-/

import VyomQuant.StrategyDag.Verdict

namespace VyomQuant.StrategyDag

open Digraph (Reaches)

variable {registry : Registry} {options : Options} {g g' : StrategyGraph} {n m : String}

variable {id : String}

theorem node_id_eq {node : NodeSpec} (h : g.node id = some node) : node.id = id := by
  have h_id := List.find?_some h
  exact of_decide_eq_true h_id

/-! ## Graphs that differ in one node -/

/-- Node by node the same, except for those under the id `n`. -/
structure SameBut (n : String) (g g' : StrategyGraph) : Prop where
  schemaVersion : g.schemaVersion = g'.schemaVersion
  nodes : List.Forall₂ (fun node node' => node.id = node'.id ∧ (node.id ≠ n → node = node'))
    g.nodes g'.nodes
  edges : g.edges = g'.edges
  migrationIssues : g.migrationIssues = g'.migrationIssues

/-- Neither of two nodes reaches the other. -/
structure Unrelated (g : StrategyGraph) (n m : String) : Prop where
  forth : ¬ Reaches (arcs g) n m
  back : ¬ Reaches (arcs g) m n

theorem Unrelated.ne (h : Unrelated g n m) : m ≠ n := by
  rintro rfl
  exact h.forth .refl

theorem find?_congr {l l' : List NodeSpec}
    (h : List.Forall₂ (fun node node' => node.id = node'.id ∧ (node.id ≠ n → node = node')) l l')
    (h_id : id ≠ n) : (l.find? fun node => node.id = id) = l'.find? fun node => node.id = id := by
  induction h with
  | nil => rfl
  | @cons node node' _ _ h_head _ ih =>
    obtain ⟨h_same, h_node⟩ := h_head
    by_cases h_found : node.id = id
    · have h_eq : node = node' := h_node (h_found ▸ h_id)
      rw [List.find?_cons_of_pos (by simpa using h_found),
        List.find?_cons_of_pos (by simpa [← h_same] using h_found), h_eq]
    · rw [List.find?_cons_of_neg (by simpa using h_found),
        List.find?_cons_of_neg (by simpa [← h_same] using h_found), ih]

namespace SameBut

theorem symm (h : SameBut n g g') : SameBut n g' g where
  schemaVersion := h.schemaVersion.symm
  nodes := by
    refine List.Forall₂.flip (h.nodes.imp fun node node' h_node => ?_)
    exact ⟨h_node.1.symm, fun h_ne => (h_node.2 (h_node.1 ▸ h_ne)).symm⟩
  edges := h.edges.symm
  migrationIssues := h.migrationIssues.symm

variable (h : SameBut n g g')
include h

theorem nodeIds : g.nodeIds = g'.nodeIds := by
  rw [StrategyGraph.nodeIds, StrategyGraph.nodeIds, ← List.forall₂_eq_eq_eq,
    List.forall₂_map_left_iff, List.forall₂_map_right_iff]
  exact h.nodes.imp fun _ _ h_node => h_node.1

theorem arcs : arcs g = StrategyDag.arcs g' := by
  unfold StrategyDag.arcs
  rw [h.edges, h.nodeIds]

theorem nodeIndex (h_id : id ≠ n) : g.nodeIndex id = g'.nodeIndex id :=
  find?_congr (List.forall₂_reverse_iff.mpr h.nodes) h_id

theorem node (h_id : id ≠ n) : g.node id = g'.node id := find?_congr h.nodes h_id

theorem mem_nodes {node : NodeSpec} (h_id : node.id ≠ n) (h_node : node ∈ g.nodes) :
    node ∈ g'.nodes := by
  have h_nodes := h.nodes
  generalize g.nodes = l at h_nodes h_node
  generalize g'.nodes = l' at h_nodes ⊢
  induction h_nodes with
  | nil => cases h_node
  | cons h_head _ ih =>
    cases h_node with
    | head => rw [h_head.2 h_id]; exact List.mem_cons_self
    | tail _ h_rest => exact List.mem_cons_of_mem _ (ih h_rest)

theorem descriptorOf (h_id : id ≠ n) :
    descriptorOf registry g id = StrategyDag.descriptorOf registry g' id := by
  unfold StrategyDag.descriptorOf
  rw [h.nodeIndex h_id]

theorem mem_idsIn {category : BlockCategory} (h_id : id ≠ n)
    (h_mem : id ∈ idsIn registry g category) : id ∈ idsIn registry g' category := by
  obtain ⟨node, h_node, rfl⟩ := List.mem_map.mp h_mem
  obtain ⟨h_node, h_category⟩ := List.mem_filter.mp h_node
  refine List.mem_map_of_mem (List.mem_filter.mpr ⟨h.mem_nodes h_id h_node, ?_⟩)
  rw [categoryIn, ← h.descriptorOf h_id]
  exact h_category

theorem unrelated (h_un : Unrelated g n m) : Unrelated g' n m := by
  obtain ⟨h_forth, h_back⟩ := h_un
  rw [h.arcs] at h_forth h_back
  exact ⟨h_forth, h_back⟩

end SameBut

variable {edge : EdgeSpec}

theorem Unrelated.edge_ne (h_un : Unrelated g n m) (h_edge : edge ∈ g.edges)
    (h_source : edge.source ∈ g.nodeIds) (h_target : edge.target ∈ g.nodeIds)
    (h : m = edge.source ∨ m = edge.target) : edge.source ≠ n ∧ edge.target ≠ n := by
  have h_arc : Reaches (arcs g) edge.source edge.target :=
    .single (mem_arcs.mpr ⟨edge, h_edge, rfl, rfl, h_source, h_target⟩)
  rcases h with rfl | rfl
  · refine ⟨h_un.ne, ?_⟩
    rintro rfl
    exact h_un.back h_arc
  · refine ⟨?_, h_un.ne⟩
    rintro rfl
    exact h_un.forth h_arc

/-! ## Stage by stage -/

/-- The issues about the node `m` in one list are in the other. -/
def AboutSubset (m : String) (issues issues' : List Issue) : Prop :=
  ∀ issue ∈ issues, issue.nodeId = some m → issue ∈ issues'

theorem AboutSubset.append {issues₁ issues₁' issues₂ issues₂' : List Issue}
    (h₁ : AboutSubset m issues₁ issues₁') (h₂ : AboutSubset m issues₂ issues₂') :
    AboutSubset m (issues₁ ++ issues₂) (issues₁' ++ issues₂') := by
  intro issue h_issue h_about
  rcases List.mem_append.mp h_issue with h_issue | h_issue
  · exact List.mem_append_left _ (h₁ issue h_issue h_about)
  · exact List.mem_append_right _ (h₂ issue h_issue h_about)

variable {issues found found' : List Issue}

theorem AboutSubset.of_eq {issues' : List Issue} (h : issues = issues') :
    AboutSubset m issues issues' := fun _ h_issue _ => h ▸ h_issue

theorem AboutSubset.of_none {issues' : List Issue} (h : ∀ issue ∈ issues, issue.nodeId = none) :
    AboutSubset m issues issues' := by
  intro issue h_issue h_about
  rw [h issue h_issue] at h_about
  cases h_about

variable {issue : Issue}

section Stages

variable (h : SameBut n g g') (h_un : Unrelated g n m)
include h

theorem migrationStage_congr : migrationStage options g = migrationStage options g' := by
  unfold migrationStage
  rw [h.migrationIssues]

theorem cycleStage_congr : cycleStage g = cycleStage g' := by
  unfold cycleStage closingEdge cycleIn
  rw [h.nodeIds, h.arcs, h.edges]

omit h in
theorem nodeId_overLimit {code : IssueCode} {key : String} {permitted actual : ℤ} :
    ∀ issue ∈ overLimit code key permitted actual, issue.nodeId = none := by
  intro issue h_issue
  unfold overLimit at h_issue
  rw [eq_of_reported h_issue]

theorem limitIssues_about :
    AboutSubset m (limitIssues registry options g) (limitIssues registry options g') := by
  unfold limitIssues
  dsimp only
  refine .append (.append (.append (.append (.append ?_ ?_) ?_) ?_) ?_) ?_
  · exact .of_none nodeId_overLimit
  · exact .of_none nodeId_overLimit
  · exact .of_none nodeId_overLimit
  · exact .of_none nodeId_overLimit
  · split
    · exact .of_none nodeId_overLimit
    · exact .of_none nofun
  · refine .of_eq ?_
    unfold fanInKeys inbound
    rw [h.edges]

theorem structuralIssues_about :
    AboutSubset m (structuralIssues registry options g) (structuralIssues registry options g') := by
  unfold structuralIssues
  refine .append (.append (.append (.append ?_ ?_) ?_) ?_) (limitIssues_about h)
  · rw [h.schemaVersion]
    exact .of_eq rfl
  · refine .of_none ?_
    intro issue h_issue
    rw [eq_of_reported h_issue]
  · rw [h.nodeIds]
    exact .of_eq rfl
  · rw [h.nodeIds, h.edges]
    exact .of_eq rfl

include h_un

theorem unresolvedIssues_about :
    AboutSubset m (unresolvedIssues registry g) (unresolvedIssues registry g') := by
  intro issue h_issue h_about
  obtain ⟨node, h_node, rfl⟩ := List.mem_map.mp h_issue
  obtain rfl : node.id = m := Option.some.inj h_about
  obtain ⟨h_node, h_none⟩ := List.mem_filter.mp h_node
  refine List.mem_map_of_mem (List.mem_filter.mpr ⟨h.mem_nodes h_un.ne h_node, ?_⟩)
  rw [← h.descriptorOf h_un.ne]
  exact h_none

theorem requiredInputStage_about :
    AboutSubset m (requiredInputStage registry g) (requiredInputStage registry g') := by
  intro issue h_issue h_about
  obtain ⟨node, h_node, h_issue⟩ := List.mem_flatMap.mp h_issue
  split at h_issue
  · rename_i descriptor h_descriptor
    obtain ⟨port, h_port, rfl⟩ := List.mem_map.mp h_issue
    obtain rfl : node.id = m := Option.some.inj h_about
    refine List.mem_flatMap.mpr ⟨node, h.mem_nodes h_un.ne h_node, ?_⟩
    rw [← h.descriptorOf h_un.ne, h_descriptor]
    refine List.mem_map_of_mem (f := fun port : Port => _) ?_
    unfold inbound at h_port ⊢
    rw [← h.edges]
    exact h_port
  · cases h_issue

omit h h_un in
theorem nodeId_paramIssues {descriptor : BlockDescriptor} {nodeId : String} {params : Params}
    (h_issues : paramIssues descriptor nodeId params = .ok issues) :
    ∀ issue ∈ issues, issue.nodeId = some nodeId := by
  obtain ⟨problems, h_problems, h_rest⟩ := Except.bind_eq_ok.mp h_issues
  obtain ⟨raws, -, rfl⟩ := Except.bind_pure_eq_ok.mp h_rest
  intro issue h_issue
  rw [List.mem_append, List.mem_append] at h_issue
  rcases h_issue with (h_issue | h_issue) | h_issue
  · obtain ⟨found, h_found, h_issue⟩ := List.mem_flatten.mp h_issue
    obtain ⟨param, -, h_run⟩ := Except.exists_of_mem_mapM h_problems h_found
    obtain ⟨problems', -, h_map⟩ := Except.bind_eq_ok.mp h_run
    cases h_map
    obtain ⟨problem, -, rfl⟩ := List.mem_map.mp h_issue
    rfl
  · obtain ⟨key, -, rfl⟩ := List.mem_map.mp h_issue
    rfl
  · obtain ⟨raw, -, rfl⟩ := List.mem_map.mp h_issue
    rfl

theorem paramStage_about (h_found : paramStage registry g = .ok found)
    (h_found' : paramStage registry g' = .ok found') : AboutSubset m found found' := by
  obtain ⟨issues, h_issues, h_flatten⟩ := Except.bind_eq_ok.mp h_found
  obtain ⟨issues', h_issues', h_flatten'⟩ := Except.bind_eq_ok.mp h_found'
  cases h_flatten
  cases h_flatten'
  intro issue h_issue h_about
  obtain ⟨nodeIssues, h_nodeIssues, h_issue⟩ := List.mem_flatten.mp h_issue
  obtain ⟨node, h_node, h_run⟩ := Except.exists_of_mem_mapM h_issues h_nodeIssues
  have h_id : node.id = m := by
    unfold nodeParamIssues at h_run
    split at h_run
    · exact Option.some.inj ((nodeId_paramIssues h_run issue h_issue).symm.trans h_about)
    · cases h_run
      cases h_issue
  subst h_id
  obtain ⟨found', h_mem, h_run'⟩ := Except.exists_mem_mapM h_issues' (h.mem_nodes h_un.ne h_node)
  rw [nodeParamIssues, ← h.descriptorOf h_un.ne] at h_run'
  have h_same : nodeIssues = found' := Except.ok.inj (h_run.symm.trans h_run')
  exact List.mem_flatten.mpr ⟨found', h_mem, h_same ▸ h_issue⟩

omit h h_un in
theorem nodeId_portsIssue {src dst : String} {srcDescriptor dstDescriptor : Option BlockDescriptor}
    (h_issue : portsIssue g edge src dst srcDescriptor dstDescriptor = some issue) :
    issue.nodeId = some src ∨ issue.nodeId = some dst := by
  unfold portsIssue at h_issue
  split at h_issue
  · cases h_issue
    exact .inl rfl
  · split at h_issue
    · cases h_issue
      exact .inr rfl
    · split_ifs at h_issue
      · cases h_issue
        exact .inr rfl
      · cases h_issue
        exact .inr rfl

omit h h_un in
theorem nodeId_isEdgeLegal (h_issue : isEdgeLegal registry g edge = some issue)
    (h_about : issue.nodeId = some m) : m = edge.source ∨ m = edge.target := by
  unfold isEdgeLegal at h_issue
  split at h_issue
  · rename_i src dst h_src h_dst
    have h_src_id : src.id = edge.source := node_id_eq h_src
    have h_dst_id : dst.id = edge.target := node_id_eq h_dst
    have h_end : issue.nodeId = some src.id ∨ issue.nodeId = some dst.id := by
      dsimp only at h_issue
      split_ifs at h_issue
      · cases h_issue
        exact .inl rfl
      · cases h_issue
        exact .inl rfl
      · cases h_issue
        exact .inr rfl
      · exact nodeId_portsIssue h_issue
    rw [h_about, h_src_id, h_dst_id] at h_end
    exact h_end.imp Option.some.inj Option.some.inj
  · cases h_issue
    cases h_about

theorem edgeStage_about : AboutSubset m (edgeStage registry g) (edgeStage registry g') := by
  intro issue h_issue h_about
  obtain ⟨edge, h_edge, h_legal⟩ := List.mem_filterMap.mp h_issue
  obtain ⟨h_edge, h_known⟩ := List.mem_filter.mp h_edge
  obtain ⟨h_source, h_target⟩ := of_decide_eq_true h_known
  have h_end := nodeId_isEdgeLegal h_legal h_about
  obtain ⟨h_source_ne, h_target_ne⟩ := h_un.edge_ne h_edge h_source h_target h_end
  refine List.mem_filterMap.mpr ⟨edge, List.mem_filter.mpr ⟨h.edges ▸ h_edge, ?_⟩, ?_⟩
  · rw [← h.nodeIds]
    exact h_known
  · rw [← h_legal]
    unfold isEdgeLegal
    rw [← h.node h_source_ne, ← h.node h_target_ne]
    split
    · rename_i src dst h_src h_dst
      have h_src_id : src.id = edge.source := node_id_eq h_src
      have h_dst_id : dst.id = edge.target := node_id_eq h_dst
      unfold portsIssue inbound
      rw [h_src_id, h_dst_id, ← h.descriptorOf h_source_ne, ← h.descriptorOf h_target_ne, ← h.edges]
    · rfl

theorem orphanStage_about : AboutSubset m (orphanStage registry g) (orphanStage registry g') := by
  intro issue h_issue h_about
  obtain ⟨id, h_id, rfl⟩ := List.mem_map.mp h_issue
  obtain rfl : id = m := Option.some.inj h_about
  obtain ⟨h_known, h_orphan⟩ := List.mem_filter.mp h_id
  obtain ⟨h_down, h_up⟩ := of_decide_eq_true h_orphan
  refine List.mem_map_of_mem (f := fun id : String => _)
    (List.mem_filter.mpr ⟨h.nodeIds ▸ h_known, decide_eq_true ⟨fun h_down' => h_down ?_,
      fun h_up' => h_up ?_⟩⟩)
  · rw [downstreamOfData, Digraph.mem_reachableFrom] at h_down' ⊢
    obtain ⟨root, h_root, h_reaches⟩ := h_down'
    rw [← h.arcs] at h_reaches
    refine ⟨root, h.symm.mem_idsIn ?_ h_root, h_reaches⟩
    rintro rfl
    exact h_un.forth h_reaches
  · rw [mem_upstreamOf] at h_up' ⊢
    obtain ⟨root, h_root, h_reaches⟩ := h_up'
    rw [← h.arcs] at h_reaches
    refine ⟨root, h.symm.mem_idsIn ?_ h_root, h_reaches⟩
    rintro rfl
    exact h_un.back h_reaches

omit h h_un in
theorem executionPathStage_about :
    AboutSubset m (executionPathStage registry g) (executionPathStage registry g') := by
  refine .of_none fun issue h_issue => ?_
  unfold executionPathStage at h_issue
  rcases List.mem_append.mp h_issue with h_issue | h_issue
  · obtain ⟨ids, -, rfl⟩ := List.mem_map.mp h_issue
    rfl
  · rw [eq_of_reported h_issue]

theorem provenanceIssues_about {actionId : String} (h_action : actionId ∈ g.nodeIds) :
    AboutSubset m (provenanceIssues registry g actionId) (provenanceIssues registry g' actionId) := by
  intro issue h_issue h_about
  obtain ⟨edge, h_edge, h_found⟩ := List.mem_filterMap.mp h_issue
  obtain ⟨h_mem, h_target⟩ := mem_fedInbound.mp h_edge
  refine List.mem_filterMap.mpr ⟨edge, mem_fedInbound.mpr ⟨h.edges ▸ h_mem, h_target⟩, ?_⟩
  cases h_index : g.nodeIndex edge.source with
  | none =>
    rw [h_index] at h_found
    cases h_found
  | some source =>
    obtain ⟨h_source, h_source_id⟩ := StrategyGraph.nodeIndex_eq_some h_index
    rw [h_index] at h_found
    -- the issue is about the source, so neither end is the node that differs
    have h_id : source.id = m := by
      dsimp only at h_found
      split at h_found
      · cases h_found
      · cases h_found
        exact Option.some.inj h_about
    have h_known : edge.source ∈ g.nodeIds := h_source_id ▸ List.mem_map_of_mem h_source
    obtain ⟨h_source_ne, -⟩ := h_un.edge_ne h_mem h_known (h_target ▸ h_action)
      (.inl (h_id.symm.trans h_source_id))
    rw [← h.nodeIndex h_source_ne, h_index]
    dsimp only at h_found ⊢
    rw [h_source_id, ← h.descriptorOf h_source_ne, ← h_source_id]
    exact h_found

theorem multiSymbolIssues_about :
    multiSymbolIssues registry g m = multiSymbolIssues registry g' m := by
  have h_ne : ∀ id ∈ upstreamOf g [m], id ≠ n := by
    intro id h_id
    obtain ⟨root, h_root, h_reaches⟩ := mem_upstreamOf.mp h_id
    rw [List.mem_singleton.mp h_root] at h_reaches
    rintro rfl
    exact h_un.forth h_reaches
  have h_closure : upstreamOf g' [m] = upstreamOf g [m] := by
    unfold upstreamOf
    rw [h.arcs]
  have h_symbols : (upstreamOf g [m]).filterMap (dataSymbol registry g)
      = (upstreamOf g [m]).filterMap (dataSymbol registry g') := by
    refine List.filterMap_congr fun id h_id => ?_
    unfold dataSymbol
    rw [h.nodeIndex (h_ne id h_id), h.descriptorOf (h_ne id h_id)]
  have h_allocator : (upstreamOf g [m]).any (isAllocator registry g)
      = (upstreamOf g [m]).any (isAllocator registry g') := by
    rw [Bool.eq_iff_iff, List.any_eq_true, List.any_eq_true]
    refine exists_congr fun id => and_congr_right fun h_id => ?_
    unfold isAllocator
    rw [h.nodeIndex (h_ne id h_id), h.descriptorOf (h_ne id h_id)]
  unfold multiSymbolIssues
  dsimp only
  rw [h_closure, h_symbols, h_allocator]

theorem provenanceStage_about :
    AboutSubset m (provenanceStage registry g) (provenanceStage registry g') := by
  intro issue h_issue h_about
  obtain ⟨actionId, h_action, h_issue⟩ := List.mem_flatMap.mp h_issue
  have h_known : actionId ∈ g.nodeIds := by
    obtain ⟨node, h_node, rfl⟩ := List.mem_map.mp h_action
    exact List.mem_map_of_mem (List.mem_of_mem_filter h_node)
  rcases List.mem_append.mp h_issue with h_provenance | h_multi
  · obtain ⟨edge, h_edge, h_found⟩ := List.mem_filterMap.mp h_provenance
    obtain ⟨h_mem, h_target⟩ := mem_fedInbound.mp h_edge
    have h_source : m = edge.source ∧ edge.source ∈ g.nodeIds := by
      split at h_found
      · cases h_found
      · rename_i source h_index
        obtain ⟨h_node, h_id⟩ := StrategyGraph.nodeIndex_eq_some h_index
        split at h_found
        · cases h_found
        · cases h_found
          exact ⟨(Option.some.inj h_about).symm.trans h_id, h_id ▸ List.mem_map_of_mem h_node⟩
    have h_ends := h_un.edge_ne h_mem h_source.2 (h_target ▸ h_known) (.inl h_source.1)
    refine List.mem_flatMap.mpr ⟨actionId, h.mem_idsIn (h_target ▸ h_ends.2) h_action, ?_⟩
    exact List.mem_append_left _ (provenanceIssues_about h h_un h_known issue h_provenance h_about)
  · have h_id : actionId = m := by
      unfold multiSymbolIssues at h_multi
      dsimp only at h_multi
      split at h_multi
      · rw [List.mem_singleton.mp h_multi] at h_about
        exact Option.some.inj h_about
      · cases h_multi
    subst h_id
    refine List.mem_flatMap.mpr ⟨actionId, h.mem_idsIn h_un.ne h_action, ?_⟩
    rw [← multiSymbolIssues_about h h_un]
    exact List.mem_append_right _ h_multi

/-- A model downstream of a node that `m` feeds is a model in both graphs. -/
theorem mem_mlReachable_about (h_back : ¬ Reaches (arcs g) id n) :
    id ∈ mlReachable registry g ↔ id ∈ mlReachable registry g' := by
  unfold mlReachable
  rw [mem_upstreamOf, mem_upstreamOf, ← h.arcs, ← h.nodeIds]
  refine exists_congr fun root => ?_
  rw [List.mem_filter, List.mem_filter]
  refine ⟨fun ⟨h_root, h_reaches⟩ => ⟨?_, h_reaches⟩, fun ⟨h_root, h_reaches⟩ => ⟨?_, h_reaches⟩⟩
  · rw [← h.descriptorOf (by rintro rfl; exact h_back h_reaches)]
    exact h_root
  · rw [h.descriptorOf (by rintro rfl; exact h_back h_reaches)]
    exact h_root

theorem leakyFeatureIssues_about (descriptor : BlockDescriptor) {node : AuthoredNode}
    (h_node : node.id = m) (h_known : m ∈ g.nodeIds) :
    leakyFeatureIssues registry g descriptor node = leakyFeatureIssues registry g' descriptor node := by
  subst h_node
  have h_own : node.id ∈ mlReachable registry g ↔ node.id ∈ mlReachable registry g' :=
    mem_mlReachable_about h h_un h_un.back
  have h_edges : ∀ edge ∈ g.edges, edge.source = node.id →
      (edge.target ∈ mlReachable registry g ↔ edge.target ∈ mlReachable registry g') := by
    intro edge h_edge h_source
    by_cases h_target : edge.target ∈ g.nodeIds
    · refine mem_mlReachable_about h h_un fun h_reaches => h_un.back ?_
      refine .head (mem_arcs.mpr ⟨edge, h_edge, h_source, rfl, h_known, h_target⟩) h_reaches
    · -- an end that is no node reaches none
      have h_none : ∀ {g₀ : StrategyGraph}, g₀.nodeIds = g.nodeIds →
          edge.target ∉ mlReachable registry g₀ := by
        intro g₀ h_ids h_mem
        obtain ⟨root, h_root, h_reaches⟩ := mem_upstreamOf.mp h_mem
        cases h_reaches.cases_head with
        | inl h_eq =>
          rw [h_eq] at h_target
          exact h_target (h_ids ▸ List.mem_of_mem_filter h_root)
        | inr h_step =>
          obtain ⟨next, h_arc, -⟩ := h_step
          exact h_target (h_ids ▸ (arcs_known h_arc).1)
      exact iff_of_false (h_none rfl) (h_none h.nodeIds.symm)
  unfold leakyFeatureIssues
  simp only [h_own, ← h.edges]
  split_ifs with h_free h_leaky
  · rfl
  · refine congrArg (List.map _) (List.filter_congr fun edge h_edge => ?_)
    rw [decide_eq_decide]
    refine and_congr_right fun h_source => and_congr_right fun _ => ?_
    exact h_edges edge h_edge h_source
  · rfl
  · rfl

omit h h_un in
theorem nodeId_leakageIssues {descriptor : BlockDescriptor} {node : AuthoredNode}
    (h_issues : leakageIssues registry g descriptor node = .ok issues) :
    ∀ issue ∈ issues, issue.nodeId = some node.id := by
  obtain ⟨shifts, h_shifts, rfl⟩ := Except.bind_pure_eq_ok.mp h_issues
  intro issue h_issue
  rw [List.mem_append, List.mem_append] at h_issue
  rcases h_issue with (h_issue | h_issue) | h_issue
  · unfold shiftIssues at h_shifts
    split at h_shifts
    · obtain ⟨bars, -, rfl⟩ := Except.bind_pure_eq_ok.mp h_shifts
      rw [eq_of_reported h_issue]
    · cases h_shifts
      cases h_issue
  · unfold globalStatisticIssues at h_issue
    rw [eq_of_reported h_issue]
  · unfold leakyFeatureIssues at h_issue
    split_ifs at h_issue
    · cases h_issue
    · obtain ⟨edge, -, rfl⟩ := List.mem_map.mp h_issue
      rfl
    · rw [List.mem_singleton.mp h_issue]
    · cases h_issue

theorem leakageStage_about (h_found : leakageStage registry g = .ok found)
    (h_found' : leakageStage registry g' = .ok found') : AboutSubset m found found' := by
  obtain ⟨issues, h_issues, h_sorted⟩ := Except.bind_eq_ok.mp h_found
  obtain ⟨issues', h_issues', h_sorted'⟩ := Except.bind_eq_ok.mp h_found'
  cases h_sorted
  cases h_sorted'
  intro issue h_issue h_about
  rw [List.mem_insertionSort] at h_issue ⊢
  obtain ⟨nodeIssues, h_nodeIssues, h_issue⟩ := List.mem_flatten.mp h_issue
  obtain ⟨node, h_node, h_run⟩ := Except.exists_of_mem_mapM h_issues h_nodeIssues
  have h_id : node.id = m := by
    unfold nodeLeakageIssues at h_run
    split at h_run
    · exact Option.some.inj ((nodeId_leakageIssues h_run issue h_issue).symm.trans h_about)
    · cases h_run
      cases h_issue
  obtain ⟨found', h_mem, h_run'⟩ :=
    Except.exists_mem_mapM h_issues' (h.mem_nodes (h_id ▸ h_un.ne) h_node)
  have h_same : nodeLeakageIssues registry g node = nodeLeakageIssues registry g' node := by
    unfold nodeLeakageIssues leakageIssues
    rw [← h.descriptorOf (h_id ▸ h_un.ne)]
    split
    · rename_i descriptor _
      rw [leakyFeatureIssues_about h h_un descriptor (show node.authored.id = m from h_id)
        (h_id ▸ List.mem_map_of_mem h_node)]
    · rfl
  rw [← h_same, h_run, Except.ok.injEq] at h_run'
  exact List.mem_flatten.mpr ⟨found', h_mem, h_run' ▸ h_issue⟩

theorem stageIssues_about (h_found : stageIssues registry options g = .ok found)
    (h_found' : stageIssues registry options g' = .ok found') : AboutSubset m found found' := by
  obtain ⟨params, h_params, h_rest⟩ := Except.bind_eq_ok.mp h_found
  obtain ⟨leakage, h_leakage, h_eq⟩ := Except.bind_eq_ok.mp h_rest
  obtain ⟨params', h_params', h_rest'⟩ := Except.bind_eq_ok.mp h_found'
  obtain ⟨leakage', h_leakage', h_eq'⟩ := Except.bind_eq_ok.mp h_rest'
  cases h_eq
  cases h_eq'
  refine .append (.append (.append (.append (.append (.append (.append (.append (.append (.append
    (.append ?_ ?_) ?_) ?_) ?_) ?_) ?_) ?_) ?_) ?_) ?_) ?_
  · exact .of_eq (migrationStage_congr h)
  · exact structuralIssues_about h
  · exact unresolvedIssues_about h h_un
  · exact paramStage_about h h_un h_params h_params'
  · exact edgeStage_about h h_un
  · exact requiredInputStage_about h h_un
  · exact .of_eq (cycleStage_congr h)
  · exact orphanStage_about h h_un
  · exact executionPathStage_about
  · exact provenanceStage_about h h_un
  · refine .of_none fun issue h_issue => ?_
    cases h_warmup : warmupOf registry g with
    | none =>
      rw [h_warmup] at h_issue
      cases h_issue
    | some warmup =>
      rw [h_warmup, Option.elim_some, warmupStage] at h_issue
      split at h_issue
      · cases h_issue
      · rw [eq_of_reported h_issue]
  · exact leakageStage_about h h_un h_leakage h_leakage'

end Stages

theorem errors_congr {report report' : ValidationReport} (h : SameBut n g g')
    (h_un : Unrelated g n m) (h_report : validate registry options g = .ok report)
    (h_report' : validate registry options g' = .ok report') (h_about : issue.nodeId = some m) :
    issue ∈ report.errors ↔ issue ∈ report'.errors := by
  obtain ⟨found, h_found, rfl⟩ := validate_eq_ok_iff.mp h_report
  obtain ⟨found', h_found', rfl⟩ := validate_eq_ok_iff.mp h_report'
  have h_forth := stageIssues_about h h_un h_found h_found'
  have h_back := stageIssues_about h.symm (h.unrelated h_un) h_found' h_found
  dsimp only
  rw [List.mem_filter, List.mem_filter]
  exact and_congr_left fun _ => ⟨fun h_mem => h_forth issue h_mem h_about,
    fun h_mem => h_back issue h_mem h_about⟩

end VyomQuant.StrategyDag
