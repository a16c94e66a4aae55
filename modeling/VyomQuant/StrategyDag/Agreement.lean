/-
  VyomQuant.StrategyDag.Agreement

  Two graphs with the same authored part: what the validator derives from them is the same,
  up to the order of the lists.

  The wiring is the same in any case.  Descriptors and categories are, where every id stands
  once and the registry publishes every block (`Resolved`): else the descriptor of an id
  depends on which of two nodes comes last, and the category is the client's.
-/

import VyomQuant.StrategyDag.Validator

namespace VyomQuant.StrategyDag

open Digraph (Reaches converse)

variable {registry : Registry} {g g' : StrategyGraph}

/-! ## Nodes and edges -/

theorem nodes_perm (h : g.authored = g'.authored) :
    (g.nodes.map NodeSpec.authored).Perm (g'.nodes.map NodeSpec.authored) :=
  Multiset.coe_eq_coe.mp (congrArg Authored.nodes h)

theorem edges_perm (h : g.authored = g'.authored) :
    (g.edges.map EdgeSpec.authored).Perm (g'.edges.map EdgeSpec.authored) :=
  Multiset.coe_eq_coe.mp (congrArg Authored.edges h)

theorem exists_node (h : g.authored = g'.authored) {node' : NodeSpec} (h_node : node' ∈ g'.nodes) :
    ∃ node ∈ g.nodes, node.authored = node'.authored :=
  List.mem_map.mp ((nodes_perm h).symm.subset (List.mem_map_of_mem h_node))

theorem exists_edge (h : g.authored = g'.authored) {edge' : EdgeSpec} (h_edge : edge' ∈ g'.edges) :
    ∃ edge ∈ g.edges, edge.authored = edge'.authored :=
  List.mem_map.mp ((edges_perm h).symm.subset (List.mem_map_of_mem h_edge))

theorem nodeIds_perm (h : g.authored = g'.authored) : g.nodeIds.Perm g'.nodeIds := by
  have h_ids := (nodes_perm h).map AuthoredNode.id
  rw [List.map_map, List.map_map] at h_ids
  exact h_ids

theorem mem_nodeIds_congr (h : g.authored = g'.authored) (nodeId : String) :
    nodeId ∈ g.nodeIds ↔ nodeId ∈ g'.nodeIds := (nodeIds_perm h).mem_iff

theorem edges_map_perm {α : Type} (h : g.authored = g'.authored) (f : AuthoredEdge → α) :
    (g.edges.map fun edge => f edge.authored).Perm (g'.edges.map fun edge => f edge.authored) := by
  have h_edges := (edges_perm h).map f
  rw [List.map_map, List.map_map] at h_edges
  exact h_edges

theorem edges_filter_perm (h : g.authored = g'.authored) (p : AuthoredEdge → Bool) :
    ((g.edges.filter fun edge => p edge.authored).map EdgeSpec.authored).Perm
      ((g'.edges.filter fun edge => p edge.authored).map EdgeSpec.authored) := by
  have h_edges := (edges_perm h).filter p
  rw [List.filter_map, List.filter_map] at h_edges
  exact h_edges

theorem inbound_perm (h : g.authored = g'.authored) (nodeId port : String) :
    ((inbound g nodeId port).map EdgeSpec.authored).Perm
      ((inbound g' nodeId port).map EdgeSpec.authored) :=
  edges_filter_perm h fun edge => edge.target = nodeId ∧ edge.targetPort = port

/-! ## Arcs -/

theorem mem_arcs {arc : String × String} :
    arc ∈ arcs g ↔ ∃ edge ∈ g.edges, edge.source = arc.1 ∧ edge.target = arc.2 ∧
      arc.1 ∈ g.nodeIds ∧ arc.2 ∈ g.nodeIds := by
  rw [arcs, List.mem_eraseDups, List.mem_map]
  constructor
  · rintro ⟨edge, h_edge, rfl⟩
    obtain ⟨h_edge, h_known⟩ := List.mem_filter.mp h_edge
    obtain ⟨h_source, h_target⟩ := of_decide_eq_true h_known
    exact ⟨edge, h_edge, rfl, rfl, h_source, h_target⟩
  · rintro ⟨edge, h_edge, h_source, h_target, h_known⟩
    refine ⟨edge, List.mem_filter.mpr ⟨h_edge, ?_⟩, ?_⟩
    · rw [h_source, h_target]
      exact decide_eq_true h_known
    · rw [h_source, h_target]

theorem arcs_known {arc : String × String} (h : arc ∈ arcs g) :
    arc.1 ∈ g.nodeIds ∧ arc.2 ∈ g.nodeIds := by
  obtain ⟨edge, -, -, -, h_known⟩ := mem_arcs.mp h
  exact h_known

theorem arcs_subset (h : g.authored = g'.authored) {arc : String × String} (h_arc : arc ∈ arcs g') :
    arc ∈ arcs g := by
  obtain ⟨edge', h_edge', h_source, h_target, h_known⟩ := mem_arcs.mp h_arc
  obtain ⟨edge, h_edge, h_authored⟩ := exists_edge h h_edge'
  refine mem_arcs.mpr ⟨edge, h_edge, ?_, ?_, ?_⟩
  · exact (congrArg AuthoredEdge.source h_authored).trans h_source
  · exact (congrArg AuthoredEdge.target h_authored).trans h_target
  · rw [mem_nodeIds_congr h, mem_nodeIds_congr h]
    exact h_known

theorem mem_arcs_congr (h : g.authored = g'.authored) (arc : String × String) :
    arc ∈ arcs g ↔ arc ∈ arcs g' := ⟨arcs_subset h.symm, arcs_subset h⟩

theorem arc_congr (h : g.authored = g'.authored) {v w : String} :
    Digraph.Arc (arcs g) v w ↔ Digraph.Arc (arcs g') v w := mem_arcs_congr h (v, w)

theorem reaches_congr (h : g.authored = g'.authored) : Reaches (arcs g) = Reaches (arcs g') :=
  Reaches.congr (mem_arcs_congr h)

theorem mem_upstreamOf {roots : List String} {nodeId : String} :
    nodeId ∈ upstreamOf g roots ↔ ∃ root ∈ roots, Reaches (arcs g) nodeId root := by
  rw [upstreamOf, Digraph.mem_reachableFrom]
  simp only [Digraph.reaches_converse]

theorem mem_upstreamOf_congr (h : g.authored = g'.authored) {roots roots' : List String}
    (h_roots : ∀ root, root ∈ roots ↔ root ∈ roots') (nodeId : String) :
    nodeId ∈ upstreamOf g roots ↔ nodeId ∈ upstreamOf g' roots' := by
  simp only [mem_upstreamOf, reaches_congr h, h_roots]

theorem cycleIn_eq_nil_iff : cycleIn g = [] ↔ Digraph.Acyclic (arcs g) :=
  Digraph.findCycle_eq_nil_iff fun _ h_arc => arcs_known h_arc

theorem cycleIn_eq_nil_congr (h : g.authored = g'.authored) : cycleIn g = [] ↔ cycleIn g' = [] := by
  rw [cycleIn_eq_nil_iff, cycleIn_eq_nil_iff]
  exact Digraph.Acyclic.congr (mem_arcs_congr h)

theorem executionOrder_spec (h : cycleIn g = []) :
    ∃ levels, executionOrder g = some (levels.flatten, levels) ∧
      Digraph.Levelled g.nodeIds (arcs g) [] levels ∧
      Digraph.TopologicalOrder g.nodeIds (arcs g) levels.flatten ∧
      Digraph.Levelling g.nodeIds (arcs g) levels := by
  rw [executionOrder, if_pos h]
  exact Digraph.topologicalOrder_of_acyclic (fun _ h_arc => arcs_known h_arc)
    (cycleIn_eq_nil_iff.mp h)

theorem executionOrder_congr (h : g.authored = g'.authored) :
    executionOrder g = executionOrder g' := by
  by_cases h_cycle : cycleIn g = []
  · obtain ⟨levels, h_order, h_levelled, -⟩ := executionOrder_spec h_cycle
    obtain ⟨levels', h_order', h_levelled', -⟩ :=
      executionOrder_spec ((cycleIn_eq_nil_congr h).mp h_cycle)
    have h_levels : levels = levels' := Digraph.Levelled.unique (mem_nodeIds_congr h)
      (mem_arcs_congr h) (fun _ => Iff.rfl) h_levelled h_levelled'
    rw [h_order, h_order', h_levels]
  · rw [executionOrder, executionOrder, if_neg h_cycle,
      if_neg (mt (cycleIn_eq_nil_congr h).mpr h_cycle)]

/-! ## Resolved graphs -/

/-- Every id stands once, and every block is published. -/
structure Resolved (registry : Registry) (g : StrategyGraph) : Prop where
  nodup : g.nodeIds.Nodup
  published : ∀ node ∈ g.nodes, ∃ descriptor, registry node.blockId = some descriptor

theorem Resolved.congr (h : g.authored = g'.authored) (h_resolved : Resolved registry g) :
    Resolved registry g' where
  nodup := (nodeIds_perm h).nodup_iff.mp h_resolved.nodup
  published := by
    intro node' h_node'
    obtain ⟨node, h_node, h_authored⟩ := exists_node h h_node'
    have h_block : node.blockId = node'.blockId := congrArg AuthoredNode.blockId h_authored
    rw [← h_block]
    exact h_resolved.published node h_node

theorem descriptorOf_of_mem (h_nodup : g.nodeIds.Nodup) {node : NodeSpec} (h : node ∈ g.nodes) :
    descriptorOf registry g node.id = registry node.blockId := by
  rw [descriptorOf, StrategyGraph.nodeIndex_of_mem h_nodup h]
  rfl

theorem descriptorOf_eq_none {nodeId : String} (h : nodeId ∉ g.nodeIds) :
    descriptorOf registry g nodeId = none := by
  rw [descriptorOf, StrategyGraph.nodeIndex_eq_none h]
  rfl

theorem categoryIn_eq {node : NodeSpec} {descriptor : BlockDescriptor}
    (h : descriptorOf registry g node.id = some descriptor) :
    categoryIn registry g node = descriptor.category := by
  rw [categoryIn, h]
  rfl

namespace Resolved

variable (h_resolved : Resolved registry g)
include h_resolved

theorem exists_descriptor {node : NodeSpec} (h : node ∈ g.nodes) :
    ∃ descriptor, descriptorOf registry g node.id = some descriptor := by
  rw [descriptorOf_of_mem h_resolved.nodup h]
  exact h_resolved.published node h

theorem idsIn_eq (category : BlockCategory) :
    idsIn registry g category = g.nodeIds.filter fun id =>
      (descriptorOf registry g id).any fun descriptor => descriptor.category = category := by
  rw [idsIn, StrategyGraph.nodeIds, List.filter_map]
  congr 1
  refine List.filter_congr fun node h_node => ?_
  obtain ⟨descriptor, h_descriptor⟩ := h_resolved.exists_descriptor h_node
  rw [categoryIn_eq h_descriptor, Function.comp_apply, h_descriptor]
  rfl

variable (h : g.authored = g'.authored)
include h

theorem descriptorOf_congr : descriptorOf registry g = descriptorOf registry g' := by
  funext nodeId
  by_cases h_id : nodeId ∈ g'.nodeIds
  · obtain ⟨node', h_node', rfl⟩ := StrategyGraph.mem_nodeIds.mp h_id
    obtain ⟨node, h_node, h_authored⟩ := exists_node h h_node'
    have h_node_id : node.id = node'.id := congrArg AuthoredNode.id h_authored
    have h_block : node.blockId = node'.blockId := congrArg AuthoredNode.blockId h_authored
    rw [descriptorOf_of_mem (h_resolved.congr h).nodup h_node', ← h_node_id,
      descriptorOf_of_mem h_resolved.nodup h_node, h_block]
  · rw [descriptorOf_eq_none h_id, descriptorOf_eq_none (mt (mem_nodeIds_congr h nodeId).mp h_id)]

theorem categoryIn_congr {node node' : NodeSpec} (h_node : node ∈ g.nodes)
    (h_id : node.id = node'.id) : categoryIn registry g node = categoryIn registry g' node' := by
  obtain ⟨descriptor, h_descriptor⟩ := h_resolved.exists_descriptor h_node
  have h_descriptor' : descriptorOf registry g' node'.id = some descriptor := by
    rw [← h_resolved.descriptorOf_congr h, ← h_id, h_descriptor]
  rw [categoryIn_eq h_descriptor, categoryIn_eq h_descriptor']

theorem idsIn_perm (category : BlockCategory) :
    (idsIn registry g category).Perm (idsIn registry g' category) := by
  rw [h_resolved.idsIn_eq, (h_resolved.congr h).idsIn_eq, h_resolved.descriptorOf_congr h]
  exact (nodeIds_perm h).filter _

theorem mem_idsIn_congr (category : BlockCategory) (nodeId : String) :
    nodeId ∈ idsIn registry g category ↔ nodeId ∈ idsIn registry g' category :=
  (h_resolved.idsIn_perm h category).mem_iff

theorem mem_downstreamOfData_congr (nodeId : String) :
    nodeId ∈ downstreamOfData registry g ↔ nodeId ∈ downstreamOfData registry g' := by
  simp only [downstreamOfData, Digraph.mem_reachableFrom, reaches_congr h,
    h_resolved.mem_idsIn_congr h]

theorem mem_mlReachable_congr (nodeId : String) :
    nodeId ∈ mlReachable registry g ↔ nodeId ∈ mlReachable registry g' := by
  refine mem_upstreamOf_congr h (fun root => ?_) nodeId
  rw [List.mem_filter, List.mem_filter, mem_nodeIds_congr h, h_resolved.descriptorOf_congr h]

end Resolved

end VyomQuant.StrategyDag
