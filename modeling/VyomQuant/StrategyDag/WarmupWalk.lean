/-
  VyomQuant.StrategyDag.WarmupWalk

  The warmups that `plan.py` computes: `_effective_warmups` over a node index and a map of
  predecessors, asked of a graph (`compute_node_warmups`) and of a compiled plan
  (`plan_node_warmups`).

  Both are one post-order walk, so what it returns and why it fails is read off
  `postOrder_spec`.
-/

import VyomQuant.Lib.KeyedList
import VyomQuant.Lib.PostOrder
import VyomQuant.StrategyDag.Agreement
import VyomQuant.StrategyDag.Plan

namespace VyomQuant.StrategyDag

open Digraph

/-! ## The walk -/

inductive WarmupError where
  | unresolvedBlock (nodeId blockId : String)
  | unreadable (nodeId blockId : String)
deriving DecidableEq

/-- `_own_warmup`: a negative one is clamped. -/
def planOwnWarmup (registry : Registry) (node : NodeSpec) : Except WarmupError ℤ :=
  match registry node.blockId with
  | none => .error (.unresolvedBlock node.id node.blockId)
  | some descriptor =>
    match descriptor.warmup node.params with
    | none => .error (.unreadable node.id node.blockId)
    | some own => .ok (max 0 own)

/-- A node's own warmup after the longest of those feeding it. -/
def warmupAfter (registry : Registry) (index : List (String × NodeSpec)) (nodeId : String)
    (upstream : List ℤ) : Except WarmupError ℤ :=
  match index.lookup nodeId with
  | none => .error (.unresolvedBlock nodeId "")
  | some node => (fun own => own + upstream.foldl max 0) <$> planOwnWarmup registry node

/-- `predecessors.get(node_id, ())`. -/
def feeding (dependencies : List (String × List String)) (nodeId : String) : List String :=
  (dependencies.lookup nodeId).getD []

/-- `_effective_warmups`. -/
def effectiveWarmups (registry : Registry) (index : List (String × NodeSpec))
    (dependencies : List (String × List String)) :
    Except (WalkFailure String WarmupError) (List (String × ℤ)) :=
  postOrder (index.map Prod.fst) (sorted (index.map Prod.fst)) (feeding dependencies)
    (warmupAfter registry index)

/-- `graph.node_index()`. -/
def nodeIndexOf (g : StrategyGraph) : List (String × NodeSpec) :=
  g.nodeIds.eraseDups.filterMap fun id => (g.nodeIndex id).map fun node => (id, node)

/-- `compute_node_warmups`. -/
def computeNodeWarmups (registry : Registry) (g : StrategyGraph) :
    Except (WalkFailure String WarmupError) (List (String × ℤ)) :=
  effectiveWarmups registry (nodeIndexOf g) (predecessorMap g)

/-! ## The graph as the walk sees it -/

variable {registry : Registry} {g : StrategyGraph}

theorem lookup_nodeIndexOf {id : String} : (nodeIndexOf g).lookup id = g.nodeIndex id := by
  by_cases h_id : id ∈ g.nodeIds
  · exact List.lookup_filterMap_pair (List.mem_eraseDups.mpr h_id)
  · have h_none : g.nodeIndex id = none := by
      cases h_find : g.nodeIndex id with
      | none => rfl
      | some node =>
        obtain ⟨h_node, h_eq⟩ := StrategyGraph.nodeIndex_eq_some h_find
        exact absurd (StrategyGraph.mem_nodeIds.mpr ⟨node, h_node, h_eq⟩) h_id
    rw [h_none, List.lookup_eq_none_iff]
    rintro entry h_entry
    obtain ⟨other, h_other, h_some⟩ := List.mem_filterMap.mp h_entry
    obtain ⟨node, -, rfl⟩ := Option.map_eq_some_iff.mp h_some
    exact bne_iff_ne.mpr fun h_eq => h_id (h_eq ▸ List.mem_eraseDups.mp h_other)

theorem mem_nodeIndexOf {id : String} : id ∈ (nodeIndexOf g).map Prod.fst ↔ id ∈ g.nodeIds := by
  rw [← lookup_ne_none_iff, lookup_nodeIndexOf]
  constructor
  · intro h
    obtain ⟨node, h_node⟩ := Option.ne_none_iff_exists'.mp h
    exact StrategyGraph.mem_nodeIds.mpr ⟨node, StrategyGraph.nodeIndex_eq_some h_node⟩
  · intro h_id h_none
    obtain ⟨node, h_node, rfl⟩ := StrategyGraph.mem_nodeIds.mp h_id
    have h_find := List.find?_eq_none.mp h_none node (List.mem_reverse.mpr h_node)
    simp at h_find

theorem mem_predecessors {source target : String} :
    source ∈ predecessors g target ↔
      ∃ edge ∈ g.edges, edge.source = source ∧ edge.target = target := by
  rw [predecessors, sorted, List.mem_insertionSort, List.mem_eraseDups, List.mem_map]
  simp only [sortedEdges, List.mem_filter, List.mem_insertionSort, decide_eq_true_eq]
  constructor
  · rintro ⟨edge, ⟨h_edge, h_target⟩, h_source⟩
    exact ⟨edge, h_edge, h_source, h_target⟩
  · rintro ⟨edge, h_edge, h_source, h_target⟩
    exact ⟨edge, ⟨h_edge, h_target⟩, h_source⟩

theorem feeding_predecessorMap (nodeId : String) :
    feeding (predecessorMap g) nodeId = predecessors g nodeId := by
  unfold feeding predecessorMap
  rw [List.lookup_map_pair]
  split
  · rfl
  · rename_i h_key
    refine (List.eq_nil_iff_forall_not_mem.mpr fun source h_source => h_key ?_).symm
    obtain ⟨edge, h_edge, -, rfl⟩ := mem_predecessors.mp h_source
    refine List.mem_eraseDups.mpr (List.mem_append_right _ (List.mem_map_of_mem ?_))
    exact (List.mem_insertionSort _).mpr h_edge

theorem dependsOn_graph :
    DependsOn ((nodeIndexOf g).map Prod.fst) (feeding (predecessorMap g)) (arcs g) := by
  intro u v
  rw [feeding_predecessorMap, mem_predecessors, mem_nodeIndexOf, mem_nodeIndexOf]
  have h_arc : Arc (arcs g) u v ↔ (u, v) ∈ arcs g := Iff.rfl
  rw [h_arc, mem_arcs]
  constructor
  · rintro ⟨edge, h_edge, h_source, h_target, h_u, h_v⟩
    exact ⟨⟨edge, h_edge, h_source, h_target⟩, h_u, h_v⟩
  · rintro ⟨⟨edge, h_edge, h_source, h_target⟩, h_u, h_v⟩
    exact ⟨edge, h_edge, h_source, h_target, h_u, h_v⟩

theorem computeNodeWarmups_ended :
    PostOrdered ((nodeIndexOf g).map Prod.fst) (sorted ((nodeIndexOf g).map Prod.fst))
      (feeding (predecessorMap g)) (warmupAfter registry (nodeIndexOf g)) (arcs g)
      (computeNodeWarmups registry g) :=
  postOrder_spec dependsOn_graph fun _ h_v => (List.mem_insertionSort _).mp h_v

end VyomQuant.StrategyDag
