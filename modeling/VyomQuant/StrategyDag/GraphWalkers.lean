/-
  VyomQuant.StrategyDag.GraphWalkers

  The four walks over one graph: the search for a cycle, the topological order, the warmup
  walk of the compiler, and the question whether one more edge closes a cycle.

  Each is right about the edges between nodes of the graph, so they agree: there is no
  cycle, there is an order, the warmup walk meets no cycle.
-/

import VyomQuant.Lib.LongestPath
import VyomQuant.StrategyDag.WarmupWalk

namespace VyomQuant.StrategyDag

open Digraph

variable {registry : Registry} {g : StrategyGraph}

/-! ## The walks -/

/-- `topological_order(graph)`. -/
def topologicalOrderOf (g : StrategyGraph) : Option (List String × List (List String)) :=
  topologicalOrder g.nodeIds (arcs g)

def withEdge (g : StrategyGraph) (edge : EdgeSpec) : StrategyGraph :=
  { g with edges := g.edges ++ [edge] }

/-- `creates_cycle`: an edge from a node to itself always does. -/
def createsCycle (g : StrategyGraph) (edge : EdgeSpec) : Bool :=
  if edge.source = edge.target then true
  else decide (edge.source ∈ reachableFrom (arcs (withEdge g edge)) [edge.target])

/-- `_levels_from_order(order, predecessor_map(graph))`. -/
def levelsOfOrder (g : StrategyGraph) (order : List String) : List (List String) :=
  levelsFromOrder (feeding (predecessorMap g)) order

/-! ## Each of them -/

/-- Nodes each with an edge to the next, the first of them again at the end. -/
def EdgeCycle (g : StrategyGraph) (nodes : List String) : Prop :=
  nodes.IsChain (fun source target =>
    ∃ edge ∈ g.edges, edge.source = source ∧ edge.target = target) ∧
  ∃ v rest, nodes = v :: (rest ++ [v])

theorem cycleIn_spec (h : cycleIn g ≠ []) : EdgeCycle g (cycleIn g) := by
  have h_found := (findCycle_spec fun _ h_arc => arcs_known h_arc).resolve_right
    fun h_none => h h_none.1
  refine ⟨h_found.1.imp fun source target h_arc => ?_, h_found.2⟩
  obtain ⟨edge, h_edge, h_source, h_target, -⟩ := mem_arcs.mp h_arc
  exact ⟨edge, h_edge, h_source, h_target⟩

theorem topologicalOrderOf_isSome :
    cycleIn g = [] ↔ ∃ order levels, topologicalOrderOf g = some (order, levels) := by
  rw [cycleIn_eq_nil_iff]
  constructor
  · intro h_acyclic
    obtain ⟨levels, h_order, -⟩ :=
      topologicalOrder_of_acyclic (fun _ h_arc => arcs_known h_arc) h_acyclic
    exact ⟨levels.flatten, levels, h_order⟩
  · rintro ⟨order, levels, h_order⟩
    exact acyclic_of_topologicalOrder (fun _ h_arc => arcs_known h_arc) h_order

/-- An order and its levels, for the edges between nodes of the graph. -/
structure OrderSound (g : StrategyGraph) (order : List String) (levels : List (List String)) :
    Prop where
  complete : order.Nodup ∧ ∀ id, id ∈ order ↔ id ∈ g.nodeIds
  flatten : order = levels.flatten
  forward : ∀ edge ∈ g.edges, edge.source ∈ g.nodeIds → edge.target ∈ g.nodeIds →
    order.idxOf edge.source < order.idxOf edge.target
  longest : ∀ id ∈ g.nodeIds,
    (∀ p, PathTo (arcs g) p id → p.length ≤ levels.findIdx (id ∈ ·) + 1) ∧
      ∃ p, PathTo (arcs g) p id ∧ p.length = levels.findIdx (id ∈ ·) + 1
  again : levelsOfOrder g order = levels

theorem topologicalOrderOf_spec {order : List String} {levels : List (List String)}
    (h : topologicalOrderOf g = some (order, levels)) : OrderSound g order levels := by
  have h_known : ∀ arc ∈ arcs g, arc.1 ∈ g.nodeIds ∧ arc.2 ∈ g.nodeIds :=
    fun _ h_arc => arcs_known h_arc
  have h_acyclic := acyclic_of_topologicalOrder h_known h
  obtain ⟨found, h_found, h_levelled, h_order, h_levels⟩ :=
    topologicalOrder_of_acyclic h_known h_acyclic
  have h_same : (order, levels) = (found.flatten, found) := Option.some.inj (h.symm.trans h_found)
  cases h_same
  exact
    { complete := ⟨h_order.nodup, h_order.mem_iff⟩
      flatten := rfl
      forward := fun edge h_edge h_source h_target =>
        h_order.forward _ _ (mem_arcs.mpr ⟨edge, h_edge, rfl, rfl, h_source, h_target⟩)
      longest := fun id h_id => h_levelled.longest h_known h_levels h_id
      again := by
        refine levelsFromOrder_flatten h_known h_levelled h_levels h_order fun v h_v u h_u => ?_
        rw [dependsOn_graph u v, mem_nodeIndexOf, mem_nodeIndexOf]
        exact ⟨fun h_mem => ⟨h_mem, h_u, h_v⟩, fun h_arc => h_arc.1⟩ }

/-- On an acyclic graph the warmup walk meets no cycle; on another it fails, and with a
    cycle unless some node's own warmup cannot be computed. -/
theorem computeNodeWarmups_cycle :
    (cycleIn g = [] → ∀ cycle, computeNodeWarmups registry g ≠ .error (.cycle cycle)) ∧
    (cycleIn g ≠ [] → ∃ failure, computeNodeWarmups registry g = .error failure) ∧
    ((∀ node ∈ g.nodes, ∃ own, planOwnWarmup registry node = .ok own) →
      ∀ nodeId error, computeNodeWarmups registry g ≠ .error (.failed nodeId error)) := by
  have h_ended : PostOrdered ((nodeIndexOf g).map Prod.fst)
      (sorted ((nodeIndexOf g).map Prod.fst)) (feeding (predecessorMap g))
      (warmupAfter registry (nodeIndexOf g)) (arcs g) (computeNodeWarmups registry g) :=
    computeNodeWarmups_ended
  rw [Ne, cycleIn_eq_nil_iff]
  refine ⟨fun h_acyclic cycle h_cycle => ?_, fun h_cyclic => ?_, fun h_own nodeId error h_failed => ?_⟩
  · rw [h_cycle] at h_ended
    exact ClosedWalk.not_acyclic h_ended h_acyclic.converse
  · cases h_result : computeNodeWarmups registry g with
    | error failure => exact ⟨failure, rfl⟩
    | ok memo =>
      rw [h_result] at h_ended
      obtain ⟨h_memo, h_all⟩ := h_ended
      refine absurd (acyclic_of_rank (h_memo.rank_lt dependsOn_graph fun v h_v => ?_)) h_cyclic
      exact h_all v ((List.mem_insertionSort _).mpr h_v)
  · rw [h_failed] at h_ended
    obtain ⟨h_known, values, h_value⟩ := h_ended
    obtain ⟨node, h_node, rfl⟩ := StrategyGraph.mem_nodeIds.mp (mem_nodeIndexOf.mp h_known)
    unfold warmupAfter at h_value
    rw [lookup_nodeIndexOf] at h_value
    cases h_index : g.nodeIndex node.id with
    | none =>
      have h_find := List.find?_eq_none.mp h_index node (List.mem_reverse.mpr h_node)
      simp at h_find
    | some found =>
      obtain ⟨own, h_own⟩ := h_own found (StrategyGraph.nodeIndex_eq_some h_index).1
      rw [h_index] at h_value
      simp only [h_own] at h_value
      cases h_value

/-- An edge that is added makes a cycle when its target reaches its source: from a node to
    itself, whether or not the node is there, the answer is always yes. -/
theorem createsCycle_iff (h : cycleIn g = []) (edge : EdgeSpec) :
    createsCycle g edge = false ↔
      edge.source ≠ edge.target ∧ cycleIn (withEdge g edge) = [] := by
  rw [cycleIn_eq_nil_iff] at h ⊢
  unfold createsCycle
  by_cases h_loop : edge.source = edge.target
  · simp [h_loop]
  rw [if_neg h_loop, decide_eq_false_iff_not, mem_reachableFrom]
  have h_root : (∃ v ∈ [edge.target], Reaches (arcs (withEdge g edge)) v edge.source) ↔
      Reaches (arcs (withEdge g edge)) edge.target edge.source := by simp
  rw [h_root]
  constructor
  · intro h_apart
    refine ⟨h_loop, h.insert (fun arc h_arc => ?_) h_apart⟩
    obtain ⟨other, h_other, h_source, h_target, h_known⟩ := mem_arcs.mp h_arc
    rcases List.mem_append.mp h_other with h_other | h_other
    · exact .inl (mem_arcs.mpr ⟨other, h_other, h_source, h_target, h_known⟩)
    · obtain rfl := List.mem_singleton.mp h_other
      exact .inr (Prod.ext h_source.symm h_target.symm)
  · rintro ⟨-, h_acyclic⟩ h_reaches
    -- The way back ends and starts in nodes of the graph, so the edge is an arc.
    rcases Relation.ReflTransGen.cases_head h_reaches with h_eq | ⟨w, h_first, -⟩
    · exact h_loop h_eq.symm
    rcases Relation.ReflTransGen.cases_tail h_reaches with h_eq | ⟨w', -, h_last⟩
    · exact h_loop h_eq
    have h_arc : Arc (arcs (withEdge g edge)) edge.source edge.target :=
      mem_arcs.mpr ⟨edge, List.mem_append_right _ (List.mem_singleton.mpr rfl), rfl, rfl,
        (arcs_known h_last).2, (arcs_known h_first).1⟩
    exact h_acyclic edge.source (Relation.TransGen.head' h_arc h_reaches)

/-! ## Together -/

/-- The walks agree on every graph whose ids are distinct. -/
theorem graph_walkers_agree (h_nodup : g.nodeIds.Nodup) :
    ((cycleIn g = [] ↔ ∃ order levels, topologicalOrderOf g = some (order, levels)) ∧
      ((∀ node ∈ g.nodes, ∃ own, planOwnWarmup registry node = .ok own) →
        (cycleIn g = [] ↔ ∀ cycle, computeNodeWarmups registry g ≠ .error (.cycle cycle))) ∧
      (cycleIn g = [] → ∀ cycle, computeNodeWarmups registry g ≠ .error (.cycle cycle)) ∧
      (cycleIn g ≠ [] → ∃ failure, computeNodeWarmups registry g = .error failure)) ∧
    (cycleIn g ≠ [] → EdgeCycle g (cycleIn g)) ∧
    (∀ order levels, topologicalOrderOf g = some (order, levels) →
      order.Perm g.nodeIds ∧ OrderSound g order levels) ∧
    (cycleIn g = [] → ∀ edge, createsCycle g edge = false ↔
      edge.source ≠ edge.target ∧ cycleIn (withEdge g edge) = []) := by
  obtain ⟨h_none, h_fails, h_own⟩ := @computeNodeWarmups_cycle registry g
  refine ⟨⟨topologicalOrderOf_isSome, fun h_all => ⟨h_none, fun h_never => ?_⟩, h_none, h_fails⟩,
    cycleIn_spec, fun order levels h_order => ?_, createsCycle_iff⟩
  · by_contra h_cyclic
    obtain ⟨failure, h_failure⟩ := h_fails h_cyclic
    cases failure with
    | cycle cycle => exact h_never cycle h_failure
    | failed nodeId error => exact h_own h_all nodeId error h_failure
  · have h_sound := topologicalOrderOf_spec h_order
    exact ⟨(List.perm_ext_iff_of_nodup h_sound.complete.1 h_nodup).mpr h_sound.complete.2, h_sound⟩

/-! ## Small graphs -/

def looseNode (id : String) : NodeSpec :=
  { id := id, blockId := "constant", category := .MATH, params := [], inputs := [], outputs := []
    ui := [] }

def looseEdge (source target : String) : EdgeSpec :=
  { id := source ++ "-" ++ target, source := source, sourcePort := "value", target := target
    targetPort := "a", type := none }

def looseGraph (ids : List String) (edges : List EdgeSpec) : StrategyGraph :=
  { schemaVersion := 2, strategyId := "s1", version := "1", name := "strategy"
    nodes := ids.map looseNode, edges := edges, migrationIssues := []
    validationState := .UNVALIDATED }

theorem graph_walkers_agree_sample :
    createsCycle (looseGraph ["a", "b"] [looseEdge "a" "b"]) (looseEdge "b" "a") = false ↔
      "b" ≠ "a" ∧
        cycleIn (withEdge (looseGraph ["a", "b"] [looseEdge "a" "b"]) (looseEdge "b" "a")) = [] := by
  have h_agree := @graph_walkers_agree (fun _ => none)
    (looseGraph ["a", "b"] [looseEdge "a" "b"]) (by decide)
  exact h_agree.2.2.2 (by decide +kernel) _

/-- An edge from a missing node to itself is said to close a cycle and leaves the graph
    acyclic; where the first node's block is not published, the warmup walk stops there and
    never meets the cycle. -/
theorem walkers_disagree :
    (createsCycle (looseGraph ["a"] []) (looseEdge "x" "x") = true ∧
      cycleIn (looseGraph ["a"] []) = [] ∧
      cycleIn (withEdge (looseGraph ["a"] []) (looseEdge "x" "x")) = []) ∧
    (cycleIn (looseGraph ["a", "b"] [looseEdge "b" "b"]) ≠ [] ∧
      computeNodeWarmups (fun _ => none) (looseGraph ["a", "b"] [looseEdge "b" "b"])
        = .error (.failed "a" (.unresolvedBlock "a" "constant"))) := by
  refine ⟨⟨by decide +kernel, by decide +kernel, by decide +kernel⟩, by decide +kernel, ?_⟩
  decide +kernel

end VyomQuant.StrategyDag
