/-
  VyomQuant.StrategyDag.LongestWarmups

  The bars that a strategy waits for, which are counted three times: by the validator along
  its order (`compose_warmup`), by the walk of `plan.py` (`_effective_warmups`), and for the
  gate of a running plan (`plan_node_warmups`).  Where every block reports a warmup that is
  not negative, all three give a node the greatest total on a path that ends in it, and the
  plan asks for the greatest of an action (`planNodeWarmups_longest`).
-/

import VyomQuant.StrategyDag.GraphWalkers
import VyomQuant.StrategyDag.IntentGate

namespace VyomQuant.StrategyDag

open Digraph
open Except (bind_eq_ok)

variable {registry : Registry} {g : StrategyGraph} {nodeId : String} {node : NodeSpec}

/-- Every block reports how many bars it needs. -/
def ReportsWarmups (registry : Registry) (g : StrategyGraph) : Prop :=
  ∀ node ∈ g.nodes, ∃ own, 0 ≤ own ∧
    ((registry node.blockId).bind fun descriptor => descriptor.warmup node.params) = some own

/-- The bars that a node needs itself. -/
def ownBars (registry : Registry) (g : StrategyGraph) (nodeId : String) : ℤ :=
  ((g.nodeIndex nodeId).map (ownWarmup registry g)).getD 0

/-- A count of the bars of every node: its own, after the most that one before it needs. -/
def Counted (registry : Registry) (g : StrategyGraph) (bars : String → ℤ) : Prop :=
  ∀ nodeId, IsGreatest (insert 0 (bars '' {u | Arc (arcs g) u nodeId}))
    (bars nodeId - ownBars registry g nodeId)

theorem isGreatest_foldl_max (l : List ℤ) (least : ℤ) :
    IsGreatest (insert least {bars | bars ∈ l}) (l.foldl max least) := by
  induction l generalizing least with
  | nil => simp
  | cons bars rest ih =>
    obtain ⟨h_mem, h_le⟩ := ih (max least bars)
    refine ⟨?_, ?_⟩
    · rw [List.foldl_cons]
      rcases h_mem with h_eq | h_mem
      · rw [h_eq]
        rcases max_choice least bars with h_max | h_max <;> simp [h_max]
      · exact .inr (List.mem_cons_of_mem _ h_mem)
    · have h_max := h_le (Set.mem_insert ..)
      rintro other (rfl | h_other)
      · exact (le_max_left ..).trans h_max
      · rcases List.mem_cons.mp h_other with rfl | h_other
        · exact (le_max_right ..).trans h_max
        · exact h_le (Set.mem_insert_of_mem _ h_other)

theorem isGreatest_maxOrZero {l : List ℤ} (h : ∀ bars ∈ l, 0 ≤ bars) :
    IsGreatest (insert 0 {bars | bars ∈ l}) (maxOrZero l) := by
  unfold maxOrZero
  cases h_max : l.max? with
  | none => simp [List.max?_eq_none_iff.mp h_max]
  | some most =>
    obtain ⟨h_mem, h_le⟩ := List.max?_eq_some_iff.mp h_max
    refine ⟨.inr h_mem, ?_⟩
    rintro bars (rfl | h_bars)
    · exact h _ h_mem
    · exact h_le bars h_bars

theorem maxOrZero_mem {l : List ℤ} (h : l ≠ []) : maxOrZero l ∈ l := by
  unfold maxOrZero
  cases h_max : l.max? with
  | none => exact absurd (List.max?_eq_none_iff.mp h_max) h
  | some most => exact (List.max?_eq_some_iff.mp h_max).1

/-! ## The walk counts -/

theorem ReportsWarmups.own (h : ReportsWarmups registry g) (h_node : g.nodeIndex nodeId = some node) :
    0 ≤ ownBars registry g nodeId ∧
      ((registry node.blockId).bind fun descriptor => descriptor.warmup node.params)
        = some (ownBars registry g nodeId) := by
  obtain ⟨h_mem, rfl⟩ := StrategyGraph.nodeIndex_eq_some h_node
  obtain ⟨own, h_nonneg, h_own⟩ := h node h_mem
  have h_bars : ownBars registry g node.id = own := by
    rw [ownBars, h_node, Option.map_some, Option.getD_some, ownWarmup, descriptorOf, h_node,
      Option.bind_some, h_own, Option.getD_some]
  exact ⟨h_bars ▸ h_nonneg, h_bars ▸ h_own⟩

theorem ReportsWarmups.planOwn (h : ReportsWarmups registry g)
    (h_node : g.nodeIndex nodeId = some node) :
    planOwnWarmup registry node = .ok (ownBars registry g nodeId) := by
  obtain ⟨h_nonneg, h_own⟩ := h.own h_node
  obtain ⟨descriptor, h_descriptor, h_warmup⟩ := Option.bind_eq_some_iff.mp h_own
  unfold planOwnWarmup
  simp only [h_descriptor, h_warmup, max_eq_right h_nonneg]

theorem ownBars_eq_zero (h : nodeId ∉ g.nodeIds) : ownBars registry g nodeId = 0 := by
  rw [ownBars, StrategyGraph.nodeIndex_eq_none h]
  rfl

variable {memo : List (String × ℤ)}

theorem counted_of_computeNodeWarmups (h : ReportsWarmups registry g)
    (h_walk : computeNodeWarmups registry g = .ok memo) : Counted registry g (warmupAt memo) := by
  have h_ended := @computeNodeWarmups_ended registry g
  rw [h_walk] at h_ended
  obtain ⟨h_memo, h_all⟩ := h_ended
  have h_lookup : ∀ {u}, u ∈ g.nodeIds → memo.lookup u = some (warmupAt memo u) := by
    intro u h_u
    have h_some := h_all u ((List.mem_insertionSort _).mpr (mem_nodeIndexOf.mpr h_u))
    obtain ⟨bars, h_bars⟩ := Option.ne_none_iff_exists'.mp h_some
    rw [warmupAt, h_bars, Option.getD_some]
  intro v
  by_cases h_v : v ∈ g.nodeIds
  · have h_computed := h_memo.computed v _ (h_lookup h_v)
    unfold warmupAfter at h_computed
    rw [lookup_nodeIndexOf] at h_computed
    cases h_node : g.nodeIndex v with
    | none =>
      have h_some := isSome_nodeIndex.mpr h_v
      rw [h_node] at h_some
      cases h_some
    | some node =>
      rw [h_node] at h_computed
      simp only [h.planOwn h_node, Except.map_eq_ok, Except.ok.injEq, exists_eq_left'] at h_computed
      rw [← h_computed, add_sub_cancel_left]
      convert isGreatest_foldl_max (valuesBefore (feeding (predecessorMap g)) memo v) 0 using 2
      ext bars
      simp only [Set.mem_image, Set.mem_ofPred_eq, valuesBefore, List.mem_filterMap]
      constructor
      · rintro ⟨u, h_arc, rfl⟩
        obtain ⟨h_u, -⟩ := arcs_known h_arc
        exact ⟨u, ((dependsOn_graph u v).mp h_arc).1, h_lookup h_u⟩
      · rintro ⟨u, h_before, h_bars⟩
        have h_u : u ∈ (nodeIndexOf g).map Prod.fst :=
          h_memo.known u (lookup_ne_none_iff.mp (by simp [h_bars]))
        refine ⟨u, (dependsOn_graph u v).mpr ⟨h_before, h_u, mem_nodeIndexOf.mpr h_v⟩, ?_⟩
        rw [warmupAt, h_bars, Option.getD_some]
  · have h_none : memo.lookup v = none := by
      by_contra h_some
      exact h_v (mem_nodeIndexOf.mp (h_memo.known v (lookup_ne_none_iff.mp h_some)))
    have h_empty : {u | Arc (arcs g) u v} = ∅ :=
      Set.eq_empty_iff_forall_notMem.mpr fun u h_arc => h_v (arcs_known h_arc).2
    rw [warmupAt, h_none, ownBars_eq_zero h_v, h_empty]
    simp

theorem Counted.nonneg {bars : String → ℤ} (h_own : ReportsWarmups registry g)
    (h : Counted registry g bars) (nodeId : String) : 0 ≤ bars nodeId := by
  have h_nonneg : 0 ≤ ownBars registry g nodeId := by
    cases h_node : g.nodeIndex nodeId with
    | none =>
      rw [ownBars, h_node]
      rfl
    | some node => exact (h_own.own h_node).1
  have h_least := (h nodeId).2 (Set.mem_insert ..)
  linarith

/-- The walk counts every node of a graph without a cycle. -/
theorem exists_computeNodeWarmups (h : ReportsWarmups registry g) (h_acyclic : cycleIn g = []) :
    ∃ memo, computeNodeWarmups registry g = .ok memo ∧ Counted registry g (warmupAt memo) := by
  obtain ⟨h_none, -, h_never⟩ := @computeNodeWarmups_cycle registry g
  have h_plan : ∀ node ∈ g.nodes, ∃ own, planOwnWarmup registry node = .ok own := by
    intro node h_node
    obtain ⟨own, -, h_some⟩ := h node h_node
    obtain ⟨descriptor, h_descriptor, h_warmup⟩ := Option.bind_eq_some_iff.mp h_some
    exact ⟨max 0 own, by simp only [planOwnWarmup, h_descriptor, h_warmup]⟩
  cases h_walk : computeNodeWarmups registry g with
  | ok memo => exact ⟨memo, rfl, counted_of_computeNodeWarmups h h_walk⟩
  | error failure =>
    cases failure with
    | cycle cycle => exact absurd h_walk (h_none h_acyclic cycle)
    | failed nodeId error => exact absurd h_walk (h_never h_plan nodeId error)

/-! ## The other two agree with any count -/

variable {bars : String → ℤ}

/-- One count of a node from those of the nodes before it, in any order. -/
theorem Counted.own_add_max (h_own : ReportsWarmups registry g) (h : Counted registry g bars)
    {before : List String} (h_before : ∀ u, u ∈ before ↔ Arc (arcs g) u nodeId) :
    ownBars registry g nodeId + maxOrZero (before.map bars) = bars nodeId := by
  have h_nonneg : ∀ total ∈ before.map bars, 0 ≤ total := by
    rintro _ h_mem
    obtain ⟨u, -, rfl⟩ := List.mem_map.mp h_mem
    exact h.nonneg h_own u
  have h_set : bars '' {u | Arc (arcs g) u nodeId} = {total | total ∈ before.map bars} := by
    ext total
    simp only [Set.mem_image, Set.mem_ofPred_eq, List.mem_map, h_before]
  have h_greatest := isGreatest_maxOrZero h_nonneg
  rw [← h_set] at h_greatest
  rw [h_greatest.unique (h nodeId), add_sub_cancel]

/-- What the validator adds up along an order is the count. -/
theorem composeWarmups_eq (h_own : ReportsWarmups registry g) (h : Counted registry g bars)
    {order done rest : List String} (h_order : TopologicalOrder g.nodeIds (arcs g) order)
    (h_split : order = done ++ rest) :
    composeWarmups registry g rest (done.map fun v => (v, bars v))
      = order.map fun v => (v, bars v) := by
  induction rest generalizing done with
  | nil => rw [composeWarmups, h_split, List.append_nil]
  | cons v rest ih =>
    have h_v : v ∈ g.nodeIds :=
      (h_order.mem_iff v).mp (h_split ▸ List.mem_append_right _ List.mem_cons_self)
    obtain ⟨node, h_node⟩ := Option.isSome_iff_exists.mp (isSome_nodeIndex.mpr h_v)
    have h_bars : ownWarmup registry g node = ownBars registry g v := by
      rw [ownBars, h_node]
      rfl
    have h_done : ∀ u, Arc (arcs g) u v → warmupAt (done.map fun v => (v, bars v)) u = bars u := by
      intro u h_arc
      have h_before := h_order.mem_of_arc h_split h_arc
      rw [warmupAt, List.lookup_map_pair, if_pos h_before, Option.getD_some]
    have h_upstream : (successors (converse (arcs g)) v).map
          (warmupAt (done.map fun v => (v, bars v)))
        = (successors (converse (arcs g)) v).map bars := by
      refine List.map_congr_left fun u h_u => h_done u ?_
      rwa [mem_successors, arc_converse] at h_u
    have h_next : ownBars registry g v + maxOrZero ((successors (converse (arcs g)) v).map bars)
        = bars v := h.own_add_max h_own fun u => by rw [mem_successors, arc_converse]
    rw [composeWarmups, h_node]
    dsimp only
    rw [h_upstream, h_bars, h_next]
    have h_later := @ih (done ++ [v]) (by rw [h_split, List.append_assoc]; rfl)
    rwa [List.map_append] at h_later

theorem mapM_eq_ok_of_each {α β ε : Type} {f : α → Except ε β} {found : α → β} {l : List α}
    (h : ∀ a ∈ l, f a = .ok (found a)) : l.mapM f = .ok (l.map found) := by
  induction l with
  | nil => rfl
  | cons a rest ih =>
    rw [List.mapM_cons, h a List.mem_cons_self, ih fun a' h_a' => h a' (List.mem_cons_of_mem _ h_a')]
    rfl

/-- What the gate of a plan recurses to is the count. -/
theorem effectiveWarmup_eq (h_own : ReportsWarmups registry g) (h : Counted registry g bars)
    {order : List String} (h_order : TopologicalOrder g.nodeIds (arcs g) order) {plan : CompiledPlan}
    (h_node : ∀ id, plan.node id = g.nodeIndex id) (h_pred : ∀ id, plan.predecessors id = predecessors g id)
    {fuel : ℕ} {v : String} (h_v : v ∈ g.nodeIds) (h_fuel : order.idxOf v < fuel) :
    effectiveWarmup registry plan fuel v = .ok (bars v) := by
  induction fuel generalizing v with
  | zero => omega
  | succ fuel ih =>
    obtain ⟨node, h_some⟩ := Option.isSome_iff_exists.mp (isSome_nodeIndex.mpr h_v)
    have h_mem : ∀ u, u ∈ (predecessors g v).filter (fun u => (plan.node u).isSome) ↔
        Arc (arcs g) u v := by
      intro u
      rw [List.mem_filter, h_node, isSome_nodeIndex, dependsOn_graph u v, feeding_predecessorMap,
        mem_nodeIndexOf, mem_nodeIndexOf]
      exact ⟨fun h_u => ⟨h_u.1, h_u.2, h_v⟩, fun h_u => ⟨h_u.1, h_u.2.1⟩⟩
    have h_upstream : ((predecessors g v).filter fun u => (plan.node u).isSome).mapM
          (effectiveWarmup registry plan fuel)
        = .ok (((predecessors g v).filter fun u => (plan.node u).isSome).map bars) := by
      refine mapM_eq_ok_of_each fun u h_u => ?_
      have h_arc := (h_mem u).mp h_u
      have h_lt := h_order.forward u v h_arc
      exact ih (arcs_known h_arc).1 (by omega)
    obtain ⟨h_nonneg, h_reports⟩ := h_own.own h_some
    rw [← h_pred] at h_upstream h_mem
    refine bind_eq_ok.mpr ⟨node, by rw [h_node, h_some]; rfl, bind_eq_ok.mpr ⟨_, by rw [h_reports]; rfl,
      bind_eq_ok.mpr ⟨_, h_upstream, ?_⟩⟩⟩
    rw [max_eq_right h_nonneg, h.own_add_max h_own h_mem]
    rfl

/-! ## Compiled plans -/

variable {options : Options} {plan : CompiledPlan}

theorem arcs_recomputeGraph (state : ValidationState) :
    arcs (recomputeGraph registry g state) = arcs g := by
  unfold arcs
  rw [nodeIds_recomputeGraph]
  show (((g.edges.map (recomputeEdge registry g)).filter _).map _).eraseDups = _
  rw [List.filter_map, List.map_map]
  rfl

theorem ownBars_recomputeGraph (h : Resolved registry g) (state : ValidationState) :
    ownBars registry (recomputeGraph registry g state) = ownBars registry g := by
  have h_authored : g.authored = (recomputeGraph registry g state).authored :=
    authored_recomputeGraph.symm
  funext v
  by_cases h_v : v ∈ g.nodeIds
  · obtain ⟨node, h_node⟩ := Option.isSome_iff_exists.mp (isSome_nodeIndex.mpr h_v)
    obtain ⟨node', h_node', h_same⟩ := nodeIndex_congr h h_authored h_node
    have h_id : node'.id = node.id := congrArg AuthoredNode.id h_same
    have h_params : node'.params = node.params := congrArg AuthoredNode.params h_same
    rw [ownBars, ownBars, h_node, h_node', Option.map_some, Option.map_some, ownWarmup, ownWarmup,
      h_id, h_params, h.descriptorOf_congr h_authored]
  · rw [ownBars_eq_zero h_v, ownBars_eq_zero (by rwa [nodeIds_recomputeGraph])]

theorem ReportsWarmups.recomputeGraph (h : ReportsWarmups registry g) (state : ValidationState) :
    ReportsWarmups registry (recomputeGraph registry g state) := by
  intro node h_node
  obtain ⟨submitted, h_submitted, rfl⟩ := List.mem_map.mp h_node
  have h_same : (recomputeNode registry g submitted).authored = submitted.authored :=
    authored_recomputeNode submitted
  have h_block : (recomputeNode registry g submitted).blockId = submitted.blockId :=
    congrArg AuthoredNode.blockId h_same
  have h_params : (recomputeNode registry g submitted).params = submitted.params :=
    congrArg AuthoredNode.params h_same
  rw [h_block, h_params]
  exact h submitted h_submitted

structure Carries (registry : Registry) (g : StrategyGraph) (plan : CompiledPlan) : Prop where
  resolved : Resolved registry g
  acyclic : cycleIn g = []
  index : plan.nodeIndex = nodeIndexOf (recomputeGraph registry g .VALID)
  dependencies : plan.dependencies = predecessorMap (recomputeGraph registry g .VALID)
  actions : ∀ id, id ∈ plan.actionNodes ↔ id ∈ idsIn registry g .ACTION
  acts : idsIn registry g .ACTION ≠ []
  bars : plan.warmupBars = max 0 (composeWarmup registry g).2

theorem carries_of_compilePlan (h : compilePlan registry options g = .ok plan) :
    Carries registry g plan := by
  unfold compilePlan at h
  split at h
  · cases h
  · rename_i report h_report
    split_ifs at h with h_errors
    have h_valid : report.valid = true := List.isEmpty_iff.mpr (not_not.mp h_errors)
    have h_clear := validates_iff.mp ⟨report, h_report, h_valid⟩
    dsimp only at h
    rw [canonicalGraph_of_valid h_report h_valid, (warmup_eq h_report).2, warmupOf,
      if_pos h_clear.acyclic] at h
    obtain ⟨⟨order, levels⟩, -, h_built⟩ := bind_eq_ok.mp h
    dsimp only at h_built
    split at h_built
    · cases h_built
    · rename_i built h_fromGraph
      obtain ⟨_, -, h_plan⟩ := bind_eq_ok.mp h_built
      obtain rfl := Except.pure_eq_ok.mp h_plan
      obtain ⟨h_order, symbols, timeframes, -, rfl⟩ := fromGraph_eq_ok h_fromGraph
      have h_published := h_clear.published .VALID
      refine
        { resolved := h_clear.resolved, acyclic := h_clear.acyclic, index := rfl
          dependencies := rfl, actions := fun id => ?_, acts := h_clear.idsIn_ne_nil.2, bars := rfl }
      refine (h_published.mem_idsInOrder h_order).trans ?_
      rw [h_clear.resolved.mem_idsIn_congr authored_recomputeGraph.symm, declaredIds, idsIn,
        List.mem_map, List.mem_map]
      refine exists_congr fun node => and_congr_left fun _ => ?_
      rw [List.mem_filter, List.mem_filter]
      refine and_congr_right fun h_node => ?_
      obtain ⟨descriptor, h_descriptor⟩ := h_published.resolved.exists_descriptor h_node
      have h_block := (descriptorOf_of_mem h_published.resolved.nodup h_node).symm.trans h_descriptor
      rw [categoryIn_eq h_descriptor, h_published.category node h_node descriptor h_block]

/-- Every count of the plan's nodes is the greatest total on a path, and the plan asks for the
    most that an action needs. -/
structure LongestWarmups (registry : Registry) (g : StrategyGraph) (plan : CompiledPlan)
    (warmups : List (String × ℤ)) : Prop where
  greatest : ∀ nodeId ∈ g.nodeIds,
    Greatest (arcs g) (ownBars registry g) nodeId (warmupAt warmups nodeId)
  validated : ∀ nodeId ∈ g.nodeIds,
    warmupAt (composeWarmup registry g).1 nodeId = warmupAt warmups nodeId
  walked : ∃ memo, effectiveWarmups registry plan.nodeIndex plan.dependencies = .ok memo ∧
    ∀ nodeId ∈ g.nodeIds, warmupAt memo nodeId = warmupAt warmups nodeId
  total : IsGreatest {bars | ∃ actionId ∈ plan.actionNodes, warmupAt warmups actionId = bars}
    plan.warmupBars

theorem Carries.planNodeWarmups_eq (h : Carries registry g plan) (h_own : ReportsWarmups registry g)
    {bars : String → ℤ} (h_count : Counted registry (recomputeGraph registry g .VALID) bars) :
    planNodeWarmups registry plan = .ok ((plan.nodeIndex.map Prod.fst).map fun id => (id, bars id)) := by
  have h_authored : (recomputeGraph registry g .VALID).authored = g.authored := authored_recomputeGraph
  obtain ⟨levels, -, -, h_order, -⟩ :=
    executionOrder_spec ((cycleIn_eq_nil_congr h_authored).mpr h.acyclic)
  have h_node : ∀ id, plan.node id = (recomputeGraph registry g .VALID).nodeIndex id := fun id => by
    rw [CompiledPlan.node, h.index, lookup_nodeIndexOf]
  have h_pred : ∀ id, plan.predecessors id = predecessors (recomputeGraph registry g .VALID) id :=
    fun id => by rw [CompiledPlan.predecessors, h.dependencies, ← feeding_predecessorMap]; rfl
  have h_length : levels.flatten.length ≤ plan.nodeIndex.length := by
    rw [← List.length_map (f := Prod.fst), h.index]
    refine (List.subperm_of_subset h_order.nodup fun id h_id => ?_).length_le
    exact mem_nodeIndexOf.mpr ((h_order.mem_iff id).mp h_id)
  refine mapM_eq_ok_of_each fun id h_id => ?_
  rw [h.index] at h_id
  have h_known := mem_nodeIndexOf.mp h_id
  have h_lt := List.idxOf_lt_length_iff.mpr ((h_order.mem_iff id).mpr h_known)
  rw [warmupEntry, effectiveWarmup_eq (h_own.recomputeGraph .VALID) h_count h_order h_node h_pred
    h_known (by omega)]
  rfl

/-- A plan that was compiled waits, at every node, for the longest path that ends there. -/
theorem planNodeWarmups_longest (h : compilePlan registry options g = .ok plan)
    (h_own : ReportsWarmups registry g) :
    ∃ warmups, planNodeWarmups registry plan = .ok warmups ∧ LongestWarmups registry g plan warmups := by
  have h_carries := carries_of_compilePlan h
  have h_authored : (recomputeGraph registry g .VALID).authored = g.authored := authored_recomputeGraph
  have h_acyclic := (cycleIn_eq_nil_congr h_authored).mpr h_carries.acyclic
  obtain ⟨memo, h_walk, h_count⟩ := exists_computeNodeWarmups (h_own.recomputeGraph .VALID) h_acyclic
  obtain ⟨levels, h_execution, -, h_order, -⟩ := executionOrder_spec h_acyclic
  have h_ids : ∀ id, id ∈ g.nodeIds ↔ id ∈ plan.nodeIndex.map Prod.fst := fun id => by
    rw [h_carries.index, mem_nodeIndexOf, nodeIds_recomputeGraph]
  have h_at : ∀ id ∈ g.nodeIds,
      warmupAt ((plan.nodeIndex.map Prod.fst).map fun id => (id, warmupAt memo id)) id
        = warmupAt memo id := fun id h_id => by
    rw [warmupAt, List.lookup_map_pair, if_pos ((h_ids id).mp h_id), Option.getD_some]
  -- the validator's count, on the graph that was submitted
  have h_compose : composeWarmup registry g = composeWarmup registry (recomputeGraph registry g .VALID) := by
    have h_same := warmupOf_congr h_carries.resolved h_authored.symm
    rwa [warmupOf, warmupOf, if_pos h_carries.acyclic, if_pos h_acyclic, Option.some.injEq] at h_same
  have h_composed : (composeWarmup registry g).1 = levels.flatten.map fun id => (id, warmupAt memo id) := by
    rw [h_compose, composeWarmup, h_execution]
    exact @composeWarmups_eq _ _ _ (h_own.recomputeGraph .VALID) h_count _ [] _ h_order rfl
  have h_validated : ∀ id ∈ g.nodeIds, warmupAt (composeWarmup registry g).1 id = warmupAt memo id := by
    intro id h_id
    have h_mem := (h_order.mem_iff id).mpr (by rwa [nodeIds_recomputeGraph])
    rw [h_composed, warmupAt, List.lookup_map_pair, if_pos h_mem, Option.getD_some]
  refine ⟨_, h_carries.planNodeWarmups_eq h_own h_count,
    { greatest := ?_, validated := ?_, walked := ⟨memo, ?_, fun id h_id => (h_at id h_id).symm⟩
      total := ?_ }⟩
  · intro id h_id
    obtain ⟨_, _, -, -, h_forward⟩ := executionOrder_spec h_carries.acyclic
    rw [h_at id h_id]
    have h_composes := Composes.of_isGreatest h_count
    rw [arcs_recomputeGraph, ownBars_recomputeGraph h_carries.resolved] at h_composes
    exact h_composes.greatest h_forward.forward id
  · intro id h_id
    rw [h_validated id h_id, h_at id h_id]
  · rw [h_carries.index, h_carries.dependencies]
    exact h_walk
  · have h_actions : ∀ id, id ∈ idsIn registry g .ACTION → id ∈ g.nodeIds := fun id h_id => by
      obtain ⟨node, h_node, rfl⟩ := List.mem_map.mp h_id
      exact List.mem_map_of_mem (List.mem_filter.mp h_node).1
    have h_set : {bars | ∃ actionId ∈ plan.actionNodes,
          warmupAt ((plan.nodeIndex.map Prod.fst).map fun id => (id, warmupAt memo id)) actionId = bars}
        = {bars | bars ∈ (idsIn registry g .ACTION).map (warmupAt (composeWarmup registry g).1)} := by
      ext bars
      simp only [Set.mem_ofPred_eq, List.mem_map, h_carries.actions]
      refine exists_congr fun id => and_congr_right fun h_id => ?_
      rw [h_at id (h_actions id h_id), h_validated id (h_actions id h_id)]
    have h_nonneg : ∀ bars ∈ (idsIn registry g .ACTION).map (warmupAt (composeWarmup registry g).1),
        0 ≤ bars := by
      rintro _ h_mem
      obtain ⟨id, h_id, rfl⟩ := List.mem_map.mp h_mem
      rw [h_validated id (h_actions id h_id)]
      exact h_count.nonneg (h_own.recomputeGraph .VALID) id
    have h_total : (composeWarmup registry g).2
        = maxOrZero ((idsIn registry g .ACTION).map (warmupAt (composeWarmup registry g).1)) := by
      show totalWarmup registry g _ = _
      rw [totalWarmup, if_neg h_carries.acts]
      rfl
    have h_le := (isGreatest_maxOrZero h_nonneg).2
    rw [h_set, h_carries.bars, h_total, max_eq_right (h_le (Set.mem_insert ..))]
    exact ⟨maxOrZero_mem (List.map_eq_nil_iff.not.mpr h_carries.acts),
      fun bars h_bars => h_le (Set.mem_insert_of_mem _ h_bars)⟩

theorem planNodeWarmups_longest_sizedOrder :
    ∃ plan warmups, compilePlan taggedRegistry {} sizedOrder = .ok plan ∧
      planNodeWarmups taggedRegistry plan = .ok warmups ∧
        LongestWarmups taggedRegistry sizedOrder plan warmups := by
  have h_reports : ∀ node ∈ sizedOrder.nodes, ∃ own ∈ ((taggedRegistry node.blockId).bind
      fun descriptor => descriptor.warmup node.params).toList, 0 ≤ own := by decide +kernel
  have h_own : ReportsWarmups taggedRegistry sizedOrder := fun node h_node =>
    let ⟨own, h_own, h_nonneg⟩ := h_reports node h_node
    ⟨own, h_nonneg, Option.mem_toList.mp h_own⟩
  cases h_plan : compilePlan taggedRegistry {} sizedOrder with
  | error error =>
    have h_some : (compilePlan taggedRegistry {} sizedOrder).toOption.isSome = true := by
      decide +kernel
    rw [h_plan] at h_some
    cases h_some
  | ok plan =>
    obtain ⟨warmups, h_warmups, h_longest⟩ := planNodeWarmups_longest h_plan h_own
    exact ⟨plan, warmups, rfl, h_warmups, h_longest⟩

end VyomQuant.StrategyDag
