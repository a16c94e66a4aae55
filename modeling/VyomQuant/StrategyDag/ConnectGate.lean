/-
  VyomQuant.StrategyDag.ConnectGate

  The verdict on one edge at connect time (`validate_edge`), and what it has to do with the
  verdict on the whole graph.

  Whether an edge is legal depends on the nodes and on whether another edge holds its port
  (`isEdgeLegal_eq_none_iff`), and of two edges each holds the other's port or neither does
  (`Contends.symm`).  So it does not matter which of them came first: a graph that is built
  edge by edge is legal as a whole, and in a legal graph every edge could have been the last
  (`connect_gate_agrees`).
-/

import VyomQuant.StrategyDag.GraphWalkers
import VyomQuant.StrategyDag.ValidatedCompiles

namespace VyomQuant.StrategyDag

variable {registry : Registry} {options : Options} {g g' : StrategyGraph} {edge other : EdgeSpec}

/-! ## The gate -/

/-- `is_edge_legal` without its last rule, with the descriptors looked up afresh. -/
def portRules (registry : Registry) (g : StrategyGraph) (edge : EdgeSpec) : Option Issue :=
  match g.node edge.source, g.node edge.target with
  | some src, some dst =>
    if src.id = dst.id then
      some { code := .SELF_LOOP, severity := .error, nodeId := src.id, edgeId := edge.id }
    else
      let srcDescriptor := registry src.blockId
      let dstDescriptor := registry dst.blockId
      if srcDescriptor.any BlockDescriptor.isTerminal then
        some { code := .TERMINAL_HAS_NO_OUTPUT, severity := .error, nodeId := src.id
               edgeId := edge.id }
      else if srcDescriptor.any fun descriptor =>
          categoryOf dst dstDescriptor ∉ descriptor.allowedSuccessorCategories then
        some { code := .ILLEGAL_CATEGORY_FLOW, severity := .error, nodeId := dst.id
               edgeId := edge.id, field := portLabel dst.id edge.targetPort }
      else portsIssue g edge src.id dst.id srcDescriptor dstDescriptor
  | _, _ => some { code := .EDGE_ENDPOINT_UNKNOWN, severity := .error, edgeId := edge.id }

/-- `validate_edge`. -/
def validateEdge (registry : Registry) (g : StrategyGraph) (edge : EdgeSpec) : Option Issue :=
  match portRules registry g edge with
  | some issue => some issue
  | none =>
    if createsCycle g edge then
      some { code := .CYCLE, severity := .error, nodeId := edge.source, edgeId := edge.id }
    else none

/-- A graph whose edges were added one at a time, each accepted. -/
inductive Built (registry : Registry) : StrategyGraph → Prop
  | empty {g : StrategyGraph} (h : g.edges = []) : Built registry g
  | connect {g : StrategyGraph} {edge : EdgeSpec} (h : Built registry g)
      (h_accepted : validateEdge registry g edge = none) : Built registry (withEdge g edge)

def withoutEdge (g : StrategyGraph) (edge : EdgeSpec) : StrategyGraph :=
  { g with edges := g.edges.filter fun other => other.id ≠ edge.id }

theorem validateEdge_eq_none_iff :
    validateEdge registry g edge = none ↔
      portRules registry g edge = none ∧ createsCycle g edge = false := by
  unfold validateEdge
  cases portRules registry g edge with
  | some issue => simp
  | none => simp

theorem node_eq_some {nodeId : String} {node : NodeSpec} (h : g.node nodeId = some node) :
    node ∈ g.nodes ∧ node.id = nodeId :=
  ⟨List.mem_of_find?_eq_some h, by simpa using List.find?_some h⟩

theorem portRules_eq (h_nodup : g.nodeIds.Nodup) :
    portRules registry g edge = isEdgeLegal registry g edge := by
  unfold portRules isEdgeLegal
  cases h_src : g.node edge.source with
  | none => rfl
  | some src =>
    cases h_dst : g.node edge.target with
    | none => rfl
    | some dst =>
      dsimp only
      rw [descriptorOf_of_mem h_nodup (node_eq_some h_src).1,
        descriptorOf_of_mem h_nodup (node_eq_some h_dst).1]

/-! ## What another edge has to do with it -/

def targetPortOf (registry : Registry) (g : StrategyGraph) (edge : EdgeSpec) : Option Port :=
  (g.node edge.target).bind fun dst =>
    (descriptorOf registry g dst.id).bind fun descriptor => descriptor.inputPort edge.targetPort

/-- Two edges into one port that takes a single edge. -/
structure Contends (registry : Registry) (g : StrategyGraph) (edge other : EdgeSpec) : Prop where
  target : other.target = edge.target
  targetPort : other.targetPort = edge.targetPort
  apart : other.id ≠ edge.id
  single : ∃ port ∈ targetPortOf registry g edge, port.variadic = false

theorem Contends.symm (h : Contends registry g edge other) : Contends registry g other edge := by
  have h_port : targetPortOf registry g other = targetPortOf registry g edge := by
    unfold targetPortOf
    rw [h.target, h.targetPort]
  exact { target := h.target.symm, targetPort := h.targetPort.symm, apart := h.apart.symm
          single := h_port ▸ h.single }

def LegalAlone (registry : Registry) (g : StrategyGraph) (edge : EdgeSpec) : Prop :=
  isEdgeLegal registry { g with edges := [] } edge = none

theorem portsIssue_eq_none_iff {src dst : String} {srcDescriptor dstDescriptor : Option BlockDescriptor} :
    portsIssue g edge src dst srcDescriptor dstDescriptor = none ↔
      portsIssue { g with edges := [] } edge src dst srcDescriptor dstDescriptor = none ∧
        ∀ port ∈ dstDescriptor.bind fun descriptor => descriptor.inputPort edge.targetPort,
          port.variadic = true ∨ ∀ other ∈ inbound g dst edge.targetPort, other.id = edge.id := by
  unfold portsIssue
  cases srcDescriptor.bind fun descriptor => descriptor.outputPort edge.sourcePort with
  | none => simp
  | some outPort =>
    cases dstDescriptor.bind fun descriptor => descriptor.inputPort edge.targetPort with
    | none => simp
    | some inPort =>
      have h_none : inbound { g with edges := [] } dst edge.targetPort = [] := rfl
      dsimp only
      rw [h_none]
      by_cases h_type : compatible outPort.type inPort.type = true
      · cases h_variadic : inPort.variadic with
        | true => simp [h_type, h_variadic]
        | false => simp [h_type, h_variadic]
      · simp [h_type]

theorem uncontended_iff :
    (∀ other ∈ g.edges, ¬ Contends registry g edge other) ↔
      ∀ port ∈ targetPortOf registry g edge,
        port.variadic = true ∨ ∀ other ∈ inbound g edge.target edge.targetPort, other.id = edge.id := by
  constructor
  · intro h port h_port
    refine or_iff_not_imp_left.mpr fun h_single other h_other => ?_
    obtain ⟨h_edge, h_into⟩ := List.mem_filter.mp h_other
    obtain ⟨h_target, h_targetPort⟩ := of_decide_eq_true h_into
    by_contra h_apart
    exact h other h_edge { target := h_target, targetPort := h_targetPort, apart := h_apart
                           single := ⟨port, h_port, Bool.eq_false_iff.mpr h_single⟩ }
  · rintro h other h_edge ⟨h_target, h_targetPort, h_apart, port, h_port, h_single⟩
    rcases h port h_port with h_variadic | h_alone
    · rw [h_single] at h_variadic
      cases h_variadic
    · refine h_apart (h_alone other (List.mem_filter.mpr ⟨h_edge, ?_⟩))
      exact decide_eq_true ⟨h_target, h_targetPort⟩

theorem isEdgeLegal_eq_none_iff :
    isEdgeLegal registry g edge = none ↔
      LegalAlone registry g edge ∧ ∀ other ∈ g.edges, ¬ Contends registry g edge other := by
  have h_node (id : String) : StrategyGraph.node { g with edges := [] } id = g.node id := rfl
  have h_descriptor (id : String) :
      descriptorOf registry { g with edges := [] } id = descriptorOf registry g id := rfl
  rw [uncontended_iff]
  unfold LegalAlone isEdgeLegal
  rw [h_node, h_node]
  cases h_src : g.node edge.source with
  | none => simp
  | some src =>
    cases h_dst : g.node edge.target with
    | none => simp
    | some dst =>
      have h_id : dst.id = edge.target := (node_eq_some h_dst).2
      have h_port : targetPortOf registry g edge = (descriptorOf registry g dst.id).bind
          fun descriptor => descriptor.inputPort edge.targetPort := by
        rw [targetPortOf, h_dst]
        rfl
      dsimp only
      rw [h_descriptor, h_descriptor, h_port, ← h_id]
      by_cases h_loop : src.id = dst.id
      · simp [h_loop]
      · rw [if_neg h_loop, if_neg h_loop]
        split_ifs
        · simp
        · simp
        · exact portsIssue_eq_none_iff

/-! ## The whole graph -/

theorem edgeStage_eq_nil_iff :
    edgeStage registry g = [] ↔
      ∀ edge ∈ g.edges, edge.source ∈ g.nodeIds → edge.target ∈ g.nodeIds →
        isEdgeLegal registry g edge = none := by
  rw [edgeStage, List.filterMap_eq_nil_iff]
  constructor
  · intro h edge h_edge h_source h_target
    exact h edge (List.mem_filter.mpr ⟨h_edge, decide_eq_true ⟨h_source, h_target⟩⟩)
  · intro h edge h_mem
    obtain ⟨h_edge, h_known⟩ := List.mem_filter.mp h_mem
    obtain ⟨h_source, h_target⟩ := of_decide_eq_true h_known
    exact h edge h_edge h_source h_target

/-- A graph is legal when each edge is legal alone and no two contend. -/
structure AllLegal (registry : Registry) (g : StrategyGraph) : Prop where
  alone : ∀ edge ∈ g.edges, LegalAlone registry g edge
  uncontended : ∀ edge ∈ g.edges, ∀ other ∈ g.edges, ¬ Contends registry g edge other

theorem AllLegal.connect (h : AllLegal registry g) (h_legal : isEdgeLegal registry g edge = none) :
    AllLegal registry (withEdge g edge) := by
  obtain ⟨h_alone, h_apart⟩ := isEdgeLegal_eq_none_iff.mp h_legal
  have h_self : ¬ Contends registry g edge edge := fun h_contends => h_contends.apart rfl
  constructor
  · intro found h_found
    rcases List.mem_append.mp h_found with h_old | h_new
    · exact h.alone found h_old
    · obtain rfl := List.mem_singleton.mp h_new
      exact h_alone
  · intro found h_found other h_other h_contends
    -- the ports are those of the nodes, so contending is the same in both graphs
    have h_before : Contends registry g found other :=
      { target := h_contends.target, targetPort := h_contends.targetPort
        apart := h_contends.apart, single := h_contends.single }
    rcases List.mem_append.mp h_found with h_old | h_new
    · rcases List.mem_append.mp h_other with h_old' | h_new'
      · exact h.uncontended found h_old other h_old' h_before
      · obtain rfl := List.mem_singleton.mp h_new'
        exact h_apart found h_old h_before.symm
    · obtain rfl := List.mem_singleton.mp h_new
      rcases List.mem_append.mp h_other with h_old' | h_new'
      · exact h_apart other h_old' h_before
      · obtain rfl := List.mem_singleton.mp h_new'
        exact h_self h_before

theorem Built.invariant (h : Built registry g) (h_nodup : g.nodeIds.Nodup) :
    AllLegal registry g ∧ cycleIn g = [] := by
  induction h with
  | empty h_none =>
    refine ⟨{ alone := ?_, uncontended := ?_ }, ?_⟩
    · intro edge h_edge
      rw [h_none] at h_edge
      cases h_edge
    · intro edge h_edge
      rw [h_none] at h_edge
      cases h_edge
    · refine cycleIn_eq_nil_iff.mpr fun v h_cycle => ?_
      obtain ⟨w, h_arc, -⟩ := Relation.TransGen.head'_iff.mp h_cycle
      obtain ⟨edge, h_edge, -⟩ := mem_arcs.mp h_arc
      rw [h_none] at h_edge
      cases h_edge
  | @connect g edge _ h_accepted ih =>
    obtain ⟨h_legal, h_acyclic⟩ := ih h_nodup
    obtain ⟨h_rules, h_cycle⟩ := validateEdge_eq_none_iff.mp h_accepted
    have h_same := @portRules_eq registry g edge h_nodup
    rw [h_same] at h_rules
    exact ⟨h_legal.connect h_rules, ((createsCycle_iff h_acyclic edge).mp h_cycle).2⟩

theorem cycleIn_of_subset (h_nodes : g'.nodes = g.nodes) (h_edges : ∀ edge ∈ g'.edges, edge ∈ g.edges)
    (h : cycleIn g = []) : cycleIn g' = [] := by
  rw [cycleIn_eq_nil_iff] at h ⊢
  intro v h_cycle
  refine h v (Relation.TransGen.mono (fun a b h_arc => ?_) v v h_cycle)
  obtain ⟨edge, h_edge, h_source, h_target, h_known⟩ := mem_arcs.mp h_arc
  unfold StrategyGraph.nodeIds at h_known
  rw [h_nodes] at h_known
  exact mem_arcs.mpr ⟨edge, h_edges edge h_edge, h_source, h_target, h_known⟩

theorem mem_withoutEdge (h : other ∈ (withoutEdge g edge).edges) : other ∈ g.edges :=
  List.mem_of_mem_filter h

theorem validateEdge_withoutEdge (h_nodup : g.nodeIds.Nodup)
    (h_known : edge.source ∈ g.nodeIds ∧ edge.target ∈ g.nodeIds) (h_edge : edge ∈ g.edges)
    (h_legal : isEdgeLegal registry g edge = none) (h_acyclic : cycleIn g = []) :
    validateEdge registry (withoutEdge g edge) edge = none := by
  have h_nodup' : (withoutEdge g edge).nodeIds.Nodup := h_nodup
  obtain ⟨h_alone, h_apart⟩ := isEdgeLegal_eq_none_iff.mp h_legal
  have h_rules : isEdgeLegal registry (withoutEdge g edge) edge = none := by
    refine isEdgeLegal_eq_none_iff.mpr ⟨h_alone, fun other h_other h_contends => ?_⟩
    exact h_apart other (mem_withoutEdge h_other)
      { target := h_contends.target, targetPort := h_contends.targetPort
        apart := h_contends.apart, single := h_contends.single }
  have h_before : cycleIn (withoutEdge g edge) = [] :=
    cycleIn_of_subset (g := g) rfl (fun other h_other => mem_withoutEdge h_other) h_acyclic
  have h_after : cycleIn (withEdge (withoutEdge g edge) edge) = [] := by
    refine cycleIn_of_subset (g := g) rfl (fun other h_other => ?_) h_acyclic
    rcases List.mem_append.mp h_other with h_old | h_new
    · exact mem_withoutEdge h_old
    · rw [List.mem_singleton.mp h_new]
      exact h_edge
  have h_ends : edge.source ≠ edge.target := by
    intro h_loop
    have h_arc : Digraph.Arc (arcs g) edge.source edge.source :=
      mem_arcs.mpr ⟨edge, h_edge, rfl, h_loop.symm, h_known.1, h_known.1⟩
    exact cycleIn_eq_nil_iff.mp h_acyclic edge.source (Relation.TransGen.single h_arc)
  rw [validateEdge_eq_none_iff, portRules_eq h_nodup']
  exact ⟨h_rules, (createsCycle_iff h_before edge).mpr ⟨h_ends, h_after⟩⟩

/-- The gate at connect time and the stages of the validator agree. -/
theorem connect_gate_agrees :
    (∀ g, Built registry g → g.nodeIds.Nodup → edgeStage registry g = [] ∧ cycleStage g = []) ∧
    ∀ g options, structuralIssues registry options g = [] → edgeStage registry g = [] →
      cycleStage g = [] → ∀ edge ∈ g.edges, validateEdge registry (withoutEdge g edge) edge = none := by
  refine ⟨fun g h_built h_nodup => ?_, fun g options h_structural h_edges h_cycle edge h_edge => ?_⟩
  · obtain ⟨h_legal, h_acyclic⟩ := h_built.invariant h_nodup
    refine ⟨edgeStage_eq_nil_iff.mpr fun edge h_edge _ _ => ?_, cycleStage_eq_nil_iff.mpr h_acyclic⟩
    exact isEdgeLegal_eq_none_iff.mpr ⟨h_legal.alone edge h_edge, h_legal.uncontended edge h_edge⟩
  · obtain ⟨-, -, h_nodup, -, h_ends, -⟩ := structuralIssues_eq_nil_iff.mp h_structural
    have h_known := h_ends edge h_edge
    have h_legal := edgeStage_eq_nil_iff.mp h_edges edge h_edge h_known.1 h_known.2
    exact validateEdge_withoutEdge h_nodup h_known h_edge h_legal (cycleStage_eq_nil_iff.mp h_cycle)

theorem connect_gate_agrees_sample :
    (edgeStage orderRegistry
        (withEdge { twoActions with edges := [] } (edgeFrom "n1" "close" "g1" "left")) = [] ∧
      cycleStage
        (withEdge { twoActions with edges := [] } (edgeFrom "n1" "close" "g1" "left")) = []) ∧
    ∀ edge ∈ twoActions.edges,
      validateEdge orderRegistry (withoutEdge twoActions edge) edge = none :=
  ⟨connect_gate_agrees.1 _ (.connect (.empty rfl) (by decide +kernel)) (by decide),
    connect_gate_agrees.2 twoActions {} (by decide +kernel) (by decide +kernel) (by decide +kernel)⟩

end VyomQuant.StrategyDag
