/-
  VyomQuant.StrategyDag.SignalIntents

  The way of a signal to an intent: the kernel of `to_signal`, the port it publishes,
  and the trigger of the action that it feeds.

  What a READY node has published is what its executor makes of the values that feed it
  at the end of the run (`evaluated_of_evaluatePlan`).  An action fires above a half and on
  its own side, so a true condition acts as configured exactly where a strong long signal
  feeds a buying action (`conditionActs_iff`).
-/

import VyomQuant.StrategyDag.IntentGate
import VyomQuant.StrategyDag.UndefinedBars
import VyomQuant.StrategyDag.WarmupWalk

namespace VyomQuant.StrategyDag

variable {V : Type}

/-! ## Plans in order -/

/-- What the compiler promises of a plan: no node comes twice, a node is under its own id, and
    what an edge carries comes from a dependency. -/
structure CompiledPlan.Ordered (plan : CompiledPlan) : Prop where
  nodup : plan.executionLevels.flatten.Nodup
  named : ∀ entry ∈ plan.nodeIndex, entry.2.id = entry.1
  fed : ∀ entry ∈ plan.inbound, ∀ port ∈ entry.2, ∀ edge ∈ port.2,
    edge.target = entry.1 ∧ edge.source ∈ plan.predecessors entry.1

theorem mem_of_lookup {κ α : Type} [BEq κ] [LawfulBEq κ] {l : List (κ × α)} {key : κ} {value : α}
    (h : l.lookup key = some value) : (key, value) ∈ l := by
  obtain ⟨before, after, rfl, -⟩ := List.lookup_eq_some_iff.mp h
  exact List.mem_append_right _ List.mem_cons_self

namespace CompiledPlan.Ordered

variable {plan : CompiledPlan} (h : plan.Ordered)
include h

theorem node_id {nodeId : String} {node : NodeSpec} (h_node : plan.node nodeId = some node) :
    node.id = nodeId := h.named _ (mem_of_lookup h_node)

theorem node_of_engineNode {nodeId : String} {node : NodeSpec}
    (h_engine : plan.engineNode nodeId = some node) : plan.node nodeId = some node := by
  have h_id := List.find?_some h_engine
  rw [decide_eq_true_eq] at h_id
  have h_mem := List.mem_of_find?_eq_some h_engine
  rw [List.mem_reverse] at h_mem
  obtain ⟨other, -, h_node⟩ := List.mem_filterMap.mp h_mem
  rwa [← h.node_id h_node, h_id] at h_node

theorem fed_of_inboundEdges {nodeId port : String} {edge : EdgeSpec}
    (h_edge : edge ∈ plan.inboundEdges nodeId port) :
    edge.target = nodeId ∧ edge.source ∈ plan.predecessors nodeId := by
  unfold CompiledPlan.inboundEdges at h_edge
  cases h_port : (plan.inbound.lookup nodeId).bind fun ports => ports.lookup port with
  | none =>
    rw [h_port] at h_edge
    cases h_edge
  | some edges =>
    rw [h_port, Option.getD_some] at h_edge
    obtain ⟨ports, h_ports, h_edges⟩ := Option.bind_eq_some_iff.mp h_port
    exact h.fed _ (mem_of_lookup h_ports) _ (mem_of_lookup h_edges) _ h_edge

theorem source_mem_predecessors {registry : Registry} {edge : EdgeSpec}
    (h_edge : edge ∈ plan.engineEdges registry) : edge.source ∈ plan.predecessors edge.target := by
  have h_kept : ∀ (all kept : List EdgeSpec), edge ∈ all.foldl (fun kept edge =>
      if edge.id ∈ kept.map EdgeSpec.id then kept else edge :: kept) kept →
        edge ∈ kept ∨ edge ∈ all := by
    intro all
    induction all with
    | nil => exact fun kept h_mem => .inl h_mem
    | cons first rest ih =>
      intro kept h_mem
      rcases ih _ h_mem with h_mem | h_mem
      · dsimp only at h_mem
        split_ifs at h_mem
        · exact .inl h_mem
        · rcases List.mem_cons.mp h_mem with rfl | h_mem
          · exact .inr List.mem_cons_self
          · exact .inl h_mem
      · exact .inr (List.mem_cons_of_mem _ h_mem)
  have h_all := (h_kept _ _ (List.mem_reverse.mp h_edge)).resolve_left List.not_mem_nil
  obtain ⟨nodeId, -, h_ports⟩ := List.mem_flatMap.mp h_all
  obtain ⟨port, -, h_fed⟩ := List.mem_flatMap.mp h_ports
  have h_port : edge ∈ plan.inboundEdges nodeId port := by
    unfold CompiledPlan.inboundEdges
    cases h_inbound : plan.inbound.lookup nodeId with
    | none =>
      rw [h_inbound] at h_fed
      cases h_fed
    | some ports =>
      rw [h_inbound] at h_fed
      exact h_fed
  obtain ⟨h_target, h_source⟩ := h.fed_of_inboundEdges h_port
  rwa [h_target]

end CompiledPlan.Ordered

theorem ordered_of_compilePlan {registry : Registry} {options : Options} {g : StrategyGraph}
    {plan : CompiledPlan} (h : compilePlan registry options g = .ok plan) : plan.Ordered := by
  obtain ⟨-, order, levels, warmupBars, symbols, timeframes, h_nodup, -, -, rfl⟩ :=
    compilePlan_eq_ok h
  constructor
  · exact h_nodup
  · intro entry h_entry
    obtain ⟨id, -, h_some⟩ := List.mem_filterMap.mp h_entry
    obtain ⟨node, h_node, rfl⟩ := Option.map_eq_some_iff.mp h_some
    exact (StrategyGraph.nodeIndex_eq_some h_node).2
  · intro entry h_entry port h_port edge h_edge
    obtain ⟨nodeId, -, rfl⟩ := List.mem_map.mp h_entry
    obtain ⟨name, -, rfl⟩ := List.mem_map.mp h_port
    obtain ⟨h_edge, h_target⟩ := List.mem_filter.mp (List.mem_filter.mp h_edge).1
    have h_target : edge.target = nodeId := of_decide_eq_true h_target
    refine ⟨h_target, ?_⟩
    show edge.source ∈ feeding (predecessorMap _) nodeId
    rw [feeding_predecessorMap, mem_predecessors]
    exact ⟨edge, (List.mem_insertionSort _).mp h_edge, rfl, h_target⟩

/-! ## What a ready node has published -/

section

variable {engine : Engine V} {plan : CompiledPlan} {window : Window V} {warmups : List (String × ℤ)}
  {walk walk' : Walk V} {nodeId : String} {level : List String}

/-- What the executor of a node makes of what feeds it. -/
def Produces (engine : Engine V) (plan : CompiledPlan) (window : Window V) (walk : Walk V)
    (nodeId : String) (published : MemoizedNode V) : Prop :=
  ∃ node produced, plan.engineNode nodeId = some node ∧
    engine.execute window node (resolveNodeInputs engine plan walk nodeId) = some produced ∧
    publishNodeOutputs engine window node produced = .ok published

/-- The ports of a node are what its executor makes of these values. -/
def Shows (engine : Engine V) (plan : CompiledPlan) (window : Window V) (values walk : Walk V)
    (nodeId : String) : Prop :=
  ∃ published, Produces engine plan window values nodeId published ∧
    ∀ port value, published.ports.lookup port = some value →
      walk.nodeOutputs nodeId port = some value

/-- What the cache remembers of a node is what its executor would make: no second opinion. -/
def TruthfulCache (engine : Engine V) (plan : CompiledPlan) (window : Window V) : Prop :=
  ∀ walk nodeId node published, plan.node nodeId = some node →
    engine.cached walk node = some published → Produces engine plan window walk nodeId published

/-- A node carries the same values in two walks. -/
def Walk.Agrees (walk walk' : Walk V) (nodeId : String) : Prop :=
  walk'.nodeOutputs nodeId = walk.nodeOutputs nodeId ∧
    walk'.nodeResults nodeId = walk.nodeResults nodeId

theorem resolveNodeInputs_congr (h_plan : plan.Ordered)
    (h : ∀ pred ∈ plan.predecessors nodeId, walk.Agrees walk' pred) :
    resolveNodeInputs engine plan walk' nodeId = resolveNodeInputs engine plan walk nodeId := by
  unfold resolveNodeInputs
  apply List.filterMap_congr
  intro edge h_edge
  split_ifs with h_target
  · have h_source := h_plan.source_mem_predecessors h_edge
    rw [h_target.1] at h_source
    obtain ⟨h_outputs, h_results⟩ := h edge.source h_source
    rw [Walk.valueOf, Walk.valueOf, h_outputs, h_results]
  · rfl

theorem Shows.congr (h_plan : plan.Ordered) {values values' : Walk V}
    (h : Shows engine plan window values walk nodeId)
    (h_values : ∀ pred ∈ plan.predecessors nodeId, values.Agrees values' pred)
    (h_walk : walk'.nodeOutputs nodeId = walk.nodeOutputs nodeId) :
    Shows engine plan window values' walk' nodeId := by
  obtain ⟨published, ⟨node, produced, h_node, h_execute, h_publish⟩, h_ports⟩ := h
  refine ⟨published, ⟨node, produced, h_node, ?_, h_publish⟩, fun port value h_port => ?_⟩
  · rw [resolveNodeInputs_congr h_plan h_values]
    exact h_execute
  · rw [h_walk]
    exact h_ports port value h_port

/-- A node that waits for its turn will publish what its executor makes of these values. -/
def Pending (engine : Engine V) (plan : CompiledPlan) (window : Window V) (values : Walk V)
    (entry : LevelNode V) : Prop :=
  ∀ published, outcomeOf engine window entry = .ok published →
    Produces engine plan window values entry.nodeId published

/-- A level as far as it is gated: no value has changed. -/
structure Gated (engine : Engine V) (plan : CompiledPlan) (window : Window V) (level : List String)
    (walk : Walk V) (state : Walk V × List (LevelNode V)) : Prop where
  outputs : state.1.nodeOutputs = walk.nodeOutputs
  results : state.1.nodeResults = walk.nodeResults
  ready : state.1.ready = walk.ready
  visited : ∀ nodeId ∈ state.1.visited, nodeId ∈ walk.visited ∨ nodeId ∈ level
  pending : ∀ entry ∈ state.2, entry.nodeId ∈ level ∧ Pending engine plan window walk entry

theorem Gated.gateNode (h_cache : TruthfulCache engine plan window)
    {state state' : Walk V × List (LevelNode V)} (h : Gated engine plan window level walk state)
    (h_level : nodeId ∈ level)
    (h_gate : gateNode engine plan window warmups state nodeId = .ok state') :
    Gated engine plan window level walk state' := by
  unfold StrategyDag.gateNode at h_gate
  obtain ⟨node, h_node, h_gate⟩ := Except.bind_eq_ok.mp h_gate
  obtain ⟨descriptor, -, h_gate⟩ := Except.bind_eq_ok.mp h_gate
  rw [Except.ofOption_eq_ok] at h_node
  have h_visited : ∀ other ∈ nodeId :: state.1.visited, other ∈ walk.visited ∨ other ∈ level := by
    intro other h_other
    rcases List.mem_cons.mp h_other with rfl | h_other
    · exact .inr h_level
    · exact h.visited other h_other
  dsimp only at h_gate
  split at h_gate
  · rw [Except.pure_eq_ok] at h_gate
    subst h_gate
    exact ⟨h.outputs, h.results, h.ready, h_visited, h.pending⟩
  · obtain ⟨engineNode, h_engine, h_gate⟩ := Except.bind_eq_ok.mp h_gate
    rw [Except.ofOption_eq_ok] at h_engine
    rw [Except.pure_eq_ok] at h_gate
    subst h_gate
    refine ⟨h.outputs, h.results, h.ready, h_visited, fun entry h_entry => ?_⟩
    rcases List.mem_append.mp h_entry with h_entry | h_entry
    · exact h.pending entry h_entry
    rw [List.mem_singleton.mp h_entry]
    have h_inputs : resolveNodeInputs engine plan (state.1.visit nodeId) nodeId
        = resolveNodeInputs engine plan walk nodeId := by
      unfold resolveNodeInputs Walk.valueOf Walk.visit
      rw [h.outputs, h.results]
    refine ⟨h_level, fun published h_outcome => ?_⟩
    unfold outcomeOf at h_outcome
    dsimp only at h_outcome
    split at h_outcome
    · rename_i remembered h_remembered
      cases h_outcome
      obtain ⟨engineNode', produced, h_engine', h_execute, h_publish⟩ :=
        h_cache _ nodeId node _ h_node h_remembered
      rw [h_inputs] at h_execute
      exact ⟨engineNode', produced, h_engine', h_execute, h_publish⟩
    · obtain ⟨produced, h_execute, h_publish⟩ := Except.bind_eq_ok.mp h_outcome
      rw [Except.ofOption_eq_ok, h_inputs] at h_execute
      exact ⟨engineNode, produced, h_engine, h_execute, h_publish⟩

/-- A level as far as it is finished: outside of it no value has changed, and what has become
    ready shows what its executor makes of the values before the level. -/
structure Finished (engine : Engine V) (plan : CompiledPlan) (window : Window V)
    (level : List String) (before walk : Walk V) : Prop where
  kept : ∀ nodeId, nodeId ∉ level → before.Agrees walk nodeId
  visited : ∀ nodeId ∈ walk.visited, nodeId ∈ before.visited ∨ nodeId ∈ level
  ready : ∀ nodeId ∈ walk.ready, nodeId ∈ before.ready ∨
    nodeId ∈ level ∧ Shows engine plan window before walk nodeId

theorem Finished.finishNode {before : Walk V} {entry : LevelNode V}
    (h : Finished engine plan window level before walk)
    (h_entry : entry.nodeId ∈ level ∧ Pending engine plan window before entry)
    (h_finish : finishNode engine plan window walk entry = .ok walk') :
    Finished engine plan window level before walk' := by
  unfold StrategyDag.finishNode at h_finish
  obtain ⟨published, h_outcome, h_finish⟩ := Except.bind_eq_ok.mp h_finish
  have h_published := h_entry.2 published h_outcome
  -- whether it is ready or not, the node has published
  have h_after : walk'.nodeOutputs = (walk.publish entry.nodeId published).nodeOutputs ∧
      walk'.nodeResults = (walk.publish entry.nodeId published).nodeResults ∧
      walk'.visited = walk.visited ∧ ∀ nodeId ∈ walk'.ready, nodeId = entry.nodeId ∨ nodeId ∈ walk.ready := by
    dsimp only at h_finish
    split_ifs at h_finish
    · rw [Except.pure_eq_ok] at h_finish
      subst h_finish
      exact ⟨rfl, rfl, rfl, fun _ h_mem => List.mem_cons.mp h_mem⟩
    · rw [Except.pure_eq_ok] at h_finish
      subst h_finish
      exact ⟨rfl, rfl, rfl, fun _ h_mem => .inr h_mem⟩
  obtain ⟨h_outputs, h_results, h_visited, h_ready⟩ := h_after
  have h_other : ∀ nodeId, nodeId ≠ entry.nodeId → walk.Agrees walk' nodeId := by
    intro nodeId h_ne
    constructor
    · rw [h_outputs]
      exact Function.update_of_ne h_ne ..
    · rw [h_results]
      exact Function.update_of_ne h_ne ..
  refine ⟨fun nodeId h_out => ?_, by rw [h_visited]; exact h.visited, fun nodeId h_mem => ?_⟩
  · have h_ne : nodeId ≠ entry.nodeId := fun h_eq => h_out (h_eq ▸ h_entry.1)
    obtain ⟨h_kept, h_kept'⟩ := h.kept nodeId h_out
    exact ⟨(h_other nodeId h_ne).1.trans h_kept, (h_other nodeId h_ne).2.trans h_kept'⟩
  · by_cases h_eq : nodeId = entry.nodeId
    · subst h_eq
      refine .inr ⟨h_entry.1, published, h_published, fun port value h_port => ?_⟩
      rw [h_outputs, Walk.publish]
      dsimp only
      rw [Function.update_self, h_port]
      rfl
    · rcases h.ready nodeId ((h_ready nodeId h_mem).resolve_left h_eq) with h_old | ⟨h_in, published, h_shows⟩
      · exact .inl h_old
      · refine .inr ⟨h_in, published, h_shows.1, fun port value h_port => ?_⟩
        rw [(h_other nodeId h_eq).1]
        exact h_shows.2 port value h_port

/-- A run as far as it has come: the nodes done, and what is ready shows what its executor
    makes of what feeds it now. -/
structure Progress (engine : Engine V) (plan : CompiledPlan) (window : Window V)
    (warmups : List (String × ℤ)) (done : List String) (walk : Walk V) : Prop where
  sound : Sound engine plan window warmups walk
  visited : ∀ nodeId ∈ walk.visited, nodeId ∈ done
  ready : ∀ nodeId ∈ walk.ready, nodeId ∈ done ∧ Shows engine plan window walk walk nodeId

theorem Progress.evaluateLevel (h_plan : plan.Ordered) (h_cache : TruthfulCache engine plan window)
    {done : List String} (h : Progress engine plan window warmups done walk)
    (h_new : ∀ nodeId ∈ level, nodeId ∉ done)
    (h_level : evaluateLevel engine plan window warmups walk level = .ok walk') :
    Progress engine plan window warmups (done ++ level) walk' := by
  have h_sound := h.sound.evaluateLevel h_level
  unfold StrategyDag.evaluateLevel at h_level
  obtain ⟨_, h_asserted, h_level⟩ := Except.bind_eq_ok.mp h_level
  obtain ⟨⟨gated, runnable⟩, h_gated, h_finished⟩ := Except.bind_eq_ok.mp h_level
  have h_gate : Gated engine plan window level walk (gated, runnable) :=
    Except.foldlM_invariant
      (fun nodeId h_nodeId state state' h_state h_next => h_state.gateNode h_cache h_nodeId h_next)
      ⟨rfl, rfl, rfl, fun _ h_mem => .inl h_mem, List.forall_mem_nil _⟩ h_gated
  have h_finish : Finished engine plan window level walk walk' :=
    Except.foldlM_invariant
      (fun entry h_entry _ _ h_walk h_next => h_walk.finishNode (h_gate.pending entry h_entry) h_next)
      ⟨fun nodeId _ => ⟨congrFun h_gate.outputs nodeId, congrFun h_gate.results nodeId⟩,
        h_gate.visited, fun nodeId h_mem => .inl (by rw [← h_gate.ready]; exact h_mem)⟩ h_finished
  refine ⟨h_sound, fun nodeId h_mem => ?_, fun nodeId h_mem => ?_⟩
  · exact List.mem_append.mpr ((h_finish.visited nodeId h_mem).imp_left (h.visited nodeId))
  · -- what feeds a ready node was done before the level
    rcases h_finish.ready nodeId h_mem with h_old | ⟨h_in, h_shows⟩
    · obtain ⟨h_done, h_shows⟩ := h.ready nodeId h_old
      have h_out : nodeId ∉ level := fun h_in => h_new nodeId h_in h_done
      refine ⟨List.mem_append_left _ h_done, h_shows.congr h_plan (fun pred h_pred => ?_)
        (h_finish.kept nodeId h_out).1⟩
      have h_ready := (h.ready pred (h.sound.upstream nodeId h_old h_pred)).1
      exact h_finish.kept pred fun h_in => h_new pred h_in h_ready
    · refine ⟨List.mem_append_right _ h_in, h_shows.congr h_plan (fun pred h_pred => ?_) rfl⟩
      obtain ⟨node, -, h_node, -⟩ := h_sound.runs pred (h_sound.upstream nodeId h_mem h_pred)
      rw [Except.forM_eq_ok] at h_asserted
      have h_none := not_not.mp (Except.refuseIf_eq_ok.mp (h_asserted nodeId h_in))
      have h_visited : pred ∈ walk.visited := by
        by_contra h_not
        refine List.filter_eq_nil_iff.mp h_none pred h_pred ?_
        simp [h_not, h_node]
      exact h_finish.kept pred fun h_in => h_new pred h_in (h.visited pred h_visited)

theorem Progress.levels (h_plan : plan.Ordered) (h_cache : TruthfulCache engine plan window)
    {done : List String} {levels : List (List String)} (h_nodup : (done ++ levels.flatten).Nodup)
    (h : Progress engine plan window warmups done walk)
    (h_run : levels.foldlM (StrategyDag.evaluateLevel engine plan window warmups) walk = .ok walk') :
    Progress engine plan window warmups (done ++ levels.flatten) walk' := by
  induction levels generalizing done walk with
  | nil =>
    rw [List.foldlM_nil, Except.pure_eq_ok] at h_run
    rw [List.flatten_nil, List.append_nil]
    exact h_run ▸ h
  | cons level levels ih =>
    rw [List.foldlM_cons] at h_run
    obtain ⟨next, h_next, h_rest⟩ := Except.bind_eq_ok.mp h_run
    rw [List.flatten_cons, ← List.append_assoc] at h_nodup ⊢
    have h_new : ∀ nodeId ∈ level, nodeId ∉ done := fun nodeId h_in h_done =>
      List.disjoint_of_nodup_append (List.nodup_append.mp h_nodup).1 h_done h_in
    exact ih h_nodup (h.evaluateLevel h_plan h_cache h_new h_next) h_rest

theorem evaluated_of_evaluatePlan (h_plan : plan.Ordered)
    (h_cache : TruthfulCache engine plan window)
    (h : evaluatePlan engine plan window = .ok (warmups, walk)) (h_ready : nodeId ∈ walk.ready) :
    Shows engine plan window walk walk nodeId := by
  unfold evaluatePlan at h
  obtain ⟨-, -, h⟩ := Except.bind_eq_ok.mp h
  obtain ⟨-, -, h⟩ := Except.bind_eq_ok.mp h
  obtain ⟨found, -, h⟩ := Except.bind_eq_ok.mp h
  obtain ⟨-, -, h⟩ := Except.bind_eq_ok.mp h
  obtain ⟨last, h_last, h⟩ := Except.bind_eq_ok.mp h
  rw [Except.pure_eq_ok, Prod.mk.injEq] at h
  obtain ⟨rfl, rfl⟩ := h
  have h_start : Progress engine plan window found [] (Walk.start : Walk V) :=
    ⟨sound_start, List.forall_mem_nil _, List.forall_mem_nil _⟩
  exact ((h_start.levels h_plan h_cache (by simpa using h_plan.nodup) h_last).ready _ h_ready).2

end

/-! ## The kernel of `to_signal` -/

variable {F β : Type}

/-- A value on a port: a scalar or a series, or what is none. -/
abbrev PortValue (F β : Type) := KernelValue F ⊕ β

/-- `_last_scalar`. -/
def lastScalar (float : F → Extended) : PortValue F β → Option Extended
  | .inl (.scalar x) => some (float x)
  | .inl (.floats xs) => xs.getLast?.map float
  | .inl (.bools bs) => bs.getLast?.map fun b => .real (if b then 1 else 0)
  | .inr _ => none

def directionParam : ParamSpec :=
  { key := "direction", type := .SELECT, required := true, default := .scalar .none
    min := none, max := none, options := some [.str "long", .str "short"] }

def strengthParam : ParamSpec :=
  { key := "strength", type := .NUMBER, required := true
    default := .scalar (.float (.finite false 1 0)), min := some (.float (.finite false 0 0))
    max := some (.float (.finite false 1 0)), options := none }

/-- What the kernel is given as `direction`; what is no text is refused. -/
def directionOf (node : NodeSpec) : Option String :=
  match effectiveValue directionParam node.params with
  | .scalar (.str text) => some text
  | _ => none

/-- `float(strength)`; what is not finite is refused. -/
def strengthOf (np : NumPy F) (node : NodeSpec) : Option F :=
  match (effectiveValue strengthParam node.params).float with
  | .ok (.real q) => some (np.literal q)
  | _ => none

/-- `BlockKernelExecutor.execute` of a `to_signal` node: one value, on its one port. -/
def executeToSignal (np : NumPy F) (window : Window (PortValue F β)) (node : NodeSpec)
    (inputs : List (EdgeSpec × PortValue F β)) : Option (Produced (PortValue F β)) :=
  match inputs with
  | [(edge, .inl condition)] => do
    guard (edge.targetPort = "condition")
    let direction ← directionOf node
    let strength ← strengthOf np node
    let signal ← (logicToSignal np condition direction strength).toOption
    guard (signal.length = window.index.length)
    pure (.value (.inl (.floats signal)))
  | _ => none

theorem executeToSignal_eq_some {np : NumPy F} {window : Window (PortValue F β)} {node : NodeSpec}
    {inputs : List (EdgeSpec × PortValue F β)} {produced : Produced (PortValue F β)}
    (h : executeToSignal np window node inputs = some produced) :
    ∃ edge condition direction strength signal, inputs = [(edge, .inl condition)] ∧
      directionOf node = some direction ∧ strengthOf np node = some strength ∧
      logicToSignal np condition direction strength = .ok signal ∧
      produced = .value (.inl (.floats signal)) := by
  unfold executeToSignal at h
  split at h
  · rename_i edge condition
    obtain ⟨_, -, h⟩ := Option.bind_eq_some_iff.mp h
    obtain ⟨direction, h_direction, h⟩ := Option.bind_eq_some_iff.mp h
    obtain ⟨strength, h_strength, h⟩ := Option.bind_eq_some_iff.mp h
    obtain ⟨signal, h_signal, h⟩ := Option.bind_eq_some_iff.mp h
    obtain ⟨_, -, h⟩ := Option.bind_eq_some_iff.mp h
    cases h_kernel : logicToSignal np condition direction strength with
    | error error =>
      rw [h_kernel] at h_signal
      cases h_signal
    | ok series =>
      rw [h_kernel] at h_signal
      cases h_signal
      exact ⟨edge, condition, direction, strength, signal, rfl, h_direction, h_strength, h_kernel,
        (Option.some.inj h).symm⟩
  · cases h

/-- What a `float64` is as a number. -/
structure NumPy.Doubles (np : NumPy F) (float : F → Extended) : Prop where
  zero : float (np.literal 0) = .real 0
  finite : ∀ x, np.isfinite x = true → ∃ q, float x = .real q
  nonneg : ∀ x q, float x = .real q → np.le (np.literal 0) x = true → 0 ≤ q
  negative : ∀ x q, float x = .real q → float (np.negative x) = .real (-q)

/-- A signal fires an action where the condition is true, the direction long, and the strength
    above the threshold. -/
theorem fires_iff {np : NumPy F} {float : F → Extended} (h_doubles : np.Doubles float)
    {condition : KernelValue F} {direction : String} {strength : F} {signal : List F}
    (h : logicToSignal np condition direction strength = .ok signal) :
    (signal.getLast?.map float).any actionTriggerThreshold.lt = true ↔
      (asBoolArray np condition).getLast? = some true ∧ direction.toLower = "long" ∧
        actionTriggerThreshold.lt (float strength) = true := by
  obtain ⟨-, -, h⟩ := Except.bind_eq_ok.mp h
  obtain ⟨_, h_range, h⟩ := Except.bind_eq_ok.mp h
  have h_range := Except.refuseIf_eq_ok.mp h_range
  rw [Bool.not_eq_false, Bool.and_eq_true, Bool.and_eq_true] at h_range
  obtain ⟨q, h_q⟩ := h_doubles.finite strength h_range.1.1
  have h_nonneg := h_doubles.nonneg strength q h_q h_range.1.2
  have h_zero : actionTriggerThreshold.lt (.real 0) = false := by decide +kernel
  have h_short : actionTriggerThreshold.lt (.real (-q)) = false := by
    show decide (1 / 2 < -q) = false
    rw [decide_eq_false_iff_not]
    linarith
  rw [Except.pure_eq_ok] at h
  subst h
  rw [List.getLast?_map]
  cases (asBoolArray np condition).getLast? with
  | none => simp
  | some chosen =>
    cases chosen with
    | false => simp [h_doubles.zero, h_zero]
    | true =>
      by_cases h_long : direction.toLower = "long"
      · simp [h_long]
      · simp [h_long, h_doubles.negative strength q h_q, h_short]

/-! ## Conditions and intents -/

section

variable {np : NumPy F} {float : F → Extended} {engine : Engine (PortValue F β)}
  {plan : CompiledPlan} {window : Window (PortValue F β)} {walk : Walk (PortValue F β)}
  {intents : List TradeIntent} {actionId signalId : String} {action signal : NodeSpec}

/-- The engine runs `to_signal` blocks through their kernel. -/
structure RunsToSignal (np : NumPy F) (float : F → Extended) (engine : Engine (PortValue F β))
    (plan : CompiledPlan) (window : Window (PortValue F β)) : Prop where
  lastScalar : engine.lastScalar = StrategyDag.lastScalar float
  execute : ∀ node inputs, node.blockId = "to_signal" →
    engine.execute window node inputs = executeToSignal np window node inputs
  output : ∃ descriptor, engine.contracts "to_signal" = some descriptor ∧
    descriptor.outputs.map Port.name = ["out"]
  cache : TruthfulCache engine plan window

/-- An action that a `to_signal` block feeds, ready with all that is upstream of it. -/
structure ActsOn (plan : CompiledPlan) (walk : Walk V) (actionId signalId : String)
    (action signal : NodeSpec) : Prop where
  listed : actionId ∈ plan.actionNodes
  node : plan.node actionId = some action
  edge : ∃ edge, plan.inboundEdges actionId "signal" = [edge] ∧ edge.source = signalId ∧
    edge.sourcePort = "out"
  source : plan.node signalId = some signal
  block : signal.blockId = "to_signal"
  ready : actionId ∈ walk.ready
  closure : upstreamClosure plan actionId ⊆ walk.ready

/-- The condition of a `to_signal` node is true at the last bar. -/
def conditionTrue (np : NumPy F) (engine : Engine (PortValue F β)) (plan : CompiledPlan)
    (walk : Walk (PortValue F β)) (signalId : String) : Bool :=
  match resolveNodeInputs engine plan walk signalId with
  | [(_, .inl condition)] => (asBoolArray np condition).getLast? = some true
  | _ => false

def sideOf (direction : String) : String := if direction.toLower = "long" then "buy" else "sell"

/-- An action has an intent exactly where the condition is true, and on the configured side. -/
def ConditionActs (np : NumPy F) (engine : Engine (PortValue F β)) (plan : CompiledPlan)
    (walk : Walk (PortValue F β)) (intents : List TradeIntent) (actionId signalId : String)
    (signal : NodeSpec) : Prop :=
  ((∃ intent ∈ intents, intent.nodeId = actionId) ↔
      conditionTrue np engine plan walk signalId = true) ∧
    ∀ intent ∈ intents, intent.nodeId = actionId → intent.side = (directionOf signal).map sideOf

/-- A strong long signal into a buying action, and no freeze. -/
def StrongLong (np : NumPy F) (float : F → Extended) (engine : Engine (PortValue F β))
    (action signal : NodeSpec) : Prop :=
  engine.frozen = false ∧ (∃ direction ∈ directionOf signal, direction.toLower = "long") ∧
    (∃ strength ∈ strengthOf np signal, actionTriggerThreshold.lt (float strength) = true) ∧
      (engine.orderTerms action.blockId).side = some "buy"

theorem RunsToSignal.publishes (h : RunsToSignal np float engine plan window) {node : NodeSpec}
    (h_block : node.blockId = "to_signal") {value : PortValue F β}
    {published : MemoizedNode (PortValue F β)}
    (h_publish : publishNodeOutputs engine window node (.value value) = .ok published) :
    published.ports.lookup "out" = some value := by
  obtain ⟨descriptor, h_contract, h_ports⟩ := h.output
  obtain ⟨port, h_outputs, h_name⟩ := List.map_eq_singleton_iff.mp h_ports
  have h_checked : checkedPort engine node "out" = some port := by
    unfold checkedPort BlockDescriptor.outputPort
    rw [h_block, h_contract, Option.bind_some, h_outputs]
    simp [h_name]
  unfold publishNodeOutputs at h_publish
  rw [h_block, h_contract, Option.elim_some, h_ports] at h_publish
  dsimp only at h_publish
  rw [if_neg (by decide), List.filter_cons_of_pos (by rw [h_checked]; rfl), List.filter_nil] at h_publish
  split at h_publish
  · cases h_publish
  · cases h_publish
    exact List.lookup_cons_self

/-- What an action reads fires it exactly where a strong long condition is true. -/
theorem triggered_iff (h_doubles : np.Doubles float)
    (h_engine : RunsToSignal np float engine plan window) (h_plan : plan.Ordered)
    {warmups : List (String × ℤ)} (h_run : evaluatePlan engine plan window = .ok (warmups, walk))
    (h : ActsOn plan walk actionId signalId action signal) :
    (signalOf engine plan walk action).any actionTriggerThreshold.lt = true ↔
      conditionTrue np engine plan walk signalId = true ∧
        (∃ direction ∈ directionOf signal, direction.toLower = "long") ∧
          ∃ strength ∈ strengthOf np signal, actionTriggerThreshold.lt (float strength) = true := by
  obtain ⟨edge, h_edge, rfl, h_port⟩ := h.edge
  have h_source : edge.source ∈ plan.predecessors actionId :=
    (h_plan.fed_of_inboundEdges (h_edge ▸ List.mem_singleton_self edge)).2
  have h_ready := (sound_of_evaluatePlan h_run).upstream actionId h.ready h_source
  obtain ⟨published, ⟨node, produced, h_node, h_execute, h_publish⟩, h_shown⟩ :=
    evaluated_of_evaluatePlan h_plan h_engine.cache h_run h_ready
  cases (h_plan.node_of_engineNode h_node).symm.trans h.source
  rw [h_engine.execute _ _ h.block] at h_execute
  obtain ⟨fed, condition, direction, strength, series, h_inputs, h_direction, h_strength, h_kernel, rfl⟩ :=
    executeToSignal_eq_some h_execute
  have h_value : walk.nodeOutputs edge.source "out" = some (.inl (.floats series)) := by
    exact h_shown "out" _ (h_engine.publishes h.block h_publish)
  have h_signal : signalOf engine plan walk action = series.getLast?.map float := by
    unfold signalOf
    rw [h_plan.node_id h.node, h_edge]
    dsimp only
    rw [Walk.valueOf, h_port, h_value, h_engine.lastScalar]
    rfl
  have h_true : conditionTrue np engine plan walk edge.source = true ↔
      (asBoolArray np condition).getLast? = some true := by
    unfold conditionTrue
    rw [h_inputs]
    exact decide_eq_true_iff
  rw [h_signal, fires_iff h_doubles h_kernel, h_true, h_direction, h_strength]
  simp

/-- An action fires where it is ready and its signal is above the threshold, unless the platform
    is frozen. -/
theorem mem_firing_iff (h : ActsOn plan walk actionId signalId action signal)
    {intent : TradeIntent} :
    (actionId, intent) ∈ firing engine plan window walk ↔ engine.frozen = false ∧
      (signalOf engine plan walk action).any actionTriggerThreshold.lt = true ∧
        intent = buildIntent engine plan window walk action (plan.actionSymbol actionId)
          (plan.actionTimeframe actionId) := by
  unfold firing
  cases engine.frozen with
  | true => simp
  | false =>
    have h_some : ∀ other, (if other ∈ walk.ready ∧ upstreamClosure plan other ⊆ walk.ready then
        (plan.node other).bind fun node =>
          let found := buildIntent engine plan window walk node (plan.actionSymbol other)
            (plan.actionTimeframe other)
          if found.triggered then some (other, found) else none
      else none) = some (actionId, intent) ↔ other = actionId ∧
        (signalOf engine plan walk action).any actionTriggerThreshold.lt = true ∧
          intent = buildIntent engine plan window walk action (plan.actionSymbol actionId)
            (plan.actionTimeframe actionId) := by
      intro other
      constructor
      · intro h_firing
        split_ifs at h_firing
        obtain ⟨node, h_node, h_intent⟩ := Option.bind_eq_some_iff.mp h_firing
        dsimp only at h_intent
        split_ifs at h_intent with h_triggered
        obtain ⟨rfl, rfl⟩ := Prod.mk.inj (Option.some.inj h_intent)
        cases h_node.symm.trans h.node
        exact ⟨rfl, h_triggered, rfl⟩
      · rintro ⟨rfl, h_triggered, rfl⟩
        rw [if_pos ⟨h.ready, h.closure⟩, h.node, Option.bind_some]
        exact if_pos h_triggered
    rw [if_neg (by simp), List.mem_filterMap]
    simp only [h_some]
    constructor
    · rintro ⟨other, -, -, h_triggered, h_intent⟩
      exact ⟨trivial, h_triggered, h_intent⟩
    · rintro ⟨-, h_triggered, h_intent⟩
      exact ⟨actionId, h.listed, rfl, h_triggered, h_intent⟩

/-- A true condition acts as configured exactly where it makes a strong long signal into a buying
    action. -/
theorem conditionActs_iff (h_doubles : np.Doubles float)
    (h_engine : RunsToSignal np float engine plan window) (h_plan : plan.Ordered)
    (h_run : executePlan engine plan window = .ok (walk, intents))
    (h : ActsOn plan walk actionId signalId action signal) :
    ConditionActs np engine plan walk intents actionId signalId signal ↔
      (conditionTrue np engine plan walk signalId = true →
        StrongLong np float engine action signal) := by
  obtain ⟨warmups, h_walk, h_emitted⟩ := executePlan_eq_ok_iff.mp h_run
  obtain ⟨rfl, -⟩ := mapM_emit_eq_ok_iff.mp h_emitted
  have h_triggered := triggered_iff h_doubles h_engine h_plan h_walk h
  -- the intents of this action are those of its own entry
  have h_own : ∀ intent, (intent ∈ (firing engine plan window walk).map Prod.snd ∧
      intent.nodeId = actionId) ↔ (actionId, intent) ∈ firing engine plan window walk := by
    intro intent
    constructor
    · rintro ⟨h_mem, h_id⟩
      obtain ⟨⟨other, found⟩, h_entry, rfl⟩ := List.mem_map.mp h_mem
      obtain ⟨-, -, node, h_node, rfl⟩ := mem_firing h_entry
      obtain rfl : other = actionId := (h_plan.node_id h_node).symm.trans h_id
      exact h_entry
    · intro h_entry
      refine ⟨List.mem_map_of_mem h_entry, ?_⟩
      rw [((mem_firing_iff h).mp h_entry).2.2]
      exact h_plan.node_id h.node
  have h_emits : (∃ intent ∈ (firing engine plan window walk).map Prod.snd, intent.nodeId = actionId) ↔
      engine.frozen = false ∧
        (signalOf engine plan walk action).any actionTriggerThreshold.lt = true := by
    simp only [h_own, mem_firing_iff h]
    simp
  have h_side : (∀ intent ∈ (firing engine plan window walk).map Prod.snd, intent.nodeId = actionId →
      intent.side = (directionOf signal).map sideOf) ↔
      (engine.frozen = false → (signalOf engine plan walk action).any actionTriggerThreshold.lt = true →
        (engine.orderTerms action.blockId).side.filter (· ≠ "") = (directionOf signal).map sideOf) := by
    simp only [← and_imp, h_own, mem_firing_iff h]
    constructor
    · rintro h_all ⟨h_frozen, h_fires⟩
      exact h_all _ ⟨h_frozen, h_fires, rfl⟩
    · rintro h_all intent ⟨h_frozen, h_fires, rfl⟩
      exact h_all ⟨h_frozen, h_fires⟩
  have h_buy : (∃ direction ∈ directionOf signal, direction.toLower = "long") →
      ((engine.orderTerms action.blockId).side.filter (· ≠ "") = (directionOf signal).map sideOf ↔
        (engine.orderTerms action.blockId).side = some "buy") := by
    rintro ⟨direction, h_direction, h_long⟩
    rw [h_direction, Option.map_some, sideOf, if_pos h_long, Option.filter_eq_some_iff]
    simp
  unfold ConditionActs StrongLong
  rw [h_emits, h_side, h_triggered]
  constructor
  · rintro ⟨h_iff, h_sides⟩ h_true
    obtain ⟨h_frozen, -, h_long, h_strong⟩ := h_iff.mpr h_true
    exact ⟨h_frozen, h_long, h_strong,
      (h_buy h_long).mp (h_sides h_frozen ⟨h_true, h_long, h_strong⟩)⟩
  · intro h_strong
    constructor
    · refine ⟨fun h_fires => h_fires.2.1, fun h_true => ?_⟩
      obtain ⟨h_frozen, h_long, h_strength, -⟩ := h_strong h_true
      exact ⟨h_frozen, h_true, h_long, h_strength⟩
    · rintro - ⟨h_true, h_long, -⟩
      exact (h_buy h_long).mpr (h_strong h_true).2.2.2

end

/-! ### A short signal -/

def smallNumber (x : Option ℚ) : Extended := x.elim .nan .real

theorem smallNumbers_doubles : smallNumbers.Doubles smallNumber where
  zero := rfl
  finite x h := by
    cases x with
    | none => cases h
    | some q => exact ⟨q, rfl⟩
  nonneg x q h_q h_le := by
    cases x with
    | none => cases h_q
    | some r =>
      cases h_q
      simpa [smallNumbers] using h_le
  negative x q h_q := by
    cases x with
    | none => cases h_q
    | some r =>
      cases h_q
      rfl

/-- Every executor but that of `to_signal` returns a true series. -/
def signalEngine : Engine (PortValue (Option ℚ) Unit) :=
  { registry := taggedRegistry, contracts := taggedRegistry, orderTerms := constantEngine.orderTerms
    modelReady := fun _ => false
    execute := fun window node inputs =>
      if node.blockId = "to_signal" then executeToSignal smallNumbers window node inputs
      else some (.value (.inl (.bools (window.index.map fun _ => true))))
    validPortOutput := fun _ _ _ => true, cached := fun _ _ => none
    lastScalar := lastScalar smallNumber, barLabel := constantEngine.barLabel, frozen := false }

def signalBars : Window (PortValue (Option ℚ) Unit) :=
  { index := elevenBars.index, columns := ["close"], frame := .inr () }

def signalNode (direction : String) : NodeSpec :=
  { plainNode "s" "to_signal" .LOGIC with params := [("direction", .scalar (.str direction))] }

def buyNode : NodeSpec :=
  { plainNode "a" "action_buy_market" .ACTION with
    params := [("quantity_type", .scalar (.str "base")), ("quantity", .scalar (.int 1))] }

def signalPlan (direction : String) : CompiledPlan :=
  CompiledPlan.assembled taggedRegistry
    { sizedOrder with nodes := sizedOrder.nodes.map fun node =>
        if node.id = "s" then signalNode direction else node }
    ["c", "n1", "g", "s", "a"] [["c", "n1"], ["g"], ["s"], ["a"]] 0 ([("a", "BTC/USDT")], [])

theorem signalEngine_runs (plan : CompiledPlan) :
    RunsToSignal smallNumbers smallNumber signalEngine plan signalBars where
  lastScalar := rfl
  execute _ _ h_block := if_pos h_block
  output := ⟨_, rfl, rfl⟩
  cache _ _ _ _ _ h_cached := by cases h_cached

theorem signalPlan_run : ∀ direction ∈ ["long", "short"],
    ((signalPlan direction).executionLevels.flatten.Nodup ∧
      (∀ entry ∈ (signalPlan direction).nodeIndex, entry.2.id = entry.1) ∧
      ∀ entry ∈ (signalPlan direction).inbound, ∀ port ∈ entry.2, ∀ edge ∈ port.2,
        edge.target = entry.1 ∧ edge.source ∈ (signalPlan direction).predecessors entry.1) ∧
    (executePlan signalEngine (signalPlan direction) signalBars).toOption.any fun run =>
      decide ("a" ∈ run.1.ready ∧ upstreamClosure (signalPlan direction) "a" ⊆ run.1.ready ∧
        (run.2.map TradeIntent.nodeId = if direction = "long" then ["a"] else [])) &&
        conditionTrue smallNumbers signalEngine (signalPlan direction) run.1 "s" := by
  decide +kernel

theorem signalPlan_ordered {direction : String} (h : direction ∈ ["long", "short"]) :
    (signalPlan direction).Ordered :=
  have ⟨h_nodup, h_named, h_fed⟩ := (signalPlan_run direction h).1
  ⟨h_nodup, h_named, h_fed⟩

theorem signalPlan_acts {direction : String} (h : direction ∈ ["long", "short"]) :
    ∃ walk intents, executePlan signalEngine (signalPlan direction) signalBars = .ok (walk, intents) ∧
      ActsOn (signalPlan direction) walk "a" "s" buyNode (signalNode direction) ∧
      conditionTrue smallNumbers signalEngine (signalPlan direction) walk "s" = true ∧
      intents.map TradeIntent.nodeId = if direction = "long" then ["a"] else [] := by
  have h_run := (signalPlan_run direction h).2
  cases h_result : executePlan signalEngine (signalPlan direction) signalBars with
  | error error =>
    rw [h_result] at h_run
    cases h_run
  | ok run =>
    rw [h_result] at h_run
    obtain ⟨h_ready, h_true⟩ := Bool.and_eq_true_iff.mp h_run
    obtain ⟨h_ready, h_closure, h_intents⟩ := of_decide_eq_true h_ready
    refine ⟨run.1, run.2, rfl, ⟨?_, ?_, ?_, ?_, rfl, h_ready, h_closure⟩, h_true, h_intents⟩
    all_goals
      rcases List.mem_pair.mp h with rfl | rfl
    · decide +kernel
    · decide +kernel
    · rfl
    · rfl
    · exact ⟨edgeFrom "s" "out" "a" "signal", by decide +kernel, rfl, rfl⟩
    · exact ⟨edgeFrom "s" "out" "a" "signal", by decide +kernel, rfl, rfl⟩
    · rfl
    · rfl

theorem conditionActs_long :
    ∃ walk intents, executePlan signalEngine (signalPlan "long") signalBars = .ok (walk, intents) ∧
      ConditionActs smallNumbers signalEngine (signalPlan "long") walk intents "a" "s"
        (signalNode "long") := by
  have h_plan : "long" ∈ ["long", "short"] := List.mem_cons_self
  obtain ⟨walk, intents, h_run, h_acts, -, -⟩ := signalPlan_acts h_plan
  have h_strong : StrongLong smallNumbers smallNumber signalEngine
      buyNode (signalNode "long") := by
    refine ⟨rfl, ⟨"long", rfl, by decide +kernel⟩, ⟨some 1, by decide +kernel, by decide +kernel⟩, rfl⟩
  exact ⟨walk, intents, h_run, (conditionActs_iff smallNumbers_doubles (signalEngine_runs _)
    (signalPlan_ordered h_plan) h_run h_acts).mpr fun _ => h_strong⟩

/-- A short signal of full strength: the condition is true, all is ready, and no intent comes. -/
theorem conditionActs_divergence :
    ∃ walk intents, executePlan signalEngine (signalPlan "short") signalBars = .ok (walk, intents) ∧
      ActsOn (signalPlan "short") walk "a" "s" buyNode (signalNode "short") ∧
      strengthOf smallNumbers (signalNode "short") = some (some 1) ∧
      ¬ ConditionActs smallNumbers signalEngine (signalPlan "short") walk intents "a" "s"
        (signalNode "short") := by
  obtain ⟨walk, intents, h_run, h_acts, h_true, h_intents⟩ :=
    @signalPlan_acts "short" (by decide +kernel)
  refine ⟨walk, intents, h_run, h_acts, by decide +kernel, fun h => ?_⟩
  obtain ⟨intent, h_intent, -⟩ := h.1.mpr h_true
  have h_mem := List.mem_map_of_mem (f := TradeIntent.nodeId) h_intent
  rw [h_intents, if_neg (by decide)] at h_mem
  cases h_mem

end VyomQuant.StrategyDag
