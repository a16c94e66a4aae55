/-
  VyomQuant.StrategyDag.Runtime

  Running a compiled plan over a window of bars (`execute_plan` in `dag_engine.py`), level by
  level.  A node runs once its ports are fed, its parameters are there, its model is loaded
  and the window is long enough; whatever it publishes, it is READY only when every node
  feeding it is.

  What a walk has made READY stays so: no node is held back that passed the gate once
  (`Sound.evaluateLevel`).
-/

import VyomQuant.StrategyDag.Identity

namespace VyomQuant.StrategyDag

open Digraph (sorted)

/-! ## Reading a plan -/

namespace CompiledPlan

def node (plan : CompiledPlan) (nodeId : String) : Option NodeSpec := plan.nodeIndex.lookup nodeId

def inboundEdges (plan : CompiledPlan) (nodeId targetPort : String) : List EdgeSpec :=
  ((plan.inbound.lookup nodeId).bind fun ports => ports.lookup targetPort).getD []

def predecessors (plan : CompiledPlan) (nodeId : String) : List String :=
  (plan.dependencies.lookup nodeId).getD []

def actionSymbol (plan : CompiledPlan) (actionId : String) : Option String :=
  plan.actionSymbols.lookup actionId

def actionTimeframe (plan : CompiledPlan) (actionId : String) : Option String :=
  plan.actionTimeframes.lookup actionId

/-- `engine_index`: the node that the engine runs under an id. -/
def engineNode (plan : CompiledPlan) (nodeId : String) : Option NodeSpec :=
  (plan.executionOrder.filterMap plan.node).reverse.find? fun node => node.id = nodeId

/-- The ports that are fed, the declared ones first. -/
def fedPortOrder (registry : Registry) (plan : CompiledPlan) (nodeId : String) : List String :=
  let fed := ((plan.inbound.lookup nodeId).getD []).map Prod.fst
  let declared := ((plan.node nodeId).bind fun node => registry node.blockId).elim []
    fun descriptor => descriptor.inputs.map Port.name
  let first := declared.filter fun port => port ∈ fed
  first ++ sorted ((fed.filter fun port => port ∉ first).eraseDups)

/-- The edges of `plan_to_engine_graph`: each id once. -/
def engineEdges (registry : Registry) (plan : CompiledPlan) : List EdgeSpec :=
  let all := plan.executionOrder.flatMap fun nodeId =>
    (plan.fedPortOrder registry nodeId).flatMap fun port =>
      (((plan.inbound.lookup nodeId).getD []).lookup port).getD []
  (all.foldl (fun kept edge => if edge.id ∈ kept.map EdgeSpec.id then kept else edge :: kept) []).reverse

end CompiledPlan

/-! ## What runs a plan -/

/-- `RUNTIME_STATES`. -/
inductive RuntimeState where
  | NOT_READY
  | AWAITING_MODEL
  | WARMING
  | READY
deriving DecidableEq

/-- A frame of market data. -/
structure Window (V : Type) where
  /-- The timestamps of the bars. -/
  index : List ℤ
  columns : List String
  /-- What the executors read. -/
  frame : V

/-- What an executor returns that has several ports. -/
structure NodeOutputs (V : Type) where
  byPort : List (String × V)
  primary : String
  primary_mem : (byPort.lookup primary).isSome

inductive Produced (V : Type) where
  | value (v : V)
  | outputs (outputs : NodeOutputs V)

/-- What a node publishes, and what the cache remembers of it. -/
structure MemoizedNode (V : Type) where
  primary : V
  ports : List (String × V)

/-- What the descriptor of an action says of its orders. -/
structure OrderTerms where
  side : Option String
  orderType : Option String
  intent : Option String
  reduceOnlyForced : Bool

/-- An evaluation as far as it has come. -/
structure Walk (V : Type) where
  nodeResults : String → Option V
  nodeOutputs : String → String → Option V
  nodeStates : String → RuntimeState
  missingInputs : String → List String
  ready : List String
  visited : List String

/-- What is around a plan: the registry, the executors, the models, the cache. -/
structure Engine (V : Type) where
  registry : Registry
  /-- `descriptor_for`: the ports that outputs are checked against. -/
  contracts : Registry
  /-- The order terms in a block's `metadata`. -/
  orderTerms : String → OrderTerms
  /-- `model_ready` of the model version that is active for a node. -/
  modelReady : String → Bool
  /-- What the executor of a node produces, unless it raises or there is none. -/
  execute : Window V → NodeSpec → List (EdgeSpec × V) → Option (Produced V)
  validPortOutput : Window V → Port → V → Bool
  cached : Walk V → NodeSpec → Option (MemoizedNode V)
  /-- The number at the last bar. -/
  lastScalar : V → Option Extended
  /-- `str(window.index[-1])`. -/
  barLabel : ℤ → String
  /-- The platform's system freeze. -/
  frozen : Bool

inductive BlockedCode where
  | NON_FINITE_ORDER_FIELD
  | NON_POSITIVE_QUANTITY

inductive ExecutionError where
  | emptyWindow
  | duplicateTimestamps
  | unorderedTimestamps
  | unpublishedBlock (nodeId blockId : String)
  /-- A block that reports none, or a cycle. -/
  | noWarmup (nodeId : String)
  | unknownNode (nodeId : String)
  | inconsistentLevels (nodeId : String) (unevaluated : List String)
  | executor (nodeId : String)
  | invalidOutput (nodeId port : String)
  | blocked (nodeId : String) (code : BlockedCode) (field : String)
  /-- A number too large for a float. -/
  | overflow (nodeId field : String)

/-! ## Warmup -/

/-- `_effective_warmups` of one node: its own, and the longest of those feeding it.  A path of
    more nodes than there are goes round a cycle. -/
def effectiveWarmup (registry : Registry) (plan : CompiledPlan) :
    ℕ → String → Except ExecutionError ℤ
  | 0, nodeId => .error (.noWarmup nodeId)
  | fuel + 1, nodeId => do
    let node ← Except.ofOption (.unknownNode nodeId) (plan.node nodeId)
    let own ← Except.ofOption (.noWarmup nodeId)
      ((registry node.blockId).bind fun descriptor => descriptor.warmup node.params)
    let upstream ← ((plan.predecessors nodeId).filter fun pred => (plan.node pred).isSome).mapM
      (effectiveWarmup registry plan fuel)
    pure (max 0 own + maxOrZero upstream)

def warmupEntry (registry : Registry) (plan : CompiledPlan) (nodeId : String) :
    Except ExecutionError (String × ℤ) := do
  let bars ← effectiveWarmup registry plan plan.nodeIndex.length nodeId
  pure (nodeId, bars)

/-- `plan_node_warmups`. -/
def planNodeWarmups (registry : Registry) (plan : CompiledPlan) :
    Except ExecutionError (List (String × ℤ)) :=
  (plan.nodeIndex.map Prod.fst).mapM (warmupEntry registry plan)

/-- `WARMUP_SERIES_HEADROOM`. -/
def warmupSeriesHeadroom : ℤ := 2

/-- `bars_needed`: one more than the warmup, which must also be the smaller part. -/
def barsNeeded (warmups : List (String × ℤ)) (nodeId : String) : ℤ :=
  max (warmupAt warmups nodeId + 1) (warmupSeriesHeadroom * warmupAt warmups nodeId + 1)

/-! ## The readiness gate -/

variable {V : Type}

namespace Walk

/-- `reset_for`, and the maps of the engine emptied. -/
def start : Walk V :=
  { nodeResults := fun _ => none, nodeOutputs := fun _ _ => none, nodeStates := fun _ => .NOT_READY
    missingInputs := fun _ => [], ready := [], visited := [] }

def visit (walk : Walk V) (nodeId : String) : Walk V :=
  { walk with visited := nodeId :: walk.visited }

/-- `mark_node`. -/
def mark (walk : Walk V) (nodeId : String) (state : RuntimeState) (missing : List String) : Walk V :=
  { walk with
    nodeStates := Function.update walk.nodeStates nodeId state
    missingInputs := Function.update walk.missingInputs nodeId missing }

def markReady (walk : Walk V) (nodeId : String) : Walk V :=
  { walk.mark nodeId .READY [] with ready := nodeId :: walk.ready }

theorem mark_nodeStates_of_ne (walk : Walk V) {nodeId other : String} (state : RuntimeState)
    (missing : List String) (h : other ≠ nodeId) :
    (walk.mark nodeId state missing).nodeStates other = walk.nodeStates other :=
  Function.update_of_ne h ..

theorem markReady_nodeStates_self (walk : Walk V) (nodeId : String) :
    (walk.markReady nodeId).nodeStates nodeId = .READY := Function.update_self ..

/-- The result of a node, and its ports over those it had. -/
def publish (walk : Walk V) (nodeId : String) (published : MemoizedNode V) : Walk V :=
  { walk with
    nodeResults := Function.update walk.nodeResults nodeId (some published.primary)
    nodeOutputs := Function.update walk.nodeOutputs nodeId fun port =>
      (published.ports.lookup port).or (walk.nodeOutputs nodeId port) }

/-- `_port_value_available`. -/
def portValueAvailable (walk : Walk V) (edge : EdgeSpec) : Bool :=
  edge.source ≠ "" && ((walk.nodeOutputs edge.source edge.sourcePort).isSome ||
    (walk.nodeResults edge.source).isSome)

/-- The value of an edge: of its very port, else the primary one of its source. -/
def valueOf (walk : Walk V) (edge : EdgeSpec) : Option V :=
  (walk.nodeOutputs edge.source edge.sourcePort).or (walk.nodeResults edge.source)

end Walk

/-- `_ACTION_REQUIRED_PARAMS`. -/
def actionRequiredParams : List String := ["quantity_type", "quantity"]

/-- `_missing_action_params`. -/
def missingActionParams (node : NodeSpec) (descriptor : BlockDescriptor) : List String :=
  if descriptor.category = .ACTION then
    (actionRequiredParams.filter fun key => isNone (node.params.get key)).map fun key => "params." ++ key
  else []

inductive PortStatus where
  | satisfied
  | unready
  | warming
deriving DecidableEq

section

variable (engine : Engine V) (plan : CompiledPlan) (window : Window V) (warmups : List (String × ℤ))

/-- One port in `_classify_inputs`. -/
def portStatus (walk : Walk V) (node : NodeSpec) (port : Port) : PortStatus :=
  let edges := plan.inboundEdges node.id port.name
  if edges = [] then
    if port.required then .unready else .satisfied
  else
    let unavailable := edges.filter fun edge => !walk.portValueAvailable edge
    if unavailable = [] then .satisfied
    else if unavailable.all fun edge => walk.nodeStates edge.source = .WARMING then .warming
    else .unready

/-- `_classify_inputs`: the ports with this status. -/
def classifyInputs (walk : Walk V) (node : NodeSpec) (descriptor : BlockDescriptor)
    (status : PortStatus) : List String :=
  (descriptor.inputs.filter fun port => portStatus plan walk node port = status).map Port.name

/-- The state a node is held in, and what it waits for; nothing when it may run. -/
def gate (walk : Walk V) (nodeId : String) (node : NodeSpec) (descriptor : BlockDescriptor) :
    Option (RuntimeState × List String) :=
  let unready := classifyInputs plan walk node descriptor .unready ++ missingActionParams node descriptor
  if unready ≠ [] then some (.NOT_READY, unready)
  else if nodeId ∈ plan.mlNodes ∧ engine.modelReady nodeId = false then some (.AWAITING_MODEL, [])
  else
    let warming := classifyInputs plan walk node descriptor .warming
    if warming ≠ [] ∨ (window.index.length : ℤ) < barsNeeded warmups nodeId then some (.WARMING, warming)
    else none

/-! ## One level -/

/-- `resolve_node_inputs`: the edges of a node that carry a value. -/
def resolveNodeInputs (walk : Walk V) (nodeId : String) : List (EdgeSpec × V) :=
  (plan.engineEdges engine.registry).filterMap fun edge =>
    if edge.target = nodeId ∧ edge.source ≠ "" then (walk.valueOf edge).map fun value => (edge, value)
    else none

/-- A node that will run in this level. -/
structure LevelNode (V : Type) where
  nodeId : String
  node : NodeSpec
  inputs : List (EdgeSpec × V)
  cached : Option (MemoizedNode V)

/-- What feeds a node comes in an earlier level. -/
def assertEvaluated (walk : Walk V) (nodeId : String) : Except ExecutionError Unit :=
  let unevaluated := (plan.predecessors nodeId).filter fun pred =>
    pred ∉ walk.visited && (plan.node pred).isSome
  Except.refuseIf (unevaluated ≠ []) (.inconsistentLevels nodeId (sorted unevaluated))

/-- The first phase, for one node. -/
def gateNode (state : Walk V × List (LevelNode V)) (nodeId : String) :
    Except ExecutionError (Walk V × List (LevelNode V)) := do
  let node ← Except.ofOption (.unknownNode nodeId) (plan.node nodeId)
  let descriptor ← Except.ofOption (.unpublishedBlock nodeId node.blockId) (engine.registry node.blockId)
  let walk := state.1.visit nodeId
  match gate engine plan window warmups walk nodeId node descriptor with
  | some (held, missing) => pure (walk.mark nodeId held missing, state.2)
  | none => do
    let engineNode ← Except.ofOption (.unknownNode nodeId) (plan.engineNode nodeId)
    pure (walk, state.2 ++
      [{ nodeId := nodeId, node := engineNode, inputs := resolveNodeInputs engine plan walk nodeId
         cached := engine.cached walk node }])

/-- The port that an output is checked against. -/
def checkedPort (node : NodeSpec) (portName : String) : Option Port :=
  (engine.contracts node.blockId).bind fun descriptor => descriptor.outputPort portName

/-- `_publish_node_outputs`: an output that is not declared is dropped, one that is not valid
    is an error. -/
def publishNodeOutputs (node : NodeSpec) (produced : Produced V) :
    Except ExecutionError (MemoizedNode V) := do
  let (primary, byPort) :=
    match produced with
    | .value v =>
      match ((engine.contracts node.blockId).elim [] fun descriptor => descriptor.outputs.map Port.name) with
      | port :: _ => (v, if port = "" then [] else [(port, v)])
      | [] => (v, [])
    | .outputs outputs =>
      ((outputs.byPort.lookup outputs.primary).get outputs.primary_mem, outputs.byPort)
  let declared := byPort.filter fun entry => (checkedPort engine node entry.1).isSome
  match declared.find? fun entry => (checkedPort engine node entry.1).any fun port =>
      !engine.validPortOutput window port entry.2 with
  | some (port, _) => .error (.invalidOutput node.id port)
  | none => pure { primary := primary, ports := declared }

/-- What a node publishes: what is remembered, or else what its executor produces. -/
def outcomeOf (entry : LevelNode V) : Except ExecutionError (MemoizedNode V) :=
  match entry.cached with
  | some remembered => .ok remembered
  | none => do
    let produced ← Except.ofOption (.executor entry.nodeId)
      (engine.execute window entry.node entry.inputs)
    publishNodeOutputs engine window entry.node produced

/-- The second and the third phase, for one node. -/
def finishNode (walk : Walk V) (entry : LevelNode V) : Except ExecutionError (Walk V) := do
  let published ← outcomeOf engine window entry
  let walk := walk.publish entry.nodeId published
  if (plan.predecessors entry.nodeId).all fun pred => pred ∈ walk.ready then
    pure (walk.markReady entry.nodeId)
  else pure (walk.mark entry.nodeId .WARMING [])

def evaluateLevel (walk : Walk V) (level : List String) : Except ExecutionError (Walk V) := do
  level.forM (assertEvaluated plan walk)
  let (walk, runnable) ← level.foldlM (gateNode engine plan window warmups) (walk, [])
  runnable.foldlM (finishNode engine plan window) walk

/-! ## Up to the intents -/

/-- `_assert_window_usable`. -/
def assertWindowUsable : Except ExecutionError Unit := do
  Except.refuseIf (window.index = [] ∨ window.columns = []) .emptyWindow
  Except.refuseIf (¬ window.index.Nodup) .duplicateTimestamps
  Except.refuseIf (¬ window.index.Pairwise (· ≤ ·)) .unorderedTimestamps

/-- `_plan_descriptors`: every block is published. -/
def assertPublished : Except ExecutionError Unit :=
  match plan.nodeIndex.find? fun entry => (engine.registry entry.2.blockId).isNone with
  | some (nodeId, node) => .error (.unpublishedBlock nodeId node.blockId)
  | none => .ok ()

/-- `plan_to_engine_graph` finds every node of the order. -/
def assertOrdered : Except ExecutionError Unit :=
  match plan.executionOrder.find? fun nodeId => (plan.node nodeId).isNone with
  | some nodeId => .error (.unknownNode nodeId)
  | none => .ok ()

/-- `execute_plan` up to the intents: the warmups, and the walk after the last level. -/
def evaluatePlan : Except ExecutionError (List (String × ℤ) × Walk V) := do
  assertWindowUsable window
  assertPublished engine plan
  let warmups ← planNodeWarmups engine.registry plan
  assertOrdered plan
  let walk ← plan.executionLevels.foldlM (evaluateLevel engine plan window warmups) Walk.start
  pure (warmups, walk)

end

/-! ## What is ready -/

section

variable {engine : Engine V} {plan : CompiledPlan} {window : Window V} {warmups : List (String × ℤ)}
  {walk : Walk V} {nodeId : String}

/-- Nothing holds a node back. -/
structure Runs (engine : Engine V) (plan : CompiledPlan) (window : Window V)
    (warmups : List (String × ℤ)) (walk : Walk V) (nodeId : String) (node : NodeSpec)
    (descriptor : BlockDescriptor) : Prop where
  /-- Every required port is wired. -/
  fed : ∀ port ∈ descriptor.inputs, port.required = true →
    plan.inboundEdges node.id port.name ≠ []
  /-- Every edge that is wired carries a value. -/
  available : ∀ port ∈ descriptor.inputs, ∀ edge ∈ plan.inboundEdges node.id port.name,
    walk.portValueAvailable edge = true
  params : missingActionParams node descriptor = []
  model : nodeId ∈ plan.mlNodes → engine.modelReady nodeId = true
  bars : barsNeeded warmups nodeId ≤ window.index.length

theorem portStatus_eq_satisfied_iff {node : NodeSpec} {port : Port} :
    portStatus plan walk node port = .satisfied ↔
      (port.required = true → plan.inboundEdges node.id port.name ≠ []) ∧
        ∀ edge ∈ plan.inboundEdges node.id port.name, walk.portValueAvailable edge = true := by
  unfold portStatus
  dsimp only
  by_cases h_edges : plan.inboundEdges node.id port.name = []
  · rw [if_pos h_edges, h_edges]
    cases port.required <;> simp
  · rw [if_neg h_edges]
    have h_unavailable : ((plan.inboundEdges node.id port.name).filter fun edge =>
        !walk.portValueAvailable edge) = [] ↔
          ∀ edge ∈ plan.inboundEdges node.id port.name, walk.portValueAvailable edge = true := by
      rw [List.filter_eq_nil_iff]
      exact forall₂_congr fun edge _ => by simp
    rw [← h_unavailable]
    split_ifs with h_none h_warming
    · exact iff_of_true rfl ⟨fun _ => h_edges, h_none⟩
    · exact iff_of_false nofun fun h => h_none h.2
    · exact iff_of_false nofun fun h => h_none h.2

theorem gate_eq_none_iff {node : NodeSpec} {descriptor : BlockDescriptor} :
    gate engine plan window warmups walk nodeId node descriptor = none ↔
      Runs engine plan window warmups walk nodeId node descriptor := by
  have h_none : ∀ status, classifyInputs plan walk node descriptor status = [] ↔
      ∀ port ∈ descriptor.inputs, portStatus plan walk node port ≠ status := by
    intro status
    rw [classifyInputs, List.map_eq_nil_iff, List.filter_eq_nil_iff]
    exact forall₂_congr fun port _ => by rw [decide_eq_true_eq]
  have h_satisfied : ∀ port, portStatus plan walk node port = .satisfied ↔
      portStatus plan walk node port ≠ .unready ∧ portStatus plan walk node port ≠ .warming := by
    intro port
    cases portStatus plan walk node port <;> simp
  unfold gate
  dsimp only
  constructor
  · intro h_gate
    split_ifs at h_gate with h_unready h_model h_warming
    obtain ⟨h_unready, h_params⟩ := List.append_eq_nil_iff.mp (not_not.mp h_unready)
    obtain ⟨h_warming, h_bars⟩ := not_or.mp h_warming
    have h_ports : ∀ port ∈ descriptor.inputs, portStatus plan walk node port = .satisfied :=
      fun port h_port => (h_satisfied port).mpr
        ⟨(h_none .unready).mp h_unready port h_port,
          (h_none .warming).mp (not_not.mp h_warming) port h_port⟩
    exact
      { fed := fun port h_port => (portStatus_eq_satisfied_iff.mp (h_ports port h_port)).1
        available := fun port h_port => (portStatus_eq_satisfied_iff.mp (h_ports port h_port)).2
        params := h_params
        model := fun h_ml => by
          by_contra h_not
          exact h_model ⟨h_ml, Bool.eq_false_iff.mpr h_not⟩
        bars := not_lt.mp h_bars }
  · intro h
    have h_ports : ∀ port ∈ descriptor.inputs, portStatus plan walk node port = .satisfied :=
      fun port h_port => portStatus_eq_satisfied_iff.mpr ⟨h.fed port h_port, h.available port h_port⟩
    have h_unready := (h_none .unready).mpr fun port h_port => ((h_satisfied port).mp (h_ports port h_port)).1
    have h_warming := (h_none .warming).mpr fun port h_port => ((h_satisfied port).mp (h_ports port h_port)).2
    rw [h_unready, h_warming, h.params, if_neg (by simp), if_neg, if_neg]
    · rintro (h_ne | h_short)
      · exact h_ne rfl
      · exact absurd h.bars (not_le.mpr h_short)
    · rintro ⟨h_ml, h_model⟩
      rw [h.model h_ml] at h_model
      cases h_model

/-- A node of the plan that nothing holds back. -/
def CanRun (engine : Engine V) (plan : CompiledPlan) (window : Window V)
    (warmups : List (String × ℤ)) (walk : Walk V) (nodeId : String) : Prop :=
  ∃ node descriptor, plan.node nodeId = some node ∧ engine.registry node.blockId = some descriptor ∧
    Runs engine plan window warmups walk nodeId node descriptor

/-- Every edge that carried a value still does. -/
def Walk.Extends (walk walk' : Walk V) : Prop :=
  ∀ edge, walk.portValueAvailable edge = true → walk'.portValueAvailable edge = true

theorem CanRun.extend {walk' : Walk V} (h_extends : walk.Extends walk')
    (h : CanRun engine plan window warmups walk nodeId) :
    CanRun engine plan window warmups walk' nodeId := by
  obtain ⟨node, descriptor, h_node, h_descriptor, h_runs⟩ := h
  have h_available := fun port h_port edge h_edge =>
    h_extends edge (h_runs.available port h_port edge h_edge)
  exact ⟨node, descriptor, h_node, h_descriptor, { h_runs with available := h_available }⟩

theorem Walk.extends_visit : walk.Extends (walk.visit nodeId) := fun _ h_edge => h_edge

theorem Walk.extends_mark (state : RuntimeState) (missing : List String) :
    walk.Extends (walk.mark nodeId state missing) := fun _ h_edge => h_edge

theorem Walk.extends_markReady : walk.Extends (walk.markReady nodeId) := fun _ h_edge => h_edge

theorem Walk.extends_publish (published : MemoizedNode V) :
    walk.Extends (walk.publish nodeId published) := by
  intro edge h_edge
  unfold Walk.portValueAvailable Walk.publish at *
  dsimp only
  by_cases h_source : edge.source = nodeId
  · subst h_source
    rw [Function.update_self, Function.update_self]
    simp only [Bool.and_eq_true] at h_edge ⊢
    exact ⟨h_edge.1, by simp⟩
  · rw [Function.update_of_ne h_source, Function.update_of_ne h_source]
    exact h_edge

/-- What is ready may run, is marked so, and so is all that feeds it. -/
structure Sound (engine : Engine V) (plan : CompiledPlan) (window : Window V)
    (warmups : List (String × ℤ)) (walk : Walk V) : Prop where
  runs : ∀ nodeId ∈ walk.ready, CanRun engine plan window warmups walk nodeId
  state : ∀ nodeId ∈ walk.ready, walk.nodeStates nodeId = .READY
  upstream : ∀ nodeId ∈ walk.ready, plan.predecessors nodeId ⊆ walk.ready

theorem sound_start : Sound engine plan window warmups Walk.start where
  runs := List.forall_mem_nil _
  state := List.forall_mem_nil _
  upstream := List.forall_mem_nil _

namespace Sound

variable (h : Sound engine plan window warmups walk)
include h

theorem visit : Sound engine plan window warmups (walk.visit nodeId) where
  runs := fun other h_other => (h.runs other h_other).extend Walk.extends_visit
  state := h.state
  upstream := h.upstream

theorem mark (h_ready : nodeId ∉ walk.ready) (state : RuntimeState) (missing : List String) :
    Sound engine plan window warmups (walk.mark nodeId state missing) where
  runs := fun other h_other => (h.runs other h_other).extend (Walk.extends_mark state missing)
  state := by
    intro other h_other
    have h_ne : other ≠ nodeId := fun h_eq => h_ready (h_eq ▸ h_other)
    rw [walk.mark_nodeStates_of_ne state missing h_ne]
    exact h.state other h_other
  upstream := h.upstream

theorem publish (published : MemoizedNode V) :
    Sound engine plan window warmups (walk.publish nodeId published) where
  runs := fun other h_other => (h.runs other h_other).extend (Walk.extends_publish published)
  state := h.state
  upstream := h.upstream

theorem markReady (h_runs : CanRun engine plan window warmups walk nodeId)
    (h_upstream : plan.predecessors nodeId ⊆ walk.ready) :
    Sound engine plan window warmups (walk.markReady nodeId) where
  runs := by
    intro other h_other
    rcases List.mem_cons.mp h_other with rfl | h_other
    · exact h_runs.extend Walk.extends_markReady
    · exact (h.runs other h_other).extend Walk.extends_markReady
  state := by
    intro other h_other
    by_cases h_eq : other = nodeId
    · rw [h_eq]
      exact walk.markReady_nodeStates_self nodeId
    · have h_same := walk.mark_nodeStates_of_ne .READY [] h_eq
      exact h_same.trans (h.state other ((List.mem_cons.mp h_other).resolve_left h_eq))
  upstream := by
    intro other h_other pred h_pred
    refine List.mem_cons_of_mem _ ?_
    rcases List.mem_cons.mp h_other with rfl | h_other
    · exact h_upstream h_pred
    · exact h.upstream other h_other h_pred

theorem gateNode {runnable : List (LevelNode V)} {state' : Walk V × List (LevelNode V)}
    (h_runnable : ∀ entry ∈ runnable, CanRun engine plan window warmups walk entry.nodeId)
    (h_gate : gateNode engine plan window warmups (walk, runnable) nodeId = .ok state') :
    Sound engine plan window warmups state'.1 ∧
      ∀ entry ∈ state'.2, CanRun engine plan window warmups state'.1 entry.nodeId := by
  unfold StrategyDag.gateNode at h_gate
  obtain ⟨node, h_node, h_gate⟩ := Except.bind_eq_ok.mp h_gate
  obtain ⟨descriptor, h_descriptor, h_gate⟩ := Except.bind_eq_ok.mp h_gate
  rw [Except.ofOption_eq_ok] at h_node h_descriptor
  have h_visited : Sound engine plan window warmups (walk.visit nodeId) := h.visit
  have h_kept : ∀ entry ∈ runnable,
      CanRun engine plan window warmups (walk.visit nodeId) entry.nodeId :=
    fun entry h_entry => (h_runnable entry h_entry).extend Walk.extends_visit
  dsimp only at h_gate
  split at h_gate
  · rename_i held missing h_held
    rw [Except.pure_eq_ok] at h_gate
    subst h_gate
    refine ⟨h_visited.mark (fun h_ready => ?_) held missing, fun entry h_entry =>
      (h_kept entry h_entry).extend (Walk.extends_mark held missing)⟩
    obtain ⟨node', descriptor', h_node', h_descriptor', h_runs⟩ := h_visited.runs nodeId h_ready
    rw [h_node] at h_node'
    cases h_node'
    rw [h_descriptor] at h_descriptor'
    cases h_descriptor'
    rw [gate_eq_none_iff.mpr h_runs] at h_held
    cases h_held
  · rename_i h_none
    obtain ⟨engineNode, -, h_gate⟩ := Except.bind_eq_ok.mp h_gate
    rw [Except.pure_eq_ok] at h_gate
    subst h_gate
    refine ⟨h_visited, fun entry h_entry => ?_⟩
    rcases List.mem_append.mp h_entry with h_entry | h_entry
    · exact h_kept entry h_entry
    · rw [List.mem_singleton.mp h_entry]
      exact ⟨node, descriptor, h_node, h_descriptor, gate_eq_none_iff.mp h_none⟩

theorem finishNode {entry : LevelNode V} {walk' : Walk V}
    (h_runs : CanRun engine plan window warmups walk entry.nodeId)
    (h_finish : finishNode engine plan window walk entry = .ok walk') :
    Sound engine plan window warmups walk' ∧ walk.Extends walk' := by
  unfold StrategyDag.finishNode at h_finish
  obtain ⟨published, -, h_finish⟩ := Except.bind_eq_ok.mp h_finish
  dsimp only at h_finish
  have h_extends : walk.Extends (walk.publish entry.nodeId published) := Walk.extends_publish published
  have h_published : Sound engine plan window warmups (walk.publish entry.nodeId published) :=
    h.publish published
  split_ifs at h_finish with h_all
  · rw [Except.pure_eq_ok] at h_finish
    subst h_finish
    have h_upstream : plan.predecessors entry.nodeId ⊆ (walk.publish entry.nodeId published).ready :=
      fun pred h_pred => of_decide_eq_true (List.all_eq_true.mp h_all pred h_pred)
    exact ⟨h_published.markReady (h_runs.extend h_extends) h_upstream, h_extends⟩
  · rw [Except.pure_eq_ok] at h_finish
    subst h_finish
    refine ⟨h_published.mark (fun h_ready => h_all ?_) .WARMING [], h_extends⟩
    exact List.all_eq_true.mpr fun pred h_pred =>
      decide_eq_true (h_published.upstream entry.nodeId h_ready h_pred)

theorem evaluateLevel {level : List String} {walk' : Walk V}
    (h_level : evaluateLevel engine plan window warmups walk level = .ok walk') :
    Sound engine plan window warmups walk' := by
  unfold StrategyDag.evaluateLevel at h_level
  obtain ⟨-, -, h_level⟩ := Except.bind_eq_ok.mp h_level
  obtain ⟨⟨gated, runnable⟩, h_gated, h_finished⟩ := Except.bind_eq_ok.mp h_level
  have h_gate : Sound engine plan window warmups gated ∧
      ∀ entry ∈ runnable, CanRun engine plan window warmups gated entry.nodeId := by
    refine Except.foldlM_invariant
      (P := fun state : Walk V × List (LevelNode V) => Sound engine plan window warmups state.1 ∧
        ∀ entry ∈ state.2, CanRun engine plan window warmups state.1 entry.nodeId)
      (fun nodeId _ state state' h_state h_next => ?_) ⟨h, List.forall_mem_nil _⟩ h_gated
    exact h_state.1.gateNode h_state.2 h_next
  have h_finish : Sound engine plan window warmups walk' ∧
      ∀ entry ∈ runnable, CanRun engine plan window warmups walk' entry.nodeId := by
    refine Except.foldlM_invariant
      (P := fun walk : Walk V => Sound engine plan window warmups walk ∧
        ∀ entry ∈ runnable, CanRun engine plan window warmups walk entry.nodeId)
      (fun entry h_entry walk walk' h_walk h_next => ?_) h_gate h_finished
    obtain ⟨h_sound, h_extends⟩ := h_walk.1.finishNode (h_walk.2 entry h_entry) h_next
    exact ⟨h_sound, fun other h_other => (h_walk.2 other h_other).extend h_extends⟩
  exact h_finish.1

end Sound

theorem sound_of_evaluatePlan (h : evaluatePlan engine plan window = .ok (warmups, walk)) :
    Sound engine plan window warmups walk := by
  unfold evaluatePlan at h
  obtain ⟨-, -, h⟩ := Except.bind_eq_ok.mp h
  obtain ⟨-, -, h⟩ := Except.bind_eq_ok.mp h
  obtain ⟨found, -, h⟩ := Except.bind_eq_ok.mp h
  obtain ⟨-, -, h⟩ := Except.bind_eq_ok.mp h
  obtain ⟨last, h_last, h⟩ := Except.bind_eq_ok.mp h
  rw [Except.pure_eq_ok, Prod.mk.injEq] at h
  obtain ⟨rfl, rfl⟩ := h
  exact Except.foldlM_invariant (fun level _ walk walk' h_walk h_next => h_walk.evaluateLevel h_next)
    sound_start h_last

theorem Sound.closure (h : Sound engine plan window warmups walk) (h_ready : nodeId ∈ walk.ready)
    {other : String}
    (h_upstream : Relation.ReflTransGen (fun v w => w ∈ plan.predecessors v) nodeId other) :
    other ∈ walk.ready := by
  induction h_upstream with
  | refl => exact h_ready
  | tail _ h_pred ih => exact h.upstream _ ih h_pred

end

end VyomQuant.StrategyDag
