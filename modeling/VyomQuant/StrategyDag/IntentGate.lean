/-
  VyomQuant.StrategyDag.IntentGate

  The intents that a run of a plan lets out (`execute_plan`, `build_intent` and
  `assert_execution_safe` in `dag_engine.py`).

  Whatever the plan, an intent has its whole upstream closure ready and only finite numbers.
  Its market is the one that the plan names, and a stored plan is served as it was stored:
  one of compiler 2.0.0 names none.  So the intents of a loaded plan are what they should be
  exactly when it was compiled just now, or what is stored names the markets of the actions
  that fire (`intentLaw_iff`).
-/

import VyomQuant.Lib.KeyedList
import VyomQuant.StrategyDag.CollectAll
import VyomQuant.StrategyDag.Runtime

namespace VyomQuant.StrategyDag

open Digraph (Arc Reaches reachableFrom)

variable {V : Type}

/-! ## Intents -/

/-- `TradeIntent`.  The quantity's type is not yet made a text. -/
structure TradeIntent where
  nodeId : String
  triggered : Bool
  bar : String
  signal : Extended
  symbol : Option String
  timeframe : Option String
  side : Option String
  orderType : Option String
  orderIntent : Option String
  reduceOnly : Bool
  quantityType : Value
  quantity : Value
  price : Value
  triggerPrice : Value
  limitPrice : Value
  params : Params

/-- `ACTION_TRIGGER_THRESHOLD`. -/
def actionTriggerThreshold : Extended := .real (1 / 2)

/-- The number on the signal port, which one edge feeds. -/
def signalOf (engine : Engine V) (plan : CompiledPlan) (walk : Walk V) (node : NodeSpec) :
    Option Extended :=
  match plan.inboundEdges node.id "signal" with
  | [edge] => (walk.valueOf edge).bind engine.lastScalar
  | _ => none

/-- `build_intent`. -/
def buildIntent (engine : Engine V) (plan : CompiledPlan) (window : Window V) (walk : Walk V)
    (node : NodeSpec) (symbol timeframe : Option String) : TradeIntent :=
  let signal := signalOf engine plan walk node
  let terms := engine.orderTerms node.blockId
  { nodeId := node.id
    triggered := signal.any fun x => actionTriggerThreshold.lt x
    bar := (window.index.getLast?.map engine.barLabel).getD ""
    signal := signal.getD (.real 0)
    symbol := symbol
    timeframe := timeframe
    side := terms.side.filter (· ≠ "")
    orderType := terms.orderType.filter (· ≠ "")
    orderIntent := terms.intent.filter (· ≠ "")
    reduceOnly := terms.reduceOnlyForced || (node.params.get "reduce_only").truthy
    quantityType :=
      if (node.params.get "quantity_type").truthy then node.params.get "quantity_type"
      else .scalar .none
    quantity := node.params.get "quantity"
    price := node.params.get "price"
    triggerPrice := node.params.get "trigger_price"
    limitPrice := node.params.get "limit_price"
    params := node.params }

/-! ## The last check -/

/-- What `_intent_numeric` makes of a field. -/
inductive FieldReading where
  | absent
  | number (x : Extended)
  /-- No number at all. -/
  | other
  /-- `float` overflows. -/
  | overflow

def readField : Value → FieldReading
  | .scalar .none => .absent
  | .scalar (.bool _) => .other
  | .scalar (.int n) =>
    match floatOfInt n with
    | some rounded => .number (.real rounded)
    | none => .overflow
  | .scalar (.float x) => .number x.extended
  | .scalar (.str text) =>
    match floatOfText text with
    | some x => .number x
    | none => .other
  | .list _ => .other
  | .dict _ => .other

def readText : Option String → FieldReading
  | some text => readField (.scalar (.str text))
  | none => .absent

/-- `_intent_field_names` and what stands there.  An intent has no `notional`. -/
def TradeIntent.fields (intent : TradeIntent) : List (String × FieldReading) :=
  [("quantity", readField intent.quantity), ("price", readField intent.price),
    ("trigger_price", readField intent.triggerPrice), ("notional", .absent),
    ("node_id", readText (some intent.nodeId)), ("triggered", .other),
    ("bar", readText (some intent.bar)), ("signal", .number intent.signal),
    ("symbol", readText intent.symbol), ("timeframe", readText intent.timeframe),
    ("side", readText intent.side), ("order_type", readText intent.orderType),
    ("order_intent", readText intent.orderIntent), ("reduce_only", .other),
    ("quantity_type", readField intent.quantityType), ("limit_price", readField intent.limitPrice),
    ("params", .other)]

/-- `_ORDER_NUMERIC_FIELDS`. -/
def orderNumericFields : List String := ["quantity", "price", "trigger_price", "notional"]

/-- `np.isfinite`. -/
def Extended.isFinite : Extended → Bool
  | .real _ => true
  | _ => false

/-- One field in `assert_execution_safe`. -/
def assertFieldSafe (nodeId : String) (field : String × FieldReading) : Except ExecutionError Unit :=
  match field.2 with
  | .absent => .ok ()
  | .number x => Except.refuseIf (x.isFinite = false) (.blocked nodeId .NON_FINITE_ORDER_FIELD field.1)
  | .other =>
    Except.refuseIf (field.1 ∈ orderNumericFields) (.blocked nodeId .NON_FINITE_ORDER_FIELD field.1)
  | .overflow => .error (.overflow nodeId field.1)

/-- `numeric <= 0`. -/
def Extended.nonPositive (x : Extended) : Bool := x.lt (.real 0) || x.eq (.real 0)

/-- `assert_execution_safe`. -/
def assertExecutionSafe (intent : TradeIntent) (nodeId : String) : Except ExecutionError Unit := do
  intent.fields.forM (assertFieldSafe nodeId)
  match readField intent.quantity with
  | .number x =>
    Except.refuseIf (x.nonPositive = true) (.blocked nodeId .NON_POSITIVE_QUANTITY "quantity")
  | _ => .ok ()

/-! ## The intent gate -/

section

variable (engine : Engine V) (plan : CompiledPlan) (window : Window V)

/-- `_upstream_closure`. -/
def upstreamClosure (actionId : String) : List String :=
  reachableFrom (plan.dependencies.flatMap fun entry =>
    (plan.predecessors entry.1).map fun pred => (entry.1, pred)) (plan.predecessors actionId)

def firing (walk : Walk V) : List (String × TradeIntent) :=
  if engine.frozen then []
  else
    plan.actionNodes.filterMap fun actionId =>
      if actionId ∈ walk.ready ∧ upstreamClosure plan actionId ⊆ walk.ready then
        (plan.node actionId).bind fun node =>
          let intent := buildIntent engine plan window walk node (plan.actionSymbol actionId)
            (plan.actionTimeframe actionId)
          if intent.triggered then some (actionId, intent) else none
      else none

/-- An intent passes the last check, or nothing is returned at all. -/
def emit (entry : String × TradeIntent) : Except ExecutionError TradeIntent := do
  assertExecutionSafe entry.2 entry.1
  pure entry.2

/-- `execute_plan`: the state of every node, and the intents. -/
def executePlan : Except ExecutionError (Walk V × List TradeIntent) := do
  let (_, walk) ← evaluatePlan engine plan window
  let intents ← (firing engine plan window walk).mapM emit
  pure (walk, intents)

end

/-! ## What an intent rests on -/

section

variable {engine : Engine V} {plan : CompiledPlan} {window : Window V} {walk : Walk V}
  {warmups : List (String × ℤ)} {registry : Registry} {options : Options} {g : StrategyGraph}

/-- One node feeds the other, by the plan. -/
def Upstream (plan : CompiledPlan) : String → String → Prop :=
  Relation.ReflTransGen fun nodeId pred => pred ∈ plan.predecessors nodeId

structure NodeReady (engine : Engine V) (plan : CompiledPlan) (window : Window V)
    (warmups : List (String × ℤ)) (walk : Walk V) (nodeId : String) (node : NodeSpec)
    (descriptor : BlockDescriptor) : Prop where
  state : walk.nodeStates nodeId = .READY
  fed : ∀ port ∈ descriptor.inputs, port.required = true → plan.inboundEdges node.id port.name ≠ []
  available : ∀ port ∈ descriptor.inputs, ∀ edge ∈ plan.inboundEdges node.id port.name,
    walk.portValueAvailable edge = true
  bars : barsNeeded warmups nodeId ≤ window.index.length
  model : descriptor.category = .ML_DL → engine.modelReady nodeId = true

/-- An intent of an action node whose upstream closure is ready, for the market that feeds it,
    with a positive quantity and only finite numbers. -/
structure SoundIntent (engine : Engine V) (plan : CompiledPlan) (g : StrategyGraph)
    (window : Window V) (warmups : List (String × ℤ)) (walk : Walk V) (actionId : String)
    (intent : TradeIntent) : Prop where
  action : ∃ node descriptor, plan.node actionId = some node ∧ node.id = intent.nodeId ∧
    engine.registry node.blockId = some descriptor ∧ descriptor.category = .ACTION
  closure : ∀ nodeId, Upstream plan actionId nodeId → ∃ node descriptor,
    plan.node nodeId = some node ∧ engine.registry node.blockId = some descriptor ∧
      NodeReady engine plan window warmups walk nodeId node descriptor
  symbol : ∃ symbol, intent.symbol = some symbol ∧ TradesUpstream engine.registry g actionId symbol
  quantity : ∃ q : ℚ, 0 < q ∧ readField intent.quantity = .number (.real q)
  finite : ∀ field ∈ intent.fields, ∀ x, field.2 = .number x → ∃ q, x = .real q

/-- Every intent of a run is sound for the action that it comes from. -/
def IntentLaw (engine : Engine V) (plan : CompiledPlan) (g : StrategyGraph) (window : Window V) :
    Prop :=
  ∀ warmups walk intents, evaluatePlan engine plan window = .ok (warmups, walk) →
    executePlan engine plan window = .ok (walk, intents) →
      List.Forall₂ (SoundIntent engine plan g window warmups walk)
        ((firing engine plan window walk).map Prod.fst) intents

/-- What the plan says of an action is so: it is one, it trades the symbol of its market, and
    the models upstream of it are listed. -/
structure Labelled (engine : Engine V) (plan : CompiledPlan) (g : StrategyGraph)
    (actionId : String) : Prop where
  action : ∃ node descriptor, plan.node actionId = some node ∧
    engine.registry node.blockId = some descriptor ∧ descriptor.category = .ACTION
  symbol : ∃ symbol, plan.actionSymbol actionId = some symbol ∧
    TradesUpstream engine.registry g actionId symbol
  models : ∀ nodeId, Upstream plan actionId nodeId → ∀ node descriptor,
    plan.node nodeId = some node → engine.registry node.blockId = some descriptor →
      descriptor.category = .ML_DL → nodeId ∈ plan.mlNodes ∨ engine.modelReady nodeId = true

variable {actionId nodeId : String} {intent : TradeIntent}

theorem mem_firing (h : (actionId, intent) ∈ firing engine plan window walk) :
    actionId ∈ plan.actionNodes ∧ actionId ∈ walk.ready ∧ ∃ node, plan.node actionId = some node ∧
      intent = buildIntent engine plan window walk node (plan.actionSymbol actionId)
        (plan.actionTimeframe actionId) := by
  unfold firing at h
  split_ifs at h
  · cases h
  · obtain ⟨found, h_found, h_some⟩ := List.mem_filterMap.mp h
    split_ifs at h_some with h_ready
    obtain ⟨node, h_node, h_intent⟩ := Option.bind_eq_some_iff.mp h_some
    dsimp only at h_intent
    split_ifs at h_intent
    obtain ⟨rfl, rfl⟩ := Prod.mk.inj (Option.some.inj h_intent)
    exact ⟨h_found, h_ready.1, node, h_node, rfl⟩

theorem isNone_of_absent {value : Value} (h : readField value = .absent) : isNone value = true := by
  unfold readField at h
  split at h
  · rfl
  · cases h
  · split at h <;> cases h
  · cases h
  · split at h <;> cases h
  · cases h
  · cases h

theorem assertFieldSafe_eq_ok {field : String × FieldReading}
    (h : assertFieldSafe nodeId field = .ok ()) :
    (∀ x, field.2 = .number x → ∃ q, x = .real q) ∧
      (field.1 ∈ orderNumericFields → field.2 ≠ .absent → ∃ q, field.2 = .number (.real q)) := by
  obtain ⟨name, reading⟩ := field
  unfold assertFieldSafe at h
  cases reading with
  | absent => exact ⟨nofun, fun _ h_absent => absurd rfl h_absent⟩
  | number x =>
    rw [Except.refuseIf_eq_ok] at h
    cases x with
    | real q => exact ⟨fun y h_y => ⟨q, (FieldReading.number.inj h_y).symm⟩, fun _ _ => ⟨q, rfl⟩⟩
    | nan => exact absurd rfl h
    | negativeInfinity => exact absurd rfl h
    | positiveInfinity => exact absurd rfl h
  | other =>
    rw [Except.refuseIf_eq_ok] at h
    exact ⟨nofun, fun h_order => absurd h_order h⟩
  | overflow => cases h

theorem assertExecutionSafe_eq_ok (h : assertExecutionSafe intent nodeId = .ok ()) :
    (∀ field ∈ intent.fields, ∀ x, field.2 = .number x → ∃ q, x = .real q) ∧
      (isNone intent.quantity = false → ∃ q : ℚ, 0 < q ∧ readField intent.quantity = .number (.real q)) := by
  unfold assertExecutionSafe at h
  obtain ⟨_, h_fields, h_quantity⟩ := Except.bind_eq_ok.mp h
  rw [Except.forM_eq_ok] at h_fields
  refine ⟨fun field h_field => (assertFieldSafe_eq_ok (h_fields field h_field)).1, fun h_some => ?_⟩
  have h_present : readField intent.quantity ≠ .absent := fun h_absent => by
    rw [isNone_of_absent h_absent] at h_some
    cases h_some
  have h_first : ("quantity", readField intent.quantity) ∈ intent.fields := List.mem_cons_self
  have h_order : "quantity" ∈ orderNumericFields := by decide
  obtain ⟨q, h_q⟩ := (assertFieldSafe_eq_ok (h_fields _ h_first)).2 h_order h_present
  refine ⟨q, ?_, h_q⟩
  have h_number : readField intent.quantity = .number (.real q) := h_q
  rw [h_number] at h_quantity
  dsimp only at h_quantity
  rw [Except.refuseIf_eq_ok] at h_quantity
  by_contra h_le
  refine h_quantity ?_
  rcases lt_or_eq_of_le (not_lt.mp h_le) with h_lt | h_eq
  · simp [Extended.nonPositive, Extended.lt, h_lt]
  · simp [Extended.nonPositive, Extended.lt, Extended.eq, h_eq]

/-- The intent of an action that fires is sound exactly when what the plan says of it is so. -/
theorem soundIntent_iff (h_sound : Sound engine plan window warmups walk)
    (h_firing : (actionId, intent) ∈ firing engine plan window walk)
    (h_safe : assertExecutionSafe intent actionId = .ok ()) :
    SoundIntent engine plan g window warmups walk actionId intent ↔ Labelled engine plan g actionId := by
  obtain ⟨-, h_ready, node, h_node, h_intent⟩ := mem_firing h_firing
  have h_symbol : intent.symbol = plan.actionSymbol actionId := by rw [h_intent, buildIntent]
  have h_quantity : intent.quantity = node.params.get "quantity" := by rw [h_intent, buildIntent]
  have h_id : intent.nodeId = node.id := by rw [h_intent, buildIntent]
  constructor
  · intro h
    obtain ⟨node', descriptor, h_node', -, h_descriptor, h_category⟩ := h.action
    refine ⟨⟨node', descriptor, h_node', h_descriptor, h_category⟩, h_symbol ▸ h.symbol, ?_⟩
    intro nodeId h_upstream node descriptor h_node h_descriptor h_model
    obtain ⟨found, published, h_found, h_published, h_ready⟩ := h.closure nodeId h_upstream
    cases h_node.symm.trans h_found
    cases h_descriptor.symm.trans h_published
    exact .inr (h_ready.model h_model)
  · intro h
    obtain ⟨h_finite, h_positive⟩ := assertExecutionSafe_eq_ok h_safe
    obtain ⟨node', descriptor, h_node', h_descriptor, h_category⟩ := h.action
    cases h_node.symm.trans h_node'
    refine ⟨⟨node, descriptor, h_node, h_id.symm, h_descriptor, h_category⟩, ?_, h_symbol ▸ h.symbol,
      h_positive ?_, h_finite⟩
    · intro nodeId h_upstream
      have h_ready' : nodeId ∈ walk.ready := h_sound.closure h_ready h_upstream
      obtain ⟨found, published, h_found, h_published, h_runs⟩ := h_sound.runs nodeId h_ready'
      refine ⟨found, published, h_found, h_published, h_sound.state nodeId h_ready', h_runs.fed,
        h_runs.available, h_runs.bars, fun h_model => ?_⟩
      rcases h.models nodeId h_upstream found published h_found h_published h_model with h_listed | h_model
      · exact h_runs.model h_listed
      · exact h_model
    · obtain ⟨found, published, h_found, h_published, h_runs⟩ := h_sound.runs actionId h_ready
      cases h_node.symm.trans h_found
      cases h_descriptor.symm.trans h_published
      have h_params := h_runs.params
      rw [missingActionParams, if_pos h_category, List.map_eq_nil_iff, List.filter_eq_nil_iff] at h_params
      rw [h_quantity]
      exact Bool.eq_false_iff.mpr (h_params "quantity" (by decide))

theorem executePlan_eq_ok_iff {intents : List TradeIntent} :
    executePlan engine plan window = .ok (walk, intents) ↔
      ∃ warmups, evaluatePlan engine plan window = .ok (warmups, walk) ∧
        (firing engine plan window walk).mapM emit = .ok intents := by
  unfold executePlan
  rw [Except.bind_eq_ok]
  constructor
  · rintro ⟨⟨warmups, walk'⟩, h_walk, h_rest⟩
    obtain ⟨intents', h_emitted, h_pair⟩ := Except.bind_eq_ok.mp h_rest
    rw [Except.pure_eq_ok, Prod.mk.injEq] at h_pair
    obtain ⟨rfl, rfl⟩ := h_pair
    exact ⟨warmups, h_walk, h_emitted⟩
  · rintro ⟨warmups, h_walk, h_emitted⟩
    exact ⟨(warmups, walk), h_walk, Except.bind_eq_ok.mpr ⟨intents, h_emitted, rfl⟩⟩

theorem mapM_emit_eq_ok_iff {entries : List (String × TradeIntent)} {intents : List TradeIntent} :
    entries.mapM emit = .ok intents ↔ intents = entries.map Prod.snd ∧
      ∀ entry ∈ entries, assertExecutionSafe entry.2 entry.1 = .ok () := by
  induction entries generalizing intents with
  | nil =>
    rw [List.mapM_nil, Except.pure_eq_ok, List.map_nil, eq_comm]
    exact (and_iff_left (List.forall_mem_nil _)).symm
  | cons entry rest ih =>
    rw [List.mapM_cons, Except.bind_eq_ok, List.map_cons, List.forall_mem_cons]
    constructor
    · rintro ⟨intent, h_emit, h_rest⟩
      obtain ⟨_, h_safe, h_intent⟩ := Except.bind_eq_ok.mp h_emit
      rw [Except.pure_eq_ok] at h_intent
      obtain ⟨others, h_others, h_list⟩ := Except.bind_eq_ok.mp h_rest
      rw [Except.pure_eq_ok] at h_list
      obtain ⟨h_map, h_all⟩ := ih.mp h_others
      exact ⟨by rw [← h_list, ← h_intent, h_map], h_safe, h_all⟩
    · rintro ⟨rfl, h_safe, h_all⟩
      refine ⟨entry.2, Except.bind_eq_ok.mpr ⟨(), h_safe, rfl⟩, ?_⟩
      exact Except.bind_eq_ok.mpr ⟨_, ih.mpr ⟨rfl, h_all⟩, rfl⟩

/-- Every action that fires is what the plan says of it, unless one of them is refused. -/
def LabelledWhereFired (engine : Engine V) (plan : CompiledPlan) (g : StrategyGraph)
    (window : Window V) : Prop :=
  ∀ warmups walk, evaluatePlan engine plan window = .ok (warmups, walk) →
    (∀ entry ∈ firing engine plan window walk, assertExecutionSafe entry.2 entry.1 = .ok ()) →
      ∀ entry ∈ firing engine plan window walk, Labelled engine plan g entry.1

theorem intentLaw_iff_labelled :
    IntentLaw engine plan g window ↔ LabelledWhereFired engine plan g window := by
  constructor
  · intro h warmups walk h_walk h_safe entry h_entry
    have h_emitted : (firing engine plan window walk).mapM emit
        = .ok ((firing engine plan window walk).map Prod.snd) := mapM_emit_eq_ok_iff.mpr ⟨rfl, h_safe⟩
    have h_law := h warmups walk _ h_walk (executePlan_eq_ok_iff.mpr ⟨warmups, h_walk, h_emitted⟩)
    rw [List.forall₂_map_left_iff, List.forall₂_map_right_iff, List.forall₂_same] at h_law
    exact (soundIntent_iff (sound_of_evaluatePlan h_walk) h_entry (h_safe entry h_entry)).mp
      (h_law entry h_entry)
  · intro h warmups walk intents h_walk h_intents
    obtain ⟨-, -, h_emitted⟩ := executePlan_eq_ok_iff.mp h_intents
    obtain ⟨rfl, h_safe⟩ := mapM_emit_eq_ok_iff.mp h_emitted
    rw [List.forall₂_map_left_iff, List.forall₂_map_right_iff, List.forall₂_same]
    intro entry h_entry
    exact (soundIntent_iff (sound_of_evaluatePlan h_walk) h_entry (h_safe entry h_entry)).mpr
      (h warmups walk h_walk h_safe entry h_entry)

/-! ## Plans compiled just now -/

theorem node_assembled {order : List String} {levels : List (List String)} {warmupBars : ℤ}
    {markets : List (String × String) × List (String × String)} :
    (CompiledPlan.assembled registry g order levels warmupBars markets).node nodeId
      = g.nodeIndex nodeId := by
  by_cases h_id : nodeId ∈ g.nodeIds
  · exact List.lookup_filterMap_pair (List.mem_eraseDups.mpr h_id)
  · rw [StrategyGraph.nodeIndex_eq_none h_id]
    refine List.lookup_eq_none_iff.mpr fun entry h_entry => ?_
    obtain ⟨other, h_other, h_some⟩ := List.mem_filterMap.mp h_entry
    obtain ⟨value, -, rfl⟩ := Option.map_eq_some_iff.mp h_some
    exact bne_iff_ne.mpr fun h_eq => h_id (List.mem_eraseDups.mp (h_eq ▸ h_other))

theorem fromGraph_eq_ok {order : List String} {levels : List (List String)} {warmupBars : ℤ}
    (h : CompiledPlan.fromGraph registry g order levels warmupBars = .ok plan) :
    (∀ id, id ∈ order ↔ id ∈ g.nodeIds) ∧ ∃ symbols timeframes,
      MarketsFound g symbols timeframes ∧ plan = CompiledPlan.assembled registry g order levels
        (max 0 warmupBars) (symbols, timeframes) := by
  obtain ⟨_, h_whole, -⟩ := Except.bind_eq_ok.mp h
  obtain ⟨h_nodup, h_both⟩ := not_not.mp (Except.refuseIf_eq_ok.mp h_whole)
  have h_order : ∀ id, id ∈ order ↔ id ∈ g.nodeIds := fun id =>
    ⟨fun h_id => (h_both id (List.mem_append_left _ h_id)).2,
      fun h_id => (h_both id (List.mem_append_right _ h_id)).1⟩
  obtain ⟨symbols, timeframes, h_markets, h_plan⟩ := (fromGraph_eq_ok_iff h_nodup h_order).mp h
  exact ⟨h_order, symbols, timeframes, resolveActionMarkets_spec h_markets, h_plan⟩

/-- What the compiler lets out is assembled from the canonical graph. -/
theorem compilePlan_eq_ok (h : compilePlan registry options g = .ok plan) :
    Published registry (recomputeGraph registry g .VALID) ∧
      ∃ order levels warmupBars symbols timeframes, levels.flatten.Nodup ∧
        (∀ id, id ∈ order ↔ id ∈ (recomputeGraph registry g .VALID).nodeIds) ∧
          MarketsFound (recomputeGraph registry g .VALID) symbols timeframes ∧
            plan = CompiledPlan.assembled registry (recomputeGraph registry g .VALID) order levels
              warmupBars (symbols, timeframes) := by
  unfold compilePlan at h
  split at h
  · cases h
  · rename_i report h_report
    split_ifs at h with h_errors
    have h_valid : report.valid = true := List.isEmpty_iff.mpr (not_not.mp h_errors)
    have h_clear := validates_iff.mp ⟨report, h_report, h_valid⟩
    dsimp only at h
    rw [canonicalGraph_of_valid h_report h_valid] at h
    obtain ⟨⟨order, levels⟩, h_found, h_built⟩ := Except.bind_eq_ok.mp h
    have h_nodup : levels.flatten.Nodup := by
      obtain ⟨found, h_order, -, -, h_levels⟩ := executionOrder_spec h_clear.acyclic
      unfold orderFor at h_found
      rw [(order_eq h_report).1, (order_eq h_report).2, h_order] at h_found
      dsimp only [Option.map_some] at h_found
      split_ifs at h_found
      cases h_found
      exact h_levels.nodup
    dsimp only at h_built
    split at h_built
    · cases h_built
    · rename_i built h_fromGraph
      obtain ⟨_, -, h_plan⟩ := Except.bind_eq_ok.mp h_built
      rw [Except.pure_eq_ok] at h_plan
      subst h_plan
      obtain ⟨h_order, symbols, timeframes, h_markets, h_eq⟩ := fromGraph_eq_ok h_fromGraph
      exact ⟨h_clear.published .VALID, order, levels, _, symbols, timeframes, h_nodup, h_order,
        h_markets, h_eq⟩

theorem labelled_of_compilePlan (h : compilePlan engine.registry options g = .ok plan)
    (h_action : actionId ∈ plan.actionNodes) : Labelled engine plan g actionId := by
  obtain ⟨h_published, order, levels, warmupBars, symbols, timeframes, -, h_order, h_markets, rfl⟩ :=
    compilePlan_eq_ok h
  have h_index : ∀ {nodeId node}, (recomputeGraph engine.registry g .VALID).nodeIndex nodeId = some node →
      node ∈ (recomputeGraph engine.registry g .VALID).nodes ∧ node.id = nodeId :=
    StrategyGraph.nodeIndex_eq_some
  have h_declared := (h_published.mem_idsInOrder h_order).mp h_action
  obtain ⟨node, h_node, rfl⟩ := List.mem_map.mp h_declared
  obtain ⟨h_mem, h_category⟩ := List.mem_filter.mp h_node
  obtain ⟨descriptor, h_descriptor, h_block⟩ :=
    (h_published.category_eq_iff h_mem).mp (of_decide_eq_true h_category)
  refine ⟨⟨node, descriptor, ?_, h_descriptor, h_block⟩, ?_, ?_⟩
  · rw [node_assembled]
    exact StrategyGraph.nodeIndex_of_mem h_published.resolved.nodup h_mem
  · have h_key : node.id ∈ symbols.map Prod.fst := by
      rw [h_markets.keys, Digraph.sorted, List.mem_insertionSort, List.mem_eraseDups]
      exact h_declared
    obtain ⟨symbol, h_symbol, h_entry⟩ := lookup_of_mem h_key
    refine ⟨symbol, h_symbol, ?_⟩
    have h_declares := h_markets.symbol _ h_entry
    have h_trades := h_published.mem_declaredTexts_symbol.mp (h_declares ▸ List.mem_singleton_self symbol)
    exact h_trades.congr authored_recomputeGraph
  · intro nodeId _ node descriptor h_node h_descriptor h_model
    rw [node_assembled] at h_node
    obtain ⟨h_mem, rfl⟩ := h_index h_node
    refine .inl ((h_published.mem_idsInOrder h_order).mpr ?_)
    refine List.mem_map_of_mem (List.mem_filter.mpr ⟨h_mem, decide_eq_true ?_⟩)
    exact (h_published.category_eq_iff h_mem).mpr ⟨descriptor, h_descriptor, h_model⟩

theorem compilePlan_of_loadPlan {columns : List (Option CompiledPlan)} {loaded : LoadedPlan}
    (h : loadPlan registry options columns g = .ok loaded) (h_reused : loaded.reused = false) :
    compilePlan registry options g = .ok loaded.plan := by
  have h_compiled : ∀ {found : LoadedPlan},
      ((compilePlan registry options g).map fun plan => LoadedPlan.mk plan false) = .ok found →
        compilePlan registry options g = .ok found.plan := by
    intro found h_found
    obtain ⟨plan, h_plan, rfl⟩ := Except.map_eq_ok.mp h_found
    exact h_plan
  unfold loadPlan at h
  split at h
  · split_ifs at h
    · cases h
      cases h_reused
    · exact h_compiled h
  · exact h_compiled h

/-- The intents of a loaded plan are sound exactly when it was compiled just now, or what is
    stored of the actions that fire is so. -/
theorem intentLaw_iff {columns : List (Option CompiledPlan)} {loaded : LoadedPlan}
    (h : loadPlan engine.registry options columns g = .ok loaded) (window : Window V) :
    IntentLaw engine loaded.plan g window ↔
      (loaded.reused = true → LabelledWhereFired engine loaded.plan g window) := by
  rw [intentLaw_iff_labelled]
  constructor
  · exact fun h_law _ => h_law
  · intro h_law
    cases h_reused : loaded.reused with
    | true => exact h_law h_reused
    | false =>
      intro warmups walk _ _ entry h_entry
      exact labelled_of_compilePlan (compilePlan_of_loadPlan h h_reused) (mem_firing h_entry).1

end

/-! ### A plan of the older compiler -/

/-- Every executor returns one above the threshold. -/
def constantEngine : Engine ℤ :=
  { registry := taggedRegistry, contracts := taggedRegistry
    orderTerms := fun _ => { side := some "buy", orderType := some "market", intent := some "open"
                             reduceOnlyForced := false }
    modelReady := fun _ => false, execute := fun _ _ _ => some (.value 1)
    validPortOutput := fun _ _ _ => true, cached := fun _ _ => none
    lastScalar := fun v => some (.real v), barLabel := fun _ => "2024-01-01 00:00:00+00:00"
    frozen := false }

/-- As many bars as the warmup of the feed asks for. -/
def elevenBars : Window ℤ :=
  { index := (List.range 11).map fun i => 1704067200 + 3600 * i, columns := ["close"], frame := 1 }

def sizedOrder : StrategyGraph :=
  oneOrder [("quantity_type", .scalar (.str "base")), ("quantity", .scalar (.int 1))]

/-- The plan of a market order as compiler 2.0.0 stored it, without the markets. -/
def marketlessPlan : CompiledPlan :=
  { CompiledPlan.assembled taggedRegistry sizedOrder ["c", "n1", "g", "s", "a"]
      [["c", "n1"], ["g"], ["s"], ["a"]] 0 ([], []) with compilerVersion := "2.0.0" }

theorem loadPlan_marketless :
    loadPlan taggedRegistry {} [some marketlessPlan] sizedOrder
      = .ok { plan := marketlessPlan, reused := true } := by
  have h_hash : marketlessPlan.dagHash = computeDagHash sizedOrder := by
    unfold marketlessPlan CompiledPlan.assembled
    dsimp only
  have h_first : [some marketlessPlan].reduceOption.head? = some marketlessPlan := rfl
  exact (loadPlan_reuses_iff h_first).mpr h_hash

theorem intentLaw_iff_marketless :
    IntentLaw constantEngine marketlessPlan sizedOrder elevenBars ↔
      (true = true → LabelledWhereFired constantEngine marketlessPlan sizedOrder elevenBars) :=
  @intentLaw_iff ℤ constantEngine {} sizedOrder _ _ loadPlan_marketless elevenBars

theorem sizedOrder_validates : Validates taggedRegistry {} sizedOrder :=
  validates_of_run (by decide +kernel)

theorem marketless_fires :
    (((executePlan constantEngine marketlessPlan elevenBars).toOption.map Prod.snd).map fun intents =>
      intents.map fun intent => (intent.nodeId, intent.symbol)) = some [("a", none)] := by
  decide +kernel

/-- The intent of a valid graph's stored plan need not say what market it is for. -/
theorem not_intentLaw :
    ¬ ∀ (V : Type) (engine : Engine V) (options : Options) (g : StrategyGraph)
        (columns : List (Option CompiledPlan)) (loaded : LoadedPlan) (window : Window V),
      Validates engine.registry options g →
        loadPlan engine.registry options columns g = .ok loaded →
          IntentLaw engine loaded.plan g window := by
  intro h
  have h_law := h ℤ constantEngine {} sizedOrder _ _ elevenBars sizedOrder_validates loadPlan_marketless
  have h_fires := marketless_fires
  cases h_run : executePlan constantEngine marketlessPlan elevenBars with
  | error error =>
    rw [h_run] at h_fires
    cases h_fires
  | ok result =>
    obtain ⟨walk, intents⟩ := result
    rw [h_run] at h_fires
    have h_intents : intents.map (fun intent => (intent.nodeId, intent.symbol)) = [("a", none)] :=
      Option.some.inj h_fires
    obtain ⟨warmups, h_walk, -⟩ := executePlan_eq_ok_iff.mp h_run
    have h_pairs := h_law warmups walk intents h_walk h_run
    obtain ⟨intent, rfl⟩ : ∃ intent, intents = [intent] :=
      List.length_eq_one_iff.mp (by simpa using congrArg List.length h_intents)
    generalize (firing constantEngine marketlessPlan elevenBars walk).map Prod.fst = actions at h_pairs
    cases h_pairs with
    | cons h_sound _ =>
      obtain ⟨symbol, h_symbol, -⟩ := h_sound.symbol
      have h_none : intent.symbol = none := (Prod.mk.inj (List.singleton_inj.mp h_intents)).2
      rw [h_none] at h_symbol
      cases h_symbol

end VyomQuant.StrategyDag
