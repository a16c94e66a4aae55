/-
  VyomQuant.StrategyDag.PortInference

  What a migration makes of the nodes and edges of version 1.  Every node keeps its id and
  its place, and every edge is either placed or kept as it was stored with an error that
  names it (`KeepsEverything`).

  The ports that an edge does not name are found by first fit in stored order.  So one may be
  the port that a later edge names, or one whose source port could not be found.  It is not
  exactly where the stored order leaves room (`LeavesRoom`): when the pass comes to an edge
  without a port, each port of its target that is named for one edge is taken already, or
  comes after a port that the edge may have.
-/

import VyomQuant.StrategyDag.Migration

namespace VyomQuant.StrategyDag

/-! ## Nothing is lost -/

/-- The items under the first of two keys that has a list. -/
def storedItems (raw : Params) (key legacyKey : String) : List Value :=
  ((rawList raw key legacyKey).toOption).getD []

/-- An entry of a stored node or edge. -/
def storedEntry (item : Value) (key : String) : Option String :=
  ((item.dict?.getD []).get key).nonEmpty?

/-- The id of an edge: its own, or the one that is made of its ends and its place. -/
def storedEdgeId (rawEdge : Value × ℕ) : Option String :=
  storedEntry rawEdge.1 "id" <|> do
    let source ← storedEntry rawEdge.1 "source"
    let target ← storedEntry rawEdge.1 "target"
    some (migratedEdgeId source target rawEdge.2)

/-- What `metadata["migration"]` says under a key. -/
def GraphEnvelope.reported (envelope : GraphEnvelope) (key : String) : Value :=
  ((envelope.metadata.get "migration").dict?.getD []).get key

/-- A stored edge is migrated with its ends, or kept as it is with an error that names it. -/
def AccountedFor (envelope : GraphEnvelope) (rawEdge : Value × ℕ) : EdgeOutcome → Prop
  | .migrated edge => storedEdgeId rawEdge = some edge.id ∧
      storedEntry rawEdge.1 "source" = some edge.source ∧
      storedEntry rawEdge.1 "target" = some edge.target
  | .unmigrated data issue => rawEdge.1 = .dict data ∧ issue.severity = severityError ∧
      storedEdgeId rawEdge = issue.edgeId ∧
      ∃ issues, envelope.reported "issues" = .list issues ∧ issue.toDict ∈ issues

/-- Node for node and edge for edge, what is migrated is what was stored. -/
structure KeepsEverything (raw : Params) (envelope : GraphEnvelope) (outcomes : List EdgeOutcome) :
    Prop where
  nodeIds : envelope.nodes.map (fun node => some node.id)
    = (storedItems raw "nodes" "_nodes").map fun item => storedEntry item "id"
  each : List.Forall₂ (AccountedFor envelope) (storedItems raw "edges" "_edges").zipIdx outcomes
  migrated : envelope.edges = outcomes.filterMap EdgeOutcome.edge?
  unmigrated : envelope.reported "unmigrated_edges"
    = .list ((outcomes.filterMap EdgeOutcome.unmigrated?).map Value.dict)

theorem get_putParam (key : String) (value : Value) (params : Params) :
    (BlockDescriptor.putParam key value params).get key = value := by
  induction params with
  | nil => simp [BlockDescriptor.putParam, Params.get]
  | cons member rest ih =>
    obtain ⟨key', value'⟩ := member
    unfold BlockDescriptor.putParam
    split_ifs with h_key
    · simp [Params.get]
    · simpa [Params.get, h_key] using ih

theorem reported_migratedGraph (rules : TextRules) (lookup : Option Lookup) (raw : Params)
    (readings : Readings) :
    (migratedGraph rules lookup raw readings).reported "unmigrated_edges"
        = .list ((readings.outcomes.filterMap EdgeOutcome.unmigrated?).map Value.dict) ∧
      (migratedGraph rules lookup raw readings).reported "issues"
        = .list ((migrationIssuesOf lookup raw readings).map MigrationIssue.toDict) := by
  have h_get : (migratedGraph rules lookup raw readings).metadata.get "migration"
      = migrationReport lookup.isSome
          ((readings.nodes.filter MigratedNode.unresolved).map fun node => node.node.id)
          (readings.outcomes.filterMap EdgeOutcome.unmigrated?)
          (migrationIssuesOf lookup raw readings) := get_putParam _ _ _
  unfold GraphEnvelope.reported
  rw [h_get]
  exact ⟨rfl, rfl⟩

variable {rules : TextRules} {lookup : Option Lookup}

theorem storedEntry_of_migrateNode {rawNode : Value × ℕ} {node : MigratedNode}
    (h : migrateNode rules lookup rawNode = .ok node) :
    some node.node.id = storedEntry rawNode.1 "id" := by
  obtain ⟨data, h_data, h⟩ := Except.bind_eq_ok.mp h
  obtain ⟨nodeId, h_id, h⟩ := Except.bind_eq_ok.mp h
  obtain ⟨declared, -, rfl⟩ := Except.bind_pure_eq_ok.mp h
  rw [storedEntry, Except.ofOption_eq_ok.mp h_data]
  exact (Except.ofOption_eq_ok.mp h_id).symm

structure ReadsEdge (rawEdge : Value × ℕ) (stored : StoredEdge) : Prop where
  data : rawEdge.1 = .dict stored.data
  id : storedEdgeId rawEdge = some stored.id
  source : storedEntry rawEdge.1 "source" = some stored.source
  target : storedEntry rawEdge.1 "target" = some stored.target

theorem Value.eq_dict {value : Value} {members : Params} (h : value.dict? = some members) :
    value = .dict members := by
  unfold Value.dict? at h
  split at h
  · rw [Option.some.inj h]
  · cases h

variable {stored : StoredEdge}

theorem readsEdge {rawEdge : Value × ℕ} (h : readStoredEdge rawEdge = .ok stored) :
    ReadsEdge rawEdge stored := by
  obtain ⟨data, h_data, h⟩ := Except.bind_eq_ok.mp h
  obtain ⟨source, h_source, h⟩ := Except.bind_eq_ok.mp h
  obtain ⟨target, h_target, rfl⟩ := Except.bind_pure_eq_ok.mp h
  rw [Except.ofOption_eq_ok] at h_data h_source h_target
  have h_entry : ∀ key, storedEntry rawEdge.1 key = (data.get key).nonEmpty? := fun key => by
    rw [storedEntry, h_data]
    rfl
  refine
    { data := Value.eq_dict h_data, id := ?_, source := (h_entry _).trans h_source
      target := (h_entry _).trans h_target }
  rw [storedEdgeId, h_entry, h_entry, h_entry, h_source, h_target]
  cases (data.get "id").nonEmpty? <;> rfl

/-- What becomes of an edge keeps its id and ends, or all of it. -/
def Outcome (stored : StoredEdge) : EdgeOutcome → Prop
  | .migrated edge => edge.id = stored.id ∧ edge.source = stored.source ∧ edge.target = stored.target
  | .unmigrated data issue =>
    data = stored.data ∧ issue.severity = severityError ∧ issue.edgeId = some stored.id

theorem outcome_portAddress (source target : NodeSpec) (used : String → ℕ) (stored : StoredEdge) :
    Outcome stored (portAddress source target used stored) := by
  unfold portAddress
  split
  · exact ⟨rfl, rfl, rfl⟩
  · exact ⟨rfl, rfl, rfl⟩
  · exact ⟨rfl, rfl, rfl⟩
  · exact ⟨rfl, rfl, rfl⟩

theorem outcome_migrateEdge (nodesById : String → Option NodeSpec) (occupied : Occupied)
    (stored : StoredEdge) : Outcome stored (migrateEdge nodesById occupied stored) := by
  unfold migrateEdge
  split
  · exact outcome_portAddress _ _ _ _
  · exact ⟨rfl, rfl, rfl⟩
  · exact ⟨rfl, rfl, rfl⟩
  · exact ⟨rfl, rfl, rfl⟩

theorem outcomes_migrateEdges (nodesById : String → Option NodeSpec) (occupied : Occupied)
    (edges : List StoredEdge) :
    List.Forall₂ Outcome edges (migrateEdges nodesById occupied edges) := by
  induction edges generalizing occupied with
  | nil => exact .nil
  | cons stored rest ih => exact .cons (outcome_migrateEdge nodesById occupied stored) (ih _)

theorem forall₂_comp {α β γ : Type} {r : α → β → Prop} {s : β → γ → Prop} {t : α → γ → Prop}
    {l : List α} {m : List β} {n : List γ} (h : List.Forall₂ r l m) (h' : List.Forall₂ s m n)
    (h_comp : ∀ a b c, c ∈ n → r a b → s b c → t a c) : List.Forall₂ t l n := by
  induction h generalizing n with
  | nil =>
    cases h'
    exact .nil
  | cons h_head _ ih =>
    cases h' with
    | cons h_head' h_tail' =>
      refine .cons (h_comp _ _ _ List.mem_cons_self h_head h_head') (ih h_tail' ?_)
      intro a b c h_c
      exact h_comp a b c (List.mem_cons_of_mem _ h_c)

variable {readings : Readings}

theorem readV1_eq_ok {raw : Params} (h : readV1 rules lookup raw = .ok readings) :
    List.Forall₂ (fun rawNode node => migrateNode rules lookup rawNode = .ok node)
        (storedItems raw "nodes" "_nodes").zipIdx readings.nodes ∧
      List.Forall₂ (fun rawEdge stored => readStoredEdge rawEdge = .ok stored)
        (storedItems raw "edges" "_edges").zipIdx readings.edges := by
  obtain ⟨declared, -, h⟩ := Except.bind_eq_ok.mp h
  obtain ⟨-, -, h⟩ := Except.bind_eq_ok.mp h
  obtain ⟨rawNodes, h_rawNodes, h⟩ := Except.bind_eq_ok.mp h
  obtain ⟨nodes, h_nodes, h⟩ := Except.bind_eq_ok.mp h
  obtain ⟨rawEdges, h_rawEdges, h⟩ := Except.bind_eq_ok.mp h
  obtain ⟨edges, h_edges, rfl⟩ := Except.bind_pure_eq_ok.mp h
  rw [storedItems, storedItems, h_rawNodes, h_rawEdges]
  exact ⟨Except.forall₂_of_mapM_eq_ok h_nodes, Except.forall₂_of_mapM_eq_ok h_edges⟩

theorem keepsEverything {raw : Params} (h : readV1 rules lookup raw = .ok readings) :
    KeepsEverything raw (migratedGraph rules lookup raw readings) readings.outcomes := by
  obtain ⟨h_nodes, h_edges⟩ := readV1_eq_ok h
  obtain ⟨h_unmigrated, h_issues⟩ := reported_migratedGraph rules lookup raw readings
  refine { nodeIds := ?_, each := ?_, migrated := rfl, unmigrated := h_unmigrated }
  · have h_ids : ∀ {l : List (Value × ℕ)} {nodes : List MigratedNode},
        List.Forall₂ (fun rawNode node => migrateNode rules lookup rawNode = .ok node) l nodes →
        nodes.map (fun node => some node.node.id) = l.map fun rawNode => storedEntry rawNode.1 "id" := by
      intro l nodes h_forall
      induction h_forall with
      | nil => rfl
      | cons h_head _ ih => rw [List.map_cons, List.map_cons, storedEntry_of_migrateNode h_head, ih]
    have h_items : (storedItems raw "nodes" "_nodes").zipIdx.map
          (fun rawNode => storedEntry rawNode.1 "id")
        = (storedItems raw "nodes" "_nodes").map fun item => storedEntry item "id" := by
      conv_rhs => rw [← List.zipIdx_map_fst 0 (storedItems raw "nodes" "_nodes"), List.map_map]
      rfl
    rw [← h_items, ← h_ids h_nodes]
    unfold migratedGraph
    rw [List.map_map]
    rfl
  · refine forall₂_comp h_edges (outcomes_migrateEdges _ _ _) ?_
    intro rawEdge stored outcome h_outcome h_read h_kept
    have h_reads := readsEdge h_read
    cases outcome with
    | migrated edge =>
      obtain ⟨h_id, h_source, h_target⟩ := h_kept
      exact ⟨h_id ▸ h_reads.id, h_source ▸ h_reads.source, h_target ▸ h_reads.target⟩
    | unmigrated data issue =>
      obtain ⟨h_data, h_severity, h_id⟩ := h_kept
      refine ⟨h_data ▸ h_reads.data, h_severity, h_reads.id.trans h_id.symm, _, h_issues, ?_⟩
      refine List.mem_map_of_mem (List.mem_append_right _ ?_)
      exact List.mem_filterMap.mpr ⟨_, h_outcome, rfl⟩

/-! ## Where an edge is placed -/

def inputSlots (node : NodeSpec) : FirstFit Port String :=
  { slots := node.inputs, name := Port.name, shared := Port.variadic }

def namedPorts (edges : List StoredEdge) (target : String) : List String :=
  edges.filterMap fun stored => if stored.target = target then stored.targetPort else none

/-- Both ends are there and the source port is known, so the edge gets as far as its target. -/
def Placeable (nodesById : String → Option NodeSpec) (stored : StoredEdge) : Bool :=
  (nodesById stored.target).isSome && (nodesById stored.source).any fun source =>
    (namedOr stored.sourcePort (soleOutputPort source)).toOption.isSome

/-- What the edges into a node ask for: a port, or any. -/
def requestsInto (nodesById : String → Option NodeSpec) (target : String) (edges : List StoredEdge) :
    List (Option String) :=
  edges.filterMap fun stored =>
    if stored.target = target ∧ Placeable nodesById stored = true then some stored.targetPort else none

/-- An edge whose port was found is not on a port for one edge that another stored edge names. -/
def NoInventedConflict (readings : Readings) : Prop :=
  ∀ stored edge, (stored, EdgeOutcome.migrated edge) ∈ readings.edges.zip readings.outcomes →
    stored.targetPort = none →
      ∀ other ∈ readings.edges, other.target = edge.target → other.targetPort = some edge.targetPort →
        ∀ node, readings.nodesById edge.target = some node →
          ∀ port, portNamed node.inputs edge.targetPort = some port → port.variadic = true

/-- When an edge comes whose port has to be found, each port of its target for one edge that a
    stored edge names is named by a placed edge before it, or comes after enough other ports. -/
def LeavesRoom (readings : Readings) : Prop :=
  ∀ before stored after, readings.edges = before ++ stored :: after → stored.targetPort = none →
    Placeable readings.nodesById stored = true →
      ∀ node, readings.nodesById stored.target = some node →
        (inputSlots node).Room (namedPorts readings.edges stored.target)
          (requestsInto readings.nodesById stored.target before)

/-- Every block that the registry resolves has input ports of different names. -/
def DistinctInputs (lookup : Option Lookup) : Prop :=
  ∀ found ∈ lookup, ∀ blockId block, found blockId = .found block →
    (block.inputs.map Port.name).Nodup

variable {nodesById : String → Option NodeSpec}

/-- How many edges each port has after some edges. -/
def occupiedAfter (nodesById : String → Option NodeSpec) (edges : List StoredEdge) : Occupied :=
  edges.foldl (fun occupied stored => occupied.add (migrateEdge nodesById occupied stored))
    fun _ _ => 0

theorem occupiedAfter_append (before : List StoredEdge) (stored : StoredEdge) :
    occupiedAfter nodesById (before ++ [stored])
      = (occupiedAfter nodesById before).add
          (migrateEdge nodesById (occupiedAfter nodesById before) stored) := by
  rw [occupiedAfter, List.foldl_append]
  rfl

variable {occupied : Occupied} {edges : List StoredEdge}

theorem mem_zip_migrateEdges {outcome : EdgeOutcome} :
    (stored, outcome) ∈ edges.zip (migrateEdges nodesById occupied edges) ↔
      ∃ before after, edges = before ++ stored :: after ∧
        outcome = migrateEdge nodesById
          (before.foldl (fun occupied stored => occupied.add (migrateEdge nodesById occupied stored))
            occupied) stored := by
  induction edges generalizing occupied with
  | nil => simp [migrateEdges]
  | cons first rest ih =>
    rw [migrateEdges, List.zip_cons_cons, List.mem_cons, ih]
    constructor
    · rintro (h_first | ⟨before, after, rfl, rfl⟩)
      · obtain ⟨rfl, rfl⟩ := Prod.mk.inj h_first
        exact ⟨[], rest, rfl, rfl⟩
      · exact ⟨first :: before, after, rfl, rfl⟩
    · rintro ⟨before, after, h_edges, rfl⟩
      cases before with
      | nil =>
        obtain ⟨rfl, rfl⟩ := List.cons.inj h_edges
        exact .inl rfl
      | cons first' before =>
        obtain ⟨rfl, rfl⟩ := List.cons.inj h_edges
        exact .inr ⟨before, after, rfl, rfl⟩

theorem mem_zip_outcomes {outcome : EdgeOutcome} :
    (stored, outcome) ∈ readings.edges.zip readings.outcomes ↔
      ∃ before after, readings.edges = before ++ stored :: after ∧
        outcome = migrateEdge readings.nodesById (occupiedAfter readings.nodesById before) stored :=
  mem_zip_migrateEdges

theorem requestsInto_append (target : String) (before : List StoredEdge) (stored : StoredEdge) :
    requestsInto nodesById target (before ++ [stored]) = requestsInto nodesById target before ++
      if stored.target = target ∧ Placeable nodesById stored = true then [stored.targetPort] else [] := by
  rw [requestsInto, List.filterMap_append]
  split_ifs with h
  · rw [List.filterMap_cons_some (by rw [if_pos h])]
    rfl
  · rw [List.filterMap_cons_none (by rw [if_neg h])]
    rfl

variable {node : NodeSpec}

theorem nextFreeInputPort_eq {used : String → ℕ} {taken : List String}
    (h : ∀ port, used port = 0 ↔ port ∉ taken) :
    (nextFreeInputPort node used).toOption
      = ((inputSlots node).firstFree taken).map (inputSlots node).name := by
  have h_search : (node.inputs.find? fun port => port.variadic || used port.name = 0)
      = (inputSlots node).firstFree taken := by
    unfold FirstFit.firstFree inputSlots
    congr 1
    funext port
    simp only [h]
  unfold nextFreeInputPort
  rw [h_search]
  split_ifs with h_empty
  · have h_nil : node.inputs = [] := List.isEmpty_iff.mp h_empty
    simp [FirstFit.firstFree, inputSlots, h_nil, Except.toOption]
  · cases (inputSlots node).firstFree taken <;> rfl

theorem migrateEdge_of_placeable (h_node : nodesById stored.target = some node)
    (h_place : Placeable nodesById stored = true) {taken : List String}
    (h : ∀ port, occupied stored.target port = 0 ↔ port ∉ taken) :
    (migrateEdge nodesById occupied stored).edge?.map EdgeSpec.targetPort
      = (inputSlots node).placed taken stored.targetPort := by
  have h_free := @nextFreeInputPort_eq node _ _ h
  rw [Placeable, Bool.and_eq_true] at h_place
  obtain ⟨source, h_find, h_source⟩ : ∃ source, nodesById stored.source = some source ∧
      (namedOr stored.sourcePort (soleOutputPort source)).toOption.isSome = true := by
    cases h_find : nodesById stored.source with
    | none => simp [h_find] at h_place
    | some source =>
      rw [h_find, Option.any_some] at h_place
      exact ⟨source, rfl, h_place.2⟩
  rw [migrateEdge, h_find, h_node]
  dsimp only
  unfold portAddress
  cases h_out : namedOr stored.sourcePort (soleOutputPort source) with
  | error reason =>
    rw [h_out] at h_source
    cases h_source
  | ok sourcePort =>
    cases h_port : stored.targetPort with
    | some wanted => rfl
    | none =>
      rw [FirstFit.placed, namedOr, ← h_free]
      cases nextFreeInputPort node (occupied stored.target) <;> rfl

theorem migrateEdge_of_not_placeable (h : Placeable nodesById stored = false) :
    (migrateEdge nodesById occupied stored).edge? = none := by
  unfold migrateEdge
  cases h_source : nodesById stored.source with
  | none => cases nodesById stored.target <;> rfl
  | some source =>
    cases h_target : nodesById stored.target with
    | none => rfl
    | some target =>
      dsimp only
      unfold portAddress
      cases h_out : namedOr stored.sourcePort (soleOutputPort source) with
      | error reason => cases namedOr stored.targetPort (nextFreeInputPort target _) <;> rfl
      | ok sourcePort =>
        rw [Placeable, h_source, h_target] at h
        simp [h_out, Except.toOption] at h

theorem target_of_edge? {edge : EdgeSpec}
    (h : (migrateEdge nodesById occupied stored).edge? = some edge) :
    edge.target = stored.target := by
  have h_outcome := outcome_migrateEdge nodesById occupied stored
  cases h_migrated : migrateEdge nodesById occupied stored with
  | unmigrated data issue =>
    rw [h_migrated] at h
    cases h
  | migrated edge' =>
    rw [h_migrated] at h h_outcome
    cases h
    exact h_outcome.2.2

theorem Occupied.add_eq (occupied : Occupied) (outcome : EdgeOutcome) (target port : String) :
    occupied.add outcome target port = occupied target port +
      if outcome.edge?.any (fun edge => target = edge.target ∧ port = edge.targetPort) then 1 else 0 := by
  cases outcome with
  | unmigrated data issue => simp [Occupied.add, EdgeOutcome.edge?]
  | migrated edge =>
    unfold Occupied.add EdgeOutcome.edge?
    dsimp only
    split_ifs with h h' h' <;> simp_all

variable {target : String}

/-- The ports that have an edge are the ones that first fit has taken. -/
theorem occupiedAfter_eq_zero (h_node : nodesById target = some node) (edges : List StoredEdge)
    (port : String) :
    occupiedAfter nodesById edges target port = 0 ↔
      port ∉ (inputSlots node).taken (requestsInto nodesById target edges) := by
  induction edges using List.reverseRecOn generalizing port with
  | nil => simp [occupiedAfter, requestsInto]
  | append_singleton before stored ih =>
    rw [occupiedAfter_append, Occupied.add_eq, requestsInto_append]
    generalize h_outcome : migrateEdge nodesById (occupiedAfter nodesById before) stored = outcome
    by_cases h : stored.target = target ∧ Placeable nodesById stored = true
    · obtain ⟨rfl, h_place⟩ := h
      have h_port := migrateEdge_of_placeable h_node h_place ih
      rw [h_outcome] at h_port
      have h_request : (if stored.target = stored.target ∧ Placeable nodesById stored = true then
          [stored.targetPort] else []) = [stored.targetPort] := if_pos ⟨rfl, h_place⟩
      rw [h_request, FirstFit.taken_append, ← h_port]
      cases h_edge : outcome.edge? with
      | none => simpa using ih port
      | some edge =>
        rw [← h_outcome] at h_edge
        have h_target := target_of_edge? h_edge
        simp [ih, h_target]
    · rw [if_neg h, List.append_nil, ← ih port]
      have h_none : (outcome.edge?.any fun edge =>
          target = edge.target ∧ port = edge.targetPort) = false := by
        cases h_edge : outcome.edge? with
        | none => rfl
        | some edge =>
          rw [← h_outcome] at h_edge
          have h_target := target_of_edge? h_edge
          have h_place : Placeable nodesById stored = true := by
            by_contra h_not
            rw [migrateEdge_of_not_placeable (Bool.eq_false_iff.mpr h_not)] at h_edge
            cases h_edge
          have h_ne : target ≠ edge.target := fun h_eq => h ⟨by rw [← h_target, h_eq], h_place⟩
          simp [h_ne]
      rw [h_none]
      simp

/-! ## Conflicts -/

theorem requestsInto_eq_append_iff {requests : List (Option String)} :
    (∃ later, requestsInto nodesById target edges = requests ++ none :: later) ↔
      ∃ before stored after, edges = before ++ stored :: after ∧ stored.target = target ∧
        Placeable nodesById stored = true ∧ stored.targetPort = none ∧
          requestsInto nodesById target before = requests := by
  constructor
  · rintro ⟨later, h⟩
    obtain ⟨l₁, l₂, rfl, h_requests, h⟩ := List.filterMap_eq_append_iff.mp h
    obtain ⟨l₃, stored, after, rfl, h_none, h_stored, -⟩ := List.filterMap_eq_cons_iff.mp h
    split_ifs at h_stored with h_into
    refine ⟨l₁ ++ l₃, stored, after, (List.append_assoc _ _ _).symm, h_into.1, h_into.2,
      Option.some.inj h_stored, ?_⟩
    rw [requestsInto, List.filterMap_append, List.filterMap_eq_nil_iff.mpr h_none, List.append_nil]
    exact h_requests
  · rintro ⟨before, stored, after, rfl, h_target, h_place, h_port, rfl⟩
    refine ⟨requestsInto nodesById target after, ?_⟩
    rw [requestsInto, List.filterMap_append,
      List.filterMap_cons_some (by rw [if_pos ⟨h_target, h_place⟩, h_port])]
    rfl

theorem mem_namedPorts {port : String} :
    port ∈ namedPorts edges target ↔
      ∃ other ∈ edges, other.target = target ∧ other.targetPort = some port := by
  constructor
  · intro h
    obtain ⟨other, h_other, h_port⟩ := List.mem_filterMap.mp h
    split_ifs at h_port with h_target
    exact ⟨other, h_other, h_target, h_port⟩
  · rintro ⟨other, h_other, h_target, h_port⟩
    exact List.mem_filterMap.mpr ⟨other, h_other, by rw [if_pos h_target, h_port]⟩

theorem namesReserved_requestsInto (edges : List StoredEdge) (target : String) :
    FirstFit.NamesReserved (namedPorts edges target) (requestsInto nodesById target edges) := by
  intro wanted h_wanted
  obtain ⟨stored, h_stored, h_port⟩ := List.mem_filterMap.mp h_wanted
  split_ifs at h_port with h_into
  exact mem_namedPorts.mpr ⟨stored, h_stored, h_into.1, Option.some.inj h_port⟩

/-- No node was served a port that a stored edge names. -/
def CleanInputs (readings : Readings) : Prop :=
  ∀ target node, readings.nodesById target = some node →
    (inputSlots node).Clean (namedPorts readings.edges target)
      (requestsInto readings.nodesById target readings.edges)

theorem leavesRoom_iff
    (h_distinct : ∀ target node, readings.nodesById target = some node → (node.inputs.map Port.name).Nodup) :
    CleanInputs readings ↔ LeavesRoom readings := by
  have h_clean : CleanInputs readings ↔ ∀ target node, readings.nodesById target = some node →
      ∀ requests later, requestsInto readings.nodesById target readings.edges
          = requests ++ none :: later →
        (inputSlots node).Room (namedPorts readings.edges target) requests :=
    forall₂_congr fun target node => forall_congr' fun h_node =>
      FirstFit.clean_iff (h_distinct target node h_node) (namesReserved_requestsInto _ _)
  rw [h_clean]
  constructor
  · intro h before stored after h_edges h_port h_place node h_node
    obtain ⟨later, h_later⟩ := (@requestsInto_eq_append_iff readings.nodesById readings.edges
      stored.target (requestsInto readings.nodesById stored.target before)).mpr
      ⟨before, stored, after, h_edges, rfl, h_place, h_port, rfl⟩
    exact h stored.target node h_node _ later h_later
  · intro h target node h_node requests later h_later
    obtain ⟨before, stored, after, h_edges, rfl, h_place, h_port, rfl⟩ :=
      requestsInto_eq_append_iff.mp ⟨later, h_later⟩
    exact h before stored after h_edges h_port h_place node h_node

theorem portNamed_eq_some {ports : List Port} {name : String} {port : Port}
    (h : portNamed ports name = some port) : port ∈ ports ∧ port.name = name := by
  unfold portNamed at h
  have h_name := List.find?_some h
  exact ⟨List.mem_of_find?_eq_some h, of_decide_eq_true h_name⟩

theorem portNamed_of_mem {ports : List Port} (h_nodup : (ports.map Port.name).Nodup) {port : Port}
    (h : port ∈ ports) : portNamed ports port.name = some port := by
  cases h_find : portNamed ports port.name with
  | none =>
    have h_none := List.find?_eq_none.mp h_find port h
    simp at h_none
  | some found =>
    obtain ⟨h_found, h_name⟩ := portNamed_eq_some h_find
    rw [List.inj_on_of_nodup_map h_nodup h_found h h_name]

theorem noInventedConflict_iff
    (h_distinct : ∀ target node, readings.nodesById target = some node → (node.inputs.map Port.name).Nodup) :
    NoInventedConflict readings ↔ CleanInputs readings := by
  constructor
  · intro h target node h_node requests later h_later h_serves
    obtain ⟨before, stored, after, h_edges, rfl, h_place, h_port, rfl⟩ :=
      requestsInto_eq_append_iff.mp ⟨later, h_later⟩
    obtain ⟨slot, h_free, h_single, h_named⟩ := h_serves
    -- the edge ends at the slot that first fit serves
    have h_ends := migrateEdge_of_placeable h_node h_place
      (fun port => occupiedAfter_eq_zero h_node before port)
    rw [h_port, FirstFit.placed, h_free, Option.map_some] at h_ends
    obtain ⟨edge, h_edge, h_at⟩ := Option.map_eq_some_iff.mp h_ends
    have h_target := target_of_edge? h_edge
    have h_outcome : (stored, EdgeOutcome.migrated edge) ∈ readings.edges.zip readings.outcomes := by
      refine mem_zip_outcomes.mpr ⟨before, after, h_edges, ?_⟩
      revert h_edge
      cases migrateEdge readings.nodesById (occupiedAfter readings.nodesById before) stored with
      | migrated edge' => exact fun h_eq => by rw [Option.some.inj h_eq]
      | unmigrated data issue => exact fun h_eq => by cases h_eq
    obtain ⟨other, h_other, h_into, h_wanted⟩ := mem_namedPorts.mp h_named
    have h_slot : slot ∈ node.inputs := List.mem_of_find?_eq_some h_free
    have h_found := portNamed_of_mem (h_distinct stored.target node h_node) h_slot
    have h_shared := h stored edge h_outcome h_port other h_other (h_into.trans h_target.symm)
      (h_wanted.trans (congrArg some h_at.symm)) node (h_target ▸ h_node) slot (h_at ▸ h_found)
    exact Bool.false_ne_true (h_single.symm.trans h_shared)
  · intro h stored edge h_zip h_port other h_other h_into h_wanted node h_node port h_found
    obtain ⟨before, after, h_edges, h_outcome⟩ := mem_zip_outcomes.mp h_zip
    have h_edge : (migrateEdge readings.nodesById (occupiedAfter readings.nodesById before)
        stored).edge? = some edge := by rw [← h_outcome]; rfl
    have h_target := target_of_edge? h_edge
    rw [h_target] at h_node h_into
    have h_place : Placeable readings.nodesById stored = true := by
      by_contra h_not
      rw [migrateEdge_of_not_placeable (Bool.eq_false_iff.mpr h_not)] at h_edge
      cases h_edge
    have h_ends := migrateEdge_of_placeable h_node h_place
      (fun port => occupiedAfter_eq_zero h_node before port)
    rw [h_edge, h_port, FirstFit.placed, Option.map_some] at h_ends
    obtain ⟨slot, h_free, h_at⟩ := Option.map_eq_some_iff.mp h_ends.symm
    obtain ⟨h_mem, h_name⟩ := portNamed_eq_some h_found
    have h_slot : slot ∈ node.inputs := List.mem_of_find?_eq_some h_free
    have h_same : slot = port := List.inj_on_of_nodup_map (h_distinct stored.target node h_node)
      h_slot h_mem (h_at.trans h_name.symm)
    by_contra h_single
    obtain ⟨later, h_later⟩ := (@requestsInto_eq_append_iff readings.nodesById readings.edges
      stored.target (requestsInto readings.nodesById stored.target before)).mpr
      ⟨before, stored, after, h_edges, rfl, h_place, h_port, rfl⟩
    refine h stored.target node h_node _ later h_later ⟨slot, h_free, ?_, ?_⟩
    · exact h_same ▸ Bool.eq_false_iff.mpr h_single
    · exact mem_namedPorts.mpr ⟨other, h_other, h_into, h_wanted.trans (congrArg some h_at.symm)⟩

/-! ## The law -/

theorem inputs_of_migrateNode (h_inputs : DistinctInputs lookup) {rawNode : Value × ℕ}
    {node : MigratedNode} (h : migrateNode rules lookup rawNode = .ok node) :
    (node.node.inputs.map Port.name).Nodup := by
  obtain ⟨data, -, h⟩ := Except.bind_eq_ok.mp h
  obtain ⟨nodeId, -, h⟩ := Except.bind_eq_ok.mp h
  obtain ⟨declared, -, rfl⟩ := Except.bind_pure_eq_ok.mp h
  unfold assembleNode
  dsimp only
  cases h_named : legacyBlockId rules data (mapLegacyType rules (storedType data)) with
  | none => exact List.nodup_nil
  | some named =>
    cases lookup with
    | none => exact List.nodup_nil
    | some found =>
      unfold readBlock lookupDescriptor
      dsimp only
      cases h_first : found named with
      | raised => exact List.nodup_nil
      | found block => exact h_inputs found rfl named block h_first
      | unknown =>
        dsimp only
        cases h_second : found (rules.lower (strip named)) with
        | raised => exact List.nodup_nil
        | unknown => exact List.nodup_nil
        | found block => exact h_inputs found rfl _ block h_second

/-- A payload that is migrated keeps every node and edge, and no port that was found for an
    edge is in the way of a stored one exactly where the stored order leaves room. -/
theorem migration_law_iff (rules : TextRules) (lookup : Option Lookup)
    (h_inputs : DistinctInputs lookup) (value : Value) (envelope : GraphEnvelope)
    (h : migrateV1ToV2 rules lookup value = .ok envelope) :
    ∃ raw readings, value = .dict raw ∧ readV1 rules lookup raw = .ok readings ∧
      KeepsEverything raw envelope readings.outcomes ∧
        (NoInventedConflict readings ↔ LeavesRoom readings) := by
  obtain ⟨raw, h_raw, h⟩ := Except.bind_eq_ok.mp h
  obtain ⟨readings, h_read, rfl⟩ := Except.bind_pure_eq_ok.mp h
  rw [Except.ofOption_eq_ok] at h_raw
  refine ⟨raw, readings, Value.eq_dict h_raw, h_read, keepsEverything h_read, ?_⟩
  have h_distinct : ∀ target node, readings.nodesById target = some node →
      (node.inputs.map Port.name).Nodup := by
    intro target node h_node
    obtain ⟨migrated, h_migrated, rfl⟩ := List.mem_map.mp (List.mem_of_find?_eq_some h_node)
    obtain ⟨rawNode, -, h_rawNode⟩ := exists_of_mem_forall₂ (readV1_eq_ok h_read).1.flip h_migrated
    exact inputs_of_migrateNode h_inputs h_rawNode
  rw [noInventedConflict_iff h_distinct]
  exact leavesRoom_iff h_distinct

/-! ## An order that leaves no room -/

def plainPort (name : String) : Port :=
  { name := name, type := .PRICE_SERIES, required := true, variadic := false, description := "" }

/-- A source of prices, and the spread of two of them. -/
def spreadLookup : Lookup := fun blockId =>
  if blockId = "feed" then .found {
    blockId := some "feed", category := some .DATA, inputs := [], outputs := [plainPort "value"] }
  else if blockId = "spread" then .found {
    blockId := some "spread", category := some .MATH
    inputs := [plainPort "left", plainPort "right"], outputs := [plainPort "value"] }
  else .unknown

def storedNode (nodeId block : String) : Value :=
  .dict [("id", .text nodeId), ("type", .text "indicator"), ("indicator", .text block)]

/-- The first edge names no port, the second one the left. -/
def crossedPayload : Value :=
  .dict [("schema_version", .scalar (.int 1)),
    ("nodes", .list [storedNode "a" "feed", storedNode "b" "feed", storedNode "c" "spread"]),
    ("edges", .list [
      .dict [("id", .text "e1"), ("source", .text "a"), ("target", .text "c")],
      .dict [("id", .text "e2"), ("source", .text "b"), ("target", .text "c"),
        ("target_port", .text "left")]])]

theorem distinctInputs_spreadLookup : DistinctInputs (some spreadLookup) := by
  intro found h_found blockId block h
  cases h_found
  unfold spreadLookup at h
  split_ifs at h
  · cases h
    exact List.nodup_nil
  · cases h
    decide

theorem migration_law_iff_sample :
    ∃ envelope, migrateV1ToV2 asciiRules (some spreadLookup) crossedPayload = .ok envelope ∧
      ∃ raw readings, crossedPayload = .dict raw ∧
        readV1 asciiRules (some spreadLookup) raw = .ok readings ∧
        KeepsEverything raw envelope readings.outcomes ∧
          (NoInventedConflict readings ↔ LeavesRoom readings) := by
  have h_some : (migrateV1ToV2 asciiRules (some spreadLookup) crossedPayload).toOption.isSome
      = true := by decide +kernel
  cases h : migrateV1ToV2 asciiRules (some spreadLookup) crossedPayload with
  | error e =>
    rw [h] at h_some
    cases h_some
  | ok envelope =>
    exact ⟨envelope, rfl, migration_law_iff asciiRules (some spreadLookup)
      distinctInputs_spreadLookup crossedPayload envelope h⟩

/-- Both edges end at the left port, which takes one. -/
def Crossed (readings : Readings) : Bool :=
  ((readings.edges.zip readings.outcomes).any fun pair =>
    pair.1.targetPort = none && pair.2.edge?.any fun edge =>
      edge.target = "c" && edge.targetPort = "left") &&
  (readings.edges.any fun other => other.target = "c" && other.targetPort = some "left") &&
  ((readings.nodesById "c").bind fun node => portNamed node.inputs "left").any fun port =>
    !port.variadic

theorem not_noInventedConflict_of_crossed (h : Crossed readings = true) :
    ¬ NoInventedConflict readings := by
  intro h_none
  simp only [Crossed, Bool.and_eq_true, List.any_eq_true, decide_eq_true_eq] at h
  obtain ⟨⟨⟨⟨stored, outcome⟩, h_zip, h_port, h_edge⟩, other, h_other, h_into, h_wanted⟩, h_single⟩ := h
  cases outcome with
  | unmigrated data issue => cases h_edge
  | migrated edge =>
    simp only [EdgeOutcome.edge?, Option.any_some, Bool.and_eq_true, decide_eq_true_eq] at h_edge
    obtain ⟨h_target, h_at⟩ := h_edge
    cases h_node : readings.nodesById "c" with
    | none =>
      rw [h_node] at h_single
      cases h_single
    | some node =>
      cases h_found : portNamed node.inputs "left" with
      | none =>
        rw [h_node, Option.bind_some, h_found] at h_single
        cases h_single
      | some port =>
        rw [h_node, Option.bind_some, h_found, Option.any_some, Bool.not_eq_true'] at h_single
        have h_shared := h_none stored edge h_zip h_port other h_other
          (by rw [h_into, h_target]) (by rw [h_wanted, h_at]) node (by rw [h_target, h_node]) port
          (by rw [h_at, h_found])
        rw [h_single] at h_shared
        cases h_shared

/-- An edge stored before the one that names its port is put on the same port. -/
theorem migration_invents_conflict :
    ¬ ∀ rules lookup, DistinctInputs lookup → ∀ raw readings,
      readV1 rules lookup raw = .ok readings → NoInventedConflict readings := by
  intro h
  have h_crossed : (readV1 asciiRules (some spreadLookup)
      (crossedPayload.dict?.getD [])).toOption.any Crossed = true := by decide +kernel
  cases h_read : readV1 asciiRules (some spreadLookup) (crossedPayload.dict?.getD []) with
  | error e =>
    rw [h_read] at h_crossed
    cases h_crossed
  | ok readings =>
    rw [h_read] at h_crossed
    exact not_noInventedConflict_of_crossed h_crossed
      (h asciiRules (some spreadLookup) distinctInputs_spreadLookup _ readings h_read)

end VyomQuant.StrategyDag
