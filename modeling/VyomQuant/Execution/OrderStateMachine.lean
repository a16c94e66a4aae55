/-
  VyomQuant.Execution.OrderStateMachine

  The order state machine: transitions checked against a table from the stored state of the
  execution, the convenience transitions, and the bounded memory of states and histories.

  A failure and a cancellation are forced, so they are recorded after a terminal state too,
  and an execution that was evicted starts again from the state its caller claims.  Apart
  from these, what is recorded for one execution is a chain of allowed steps that ends in
  its terminal state (`recordsChains_run`).
-/

import VyomQuant.Lib.Recency
import Mathlib.Data.List.Chain
import Mathlib.Data.Rat.Defs

namespace VyomQuant.OrderTransitions

open Recency

inductive OrderState where
  | created
  | submitted
  | pending
  | partiallyFilled
  | filled
  | failed
  | cancelled
  | rejected
  deriving DecidableEq

namespace OrderState

def value : OrderState → String
  | created => "created"
  | submitted => "submitted"
  | pending => "pending"
  | partiallyFilled => "partially_filled"
  | filled => "filled"
  | failed => "failed"
  | cancelled => "cancelled"
  | rejected => "rejected"

def isTerminal (s : OrderState) : Bool := s ∈ [filled, failed, cancelled, rejected]

end OrderState

open OrderState

def VALID_TRANSITIONS : OrderState → List OrderState
  | created => [submitted, failed, cancelled]
  | submitted => [pending, filled, partiallyFilled, failed, rejected, cancelled]
  | pending => [partiallyFilled, filled, cancelled, failed, rejected]
  | partiallyFilled => [filled, cancelled, failed]
  | filled => []
  | failed => []
  | cancelled => []
  | rejected => []

/-- A value of the `metadata` dictionaries. -/
inductive MetadataValue where
  | none
  | str (value : String)
  | number (value : ℚ)

abbrev Metadata := List (String × MetadataValue)

/-- An optional text as it stands in a metadata dictionary. -/
def MetadataValue.ofOption : Option String → MetadataValue
  | .none => .none
  | .some value => .str value

variable {τ : Type}

structure StateTransition (τ : Type) where
  executionId : String
  fromState : OrderState
  toState : OrderState
  timestamp : τ
  reason : Option String
  metadata : Option Metadata

/-- The two ordered dictionaries, oldest entry first. -/
structure OrderStateMachine (τ : Type) where
  maxHistoryEntries : ℕ
  transitionHistory : List (String × List (StateTransition τ))
  currentStates : List (String × OrderState)

structure InvalidStateTransitionError where
  message : String

def OrderStateMachine.new (maxHistoryEntries : ℕ) : OrderStateMachine τ :=
  ⟨maxHistoryEntries, [], []⟩

def canTransition (fromState toState : OrderState) : Bool :=
  if fromState.isTerminal then false else toState ∈ VALID_TRANSITIONS fromState

/-- The loop that enforces the memory bound: the histories go with their states. -/
def enforceBounds (maxHistoryEntries : ℕ) :
    List (String × OrderState) → List (String × List (StateTransition τ)) →
      List (String × OrderState) × List (String × List (StateTransition τ))
  | [], histories => ([], histories)
  | oldest :: rest, histories =>
    if maxHistoryEntries < (oldest :: rest).length then
      enforceBounds maxHistoryEntries rest (histories.filter fun h => h.1 ≠ oldest.1)
    else (oldest :: rest, histories)

/-- Everything but the hooks, whose failures are logged and whose results are not read. -/
def transition (machine : OrderStateMachine τ) (executionId : String)
    (fromState toState : OrderState) (reason : Option String) (metadata : Option Metadata)
    (force : Bool) (utcnow : τ) :
    Except InvalidStateTransitionError (OrderStateMachine τ × StateTransition τ) :=
  -- The stored state is the source of truth; the claimed one counts when there is none.
  let fromState := (machine.currentStates.lookup executionId).getD fromState
  if !force && !canTransition fromState toState then
    .error ⟨s!"Invalid transition for {executionId}: {fromState.value} -> {toState.value}"⟩
  else
    let record : StateTransition τ := ⟨executionId, fromState, toState, utcnow, reason, metadata⟩
    let currentStates := touch machine.currentStates (executionId, toState)
    let history := (machine.transitionHistory.lookup executionId).getD [] ++ [record]
    let transitionHistory := touch machine.transitionHistory (executionId, history)
    let bounded := enforceBounds machine.maxHistoryEntries currentStates transitionHistory
    .ok (⟨machine.maxHistoryEntries, bounded.2, bounded.1⟩, record)

/-! ## The calls -/

/-- A call of `transition` without `force`, or of a convenience transition. -/
inductive Call where
  | transition (executionId : String) (fromState toState : OrderState)
      (reason : Option String := none) (metadata : Option Metadata := none)
  | createdToSubmitted (executionId : String) (exchangeOrderId : Option String := none)
      (reason : String := "Order submitted to exchange")
  | submittedToPending (executionId exchangeOrderId : String)
      (reason : String := "Order acknowledged by exchange")
  | toFilled (executionId : String) (filledSize avgPrice : ℚ) (exchangeOrderId : String)
      (reason : String := "Order completely filled")
  | toPartialFill (executionId : String) (filledSize remainingSize avgPrice : ℚ)
      (exchangeOrderId : String) (reason : String := "Order partially filled")
  | toFailed (executionId errorMessage : String) (errorCode : Option String := none)
      (reason : String := "Order failed")
  | toCancelled (executionId : String) (cancelledBy : String := "system")
      (reason : String := "Order cancelled")

/-- Where `transition_to_filled` says that it comes from. -/
def filledFrom (currentState : Option OrderState) : OrderState :=
  if currentState = some partiallyFilled then partiallyFilled
  else if currentState = some pending then pending
  else if currentState = some submitted then submitted
  else currentState.getD submitted

/-- Where `transition_to_partial_fill` says that it comes from. -/
def partialFillFrom (currentState : Option OrderState) : OrderState :=
  if currentState = some pending then pending
  else if currentState = some submitted then submitted
  else currentState.getD submitted

def perform (machine : OrderStateMachine τ) (utcnow : τ) :
    Call → Except InvalidStateTransitionError (OrderStateMachine τ × StateTransition τ)
  | .transition executionId fromState toState reason metadata =>
    transition machine executionId fromState toState reason metadata false utcnow
  | .createdToSubmitted executionId exchangeOrderId reason =>
    transition machine executionId created submitted reason
      (some [("exchange_order_id", .ofOption exchangeOrderId)]) false utcnow
  | .submittedToPending executionId exchangeOrderId reason =>
    transition machine executionId submitted pending reason
      (some [("exchange_order_id", .str exchangeOrderId)]) false utcnow
  | .toFilled executionId filledSize avgPrice exchangeOrderId reason =>
    let currentState := machine.currentStates.lookup executionId
    transition machine executionId (filledFrom currentState) filled reason
      (some [("filled_size", .number filledSize), ("avg_price", .number avgPrice),
        ("exchange_order_id", .str exchangeOrderId)]) false utcnow
  | .toPartialFill executionId filledSize remainingSize avgPrice exchangeOrderId reason =>
    let currentState := machine.currentStates.lookup executionId
    transition machine executionId (partialFillFrom currentState) partiallyFilled reason
      (some [("filled_size", .number filledSize), ("remaining_size", .number remainingSize),
        ("avg_price", .number avgPrice), ("exchange_order_id", .str exchangeOrderId)])
      false utcnow
  | .toFailed executionId errorMessage errorCode reason =>
    let currentState := (machine.currentStates.lookup executionId).getD created
    transition machine executionId currentState failed reason
      (some [("error_message", .str errorMessage), ("error_code", .ofOption errorCode)])
      true utcnow
  | .toCancelled executionId cancelledBy reason =>
    let currentState := (machine.currentStates.lookup executionId).getD created
    transition machine executionId currentState cancelled reason
      (some [("cancelled_by", .str cancelledBy)]) true utcnow

/-- The calls that pass `force=True`. -/
def Call.forces : Call → Bool
  | .toFailed .. | .toCancelled .. => true
  | _ => false

/-! ## Runs -/

/-- A recorded transition with the call that recorded it. -/
structure Entry (τ : Type) where
  call : Call
  record : StateTransition τ

/-- The machine with everything it ever recorded. -/
structure Run (τ : Type) where
  machine : OrderStateMachine τ
  log : List (Entry τ)

/-- One call; a refused one changes nothing. -/
def step (run : Run τ) (call : Call × τ) : Run τ :=
  match perform run.machine call.2 call.1 with
  | .ok (machine, record) => ⟨machine, run.log ++ [⟨call.1, record⟩]⟩
  | .error _ => run

def run (maxHistoryEntries : ℕ) (calls : List (Call × τ)) : Run τ :=
  calls.foldl step ⟨.new maxHistoryEntries, []⟩

/-! ## What is recorded -/

/-- A step that a failure or a cancellation forces out of a terminal state. -/
def Entry.Forced (entry : Entry τ) : Prop :=
  entry.call.forces = true ∧ entry.record.fromState.isTerminal = true ∧
    (entry.record.toState = failed ∨ entry.record.toState = cancelled)

/-- Each transition starts where the one before it ended. -/
def IsChain (records : List (StateTransition τ)) : Prop :=
  records.IsChain fun r s => s.fromState = r.toState

/-- The transitions that a log holds for one execution. -/
def recordsOf (executionId : String) (log : List (Entry τ)) : List (StateTransition τ) :=
  (log.map Entry.record).filter fun r => r.executionId = executionId

/-- The property as it stands, of everything that was ever recorded. -/
def ChainsEndInTerminal (log : List (Entry τ)) : Prop :=
  ∀ executionId, IsChain (recordsOf executionId log) ∧
    (∀ r ∈ recordsOf executionId log, r.toState ∈ VALID_TRANSITIONS r.fromState) ∧
    ∀ before r after, recordsOf executionId log = before ++ r :: after →
      r.toState.isTerminal = true → after = []

/-- What the recorded transitions keep to. -/
structure RecordsChains (run : Run τ) : Prop where
  /-- Every step is allowed, or forced out of a terminal state. -/
  allowed : ∀ entry ∈ run.log,
    entry.record.toState ∈ VALID_TRANSITIONS entry.record.fromState ∨ entry.Forced
  /-- Two consecutive transitions of one execution are linked, and nothing unforced follows a
      terminal state, unless as many other executions as the bound were recorded between. -/
  linked : ∀ before first between second after,
    run.log = before ++ first :: (between ++ second :: after) →
    first.record.executionId = second.record.executionId →
    (∀ entry ∈ between, entry.record.executionId ≠ first.record.executionId) →
    (between.map fun entry => entry.record.executionId).dedup.length <
      run.machine.maxHistoryEntries →
    second.record.fromState = first.record.toState ∧
      (first.record.toState.isTerminal = true → second.Forced)
  /-- The history of an execution that is remembered is a chain that ends in its state, and
      it is the last of what was recorded for it. -/
  stored : ∀ executionId state,
    run.machine.currentStates.lookup executionId = some state →
    ∃ history, run.machine.transitionHistory.lookup executionId = some history ∧
      IsChain history ∧ history.getLast?.map StateTransition.toState = some state ∧
      history <:+ recordsOf executionId run.log
  bounded : run.machine.currentStates.length ≤ run.machine.maxHistoryEntries

/-! ## One transition -/

theorem not_mem_of_isTerminal {s : OrderState} (h : s.isTerminal = true) (t : OrderState) :
    t ∉ VALID_TRANSITIONS s := by
  cases s <;> simp_all [isTerminal, VALID_TRANSITIONS]

theorem canTransition_iff {s t : OrderState} :
    canTransition s t = true ↔ t ∈ VALID_TRANSITIONS s := by
  unfold canTransition
  split
  · rename_i h_terminal
    simpa using not_mem_of_isTerminal h_terminal t
  · exact decide_eq_true_iff

theorem enforceBounds_fst (n : ℕ) (states : List (String × OrderState))
    (histories : List (String × List (StateTransition τ))) :
    (enforceBounds n states histories).1 = evict n states := by
  induction states generalizing histories with
  | nil => rfl
  | cons oldest rest ih =>
    unfold enforceBounds evict
    split
    · exact ih _
    · rfl

theorem enforceBounds_snd (n : ℕ) {states : List (String × OrderState)}
    {histories : List (String × List (StateTransition τ))}
    (h_nodup : (states.map Prod.fst).Nodup)
    (h_keys : histories.map Prod.fst = states.map Prod.fst) :
    (enforceBounds n states histories).2 = evict n histories := by
  induction states generalizing histories with
  | nil =>
    obtain rfl := List.map_eq_nil_iff.mp h_keys
    rfl
  | cons oldest rest ih =>
    cases histories with
    | nil => cases h_keys
    | cons first others =>
      rw [List.map_cons, List.map_cons, List.cons.injEq] at h_keys
      rw [List.map_cons, List.nodup_cons] at h_nodup
      have h_others : others.filter (fun h => h.1 ≠ oldest.1) = others := by
        refine List.filter_eq_self.mpr fun h h_mem => ?_
        have h_key : h.1 ∈ rest.map Prod.fst := h_keys.2 ▸ List.mem_map_of_mem h_mem
        simpa using ne_of_mem_of_not_mem h_key h_nodup.1
      have h_len : others.length = rest.length := by
        simpa using congrArg List.length h_keys.2
      unfold enforceBounds evict
      rw [List.filter_cons_of_neg (by simp [h_keys.1]), h_others, List.length_cons,
        List.length_cons, h_len]
      split
      · exact ih h_nodup.2 h_keys.2
      · rfl

structure Recorded (machine machine' : OrderStateMachine τ) (force : Bool)
    (record : StateTransition τ) : Prop where
  allowed : record.toState ∈ VALID_TRANSITIONS record.fromState ∨ force = true
  source : ∀ state, machine.currentStates.lookup record.executionId = some state →
    record.fromState = state
  capacity : machine'.maxHistoryEntries = machine.maxHistoryEntries
  states : machine'.currentStates = evict machine.maxHistoryEntries
    (touch machine.currentStates (record.executionId, record.toState))
  histories : machine'.transitionHistory = (enforceBounds machine.maxHistoryEntries
    (touch machine.currentStates (record.executionId, record.toState))
    (touch machine.transitionHistory (record.executionId,
      (machine.transitionHistory.lookup record.executionId).getD [] ++ [record]))).2

variable {machine' : OrderStateMachine τ} {executionId : String} {record : StateTransition τ}

theorem recorded_of_transition {machine : OrderStateMachine τ} {fromState toState : OrderState}
    {reason : Option String} {metadata : Option Metadata} {force : Bool} {utcnow : τ}
    (h : transition machine executionId fromState toState reason metadata force utcnow = .ok (machine', record)) :
    record.toState = toState ∧ Recorded machine machine' force record := by
  unfold transition at h
  dsimp only at h
  split at h
  · cases h
  · rename_i h_checked
    rw [Except.ok.injEq, Prod.mk.injEq] at h
    obtain ⟨rfl, rfl⟩ := h
    refine ⟨rfl, ?_, ?_, rfl, enforceBounds_fst _ _ _, rfl⟩
    · cases force with
      | true => exact Or.inr rfl
      | false => exact Or.inl (canTransition_iff.mp (by simpa using h_checked))
    · intro state h_state
      simp only at h_state
      rw [h_state]
      rfl

theorem recorded_of_perform {machine : OrderStateMachine τ} {utcnow : τ} {call : Call}
    (h : perform machine utcnow call = .ok (machine', record)) :
    Recorded machine machine' call.forces record ∧
      (call.forces = true → record.toState = failed ∨ record.toState = cancelled) := by
  cases call with
  | toFailed =>
    simp only [perform] at h
    obtain ⟨h_to, h_recorded⟩ := recorded_of_transition h
    exact ⟨h_recorded, fun _ => Or.inl h_to⟩
  | toCancelled =>
    simp only [perform] at h
    obtain ⟨h_to, h_recorded⟩ := recorded_of_transition h
    exact ⟨h_recorded, fun _ => Or.inr h_to⟩
  | _ => exact ⟨(recorded_of_transition h).2, fun h_forces => Bool.noConfusion h_forces⟩

/-- A step that the table does not allow was forced out of a terminal state: the table allows
    a failure and a cancellation from every other state. -/
theorem Recorded.allowed_or_forced {machine : OrderStateMachine τ} {call : Call}
    (h : Recorded machine machine' call.forces record)
    (h_target : call.forces = true → record.toState = failed ∨ record.toState = cancelled) :
    record.toState ∈ VALID_TRANSITIONS record.fromState ∨ (Entry.mk call record).Forced := by
  rcases h.allowed with h_allowed | h_forces
  · exact Or.inl h_allowed
  · cases h_terminal : record.fromState.isTerminal with
    | true => exact Or.inr ⟨h_forces, h_terminal, h_target h_forces⟩
    | false =>
      refine Or.inl ?_
      rcases h_target h_forces with h_to | h_to <;> rw [h_to] <;>
        cases h_from : record.fromState <;> simp_all [isTerminal, VALID_TRANSITIONS]

/-! ## The invariant of a run -/

/-- What an entry assigns in the table of current states. -/
def assignment (entry : Entry τ) : String × OrderState :=
  (entry.record.executionId, entry.record.toState)

/-- The machine holds the end of the table of everything that was recorded. -/
structure Inv (run : Run τ) : Prop where
  states : run.machine.currentStates =
    evict run.machine.maxHistoryEntries (recent (run.log.map assignment))
  keys : run.machine.transitionHistory.map Prod.fst = run.machine.currentStates.map Prod.fst
  stored : ∀ h ∈ run.machine.transitionHistory,
    IsChain h.2 ∧ h.2.getLast?.map StateTransition.toState =
      run.machine.currentStates.lookup h.1 ∧ h.2 <:+ recordsOf h.1 run.log

theorem recordsOf_append_self (log : List (Entry τ)) (entry : Entry τ) :
    recordsOf entry.record.executionId (log ++ [entry]) =
      recordsOf entry.record.executionId log ++ [entry.record] := by
  simp [recordsOf]

theorem recordsOf_append_other {entry : Entry τ} (h : entry.record.executionId ≠ executionId)
    (log : List (Entry τ)) :
    recordsOf executionId (log ++ [entry]) = recordsOf executionId log := by
  simp [recordsOf, h]

theorem isChain_append_singleton {history : List (StateTransition τ)} {r : StateTransition τ}
    (h : IsChain history)
    (h_link : ∀ state, history.getLast?.map StateTransition.toState = some state →
      r.fromState = state) : IsChain (history ++ [r]) := by
  rw [IsChain, List.isChain_append]
  refine ⟨h, List.isChain_singleton _, ?_⟩
  intro last h_last first h_first
  obtain rfl : r = first := by simpa using h_first
  exact h_link _ (by rw [Option.mem_def.mp h_last]; rfl)

theorem lookup_mem_of_keys {states : List (String × OrderState)}
    (h_nodup : (states.map Prod.fst).Nodup) (h : executionId ∈ states.map Prod.fst) :
    ∃ state, (executionId, state) ∈ states ∧ states.lookup executionId = some state := by
  obtain ⟨⟨id, state⟩, h_mem, rfl⟩ := List.mem_map.mp h
  exact ⟨state, h_mem, lookup_of_mem h_nodup h_mem⟩

section InvariantStep

variable {run : Run τ} {machine : OrderStateMachine τ} {entry : Entry τ}

theorem Inv.nodup (h : Inv run) : (run.machine.currentStates.map Prod.fst).Nodup := by
  rw [h.states]
  exact (nodup_recent _).sublist ((evict_suffix _ _).sublist.map _)

theorem Inv.histories_eq (h : Inv run)
    (h_rec : Recorded run.machine machine entry.call.forces entry.record) :
    machine.transitionHistory = evict run.machine.maxHistoryEntries
      (touch run.machine.transitionHistory (entry.record.executionId,
        (run.machine.transitionHistory.lookup entry.record.executionId).getD [] ++
          [entry.record])) := by
  rw [h_rec.histories]
  refine enforceBounds_snd _ (nodup_touch h.nodup _) ?_
  rw [map_fst_touch, map_fst_touch, h.keys]

theorem Inv.keys_step (h : Inv run)
    (h_rec : Recorded run.machine machine entry.call.forces entry.record) :
    machine.transitionHistory.map Prod.fst = machine.currentStates.map Prod.fst := by
  rw [h.histories_eq h_rec, h_rec.states, map_fst_evict, map_fst_evict, map_fst_touch,
    map_fst_touch, h.keys]

theorem Inv.states_step (h : Inv run)
    (h_rec : Recorded run.machine machine entry.call.forces entry.record) :
    machine.currentStates = evict machine.maxHistoryEntries
      (recent ((run.log ++ [entry]).map assignment)) := by
  rw [h_rec.states, h_rec.capacity, List.map_append, List.map_singleton, recent_append]
  conv_lhs => rw [h.states]
  exact touch_evict _ (nodup_recent _) _

theorem Inv.history_before (h : Inv run) (executionId : String) :
    ∀ history, history = (run.machine.transitionHistory.lookup executionId).getD [] →
      IsChain history ∧ (∀ state, history.getLast?.map StateTransition.toState = some state →
        run.machine.currentStates.lookup executionId = some state) ∧
      history <:+ recordsOf executionId run.log := by
  rintro history rfl
  cases h_lookup : run.machine.transitionHistory.lookup executionId with
  | none => exact ⟨List.isChain_nil, by simp, List.nil_suffix⟩
  | some history =>
    have h_mem : (executionId, history) ∈ run.machine.transitionHistory := by
      obtain ⟨before, after, h_split, -⟩ := List.lookup_eq_some_iff.mp h_lookup
      rw [h_split]
      exact List.mem_append_right _ List.mem_cons_self
    obtain ⟨h_chain, h_last, h_suffix⟩ := h.stored _ h_mem
    exact ⟨h_chain, fun state h_state => h_last.symm.trans h_state, h_suffix⟩

theorem Inv.stored_step (h : Inv run)
    (h_rec : Recorded run.machine machine entry.call.forces entry.record) :
    ∀ stored ∈ machine.transitionHistory,
      IsChain stored.2 ∧ stored.2.getLast?.map StateTransition.toState =
        machine.currentStates.lookup stored.1 ∧
      stored.2 <:+ recordsOf stored.1 (run.log ++ [entry]) := by
  intro stored h_stored
  have h_nodup : (machine.currentStates.map Prod.fst).Nodup := by
    rw [h.states_step h_rec]
    exact (nodup_recent _).sublist ((evict_suffix _ _).sublist.map _)
  have h_key : stored.1 ∈ machine.currentStates.map Prod.fst := by
    rw [← h.keys_step h_rec]
    exact List.mem_map_of_mem h_stored
  obtain ⟨state, h_state, h_lookup⟩ := lookup_mem_of_keys h_nodup h_key
  rw [h_rec.states] at h_state
  rw [h.histories_eq h_rec] at h_stored
  have h_state := mem_touch.mp ((evict_suffix _ _).mem h_state)
  rcases mem_touch.mp ((evict_suffix _ _).mem h_stored) with ⟨h_old, h_ne⟩ | h_new
  · -- another execution: nothing of it changed
    obtain ⟨h_chain, h_last, h_suffix⟩ := h.stored stored h_old
    have h_before : (stored.1, state) ∈ run.machine.currentStates := by
      rcases h_state with ⟨h_mem, -⟩ | h_eq
      · exact h_mem
      · exact absurd (congrArg Prod.fst h_eq) h_ne
    refine ⟨h_chain, ?_, ?_⟩
    · rw [h_last, h_lookup]
      exact lookup_of_mem h.nodup h_before
    · rw [recordsOf_append_other (Ne.symm h_ne)]
      exact h_suffix
  · obtain ⟨h_chain, h_last, h_suffix⟩ :=
      h.history_before entry.record.executionId _ rfl
    have h_to : state = entry.record.toState := by
      rcases h_state with ⟨-, h_ne⟩ | h_eq
      · exact absurd (congrArg Prod.fst h_new) h_ne
      · exact congrArg Prod.snd h_eq
    rw [h_lookup, h_to]
    subst h_new
    refine ⟨isChain_append_singleton h_chain fun s h_s => h_rec.source s (h_last s h_s), ?_, ?_⟩
    · rw [List.getLast?_append_of_ne_nil _ (List.cons_ne_nil _ _)]
      rfl
    · rw [recordsOf_append_self]
      obtain ⟨old, h_old⟩ := h_suffix
      exact ⟨old, by rw [← h_old, List.append_assoc]⟩

end InvariantStep

theorem inv_step {run : Run τ} (h : Inv run) (call : Call × τ) : Inv (step run call) := by
  unfold step
  split
  · rename_i machine record h_perform
    let entry : Entry τ := ⟨call.1, record⟩
    have h_rec : Recorded run.machine machine entry.call.forces entry.record :=
      (recorded_of_perform h_perform).1
    exact {
      states := h.states_step h_rec
      keys := h.keys_step h_rec
      stored := h.stored_step h_rec }
  · exact h

theorem inv_run (maxHistoryEntries : ℕ) (calls : List (Call × τ)) :
    Inv (run maxHistoryEntries calls) := by
  induction calls using List.reverseRecOn with
  | nil => exact ⟨rfl, rfl, fun h h_mem => by cases h_mem⟩
  | append_singleton calls call ih =>
    rw [run, List.foldl_append]
    exact inv_step ih call

/-! ## Whole runs -/

section RunStep

variable {run : Run τ} {call : Call × τ}

theorem allowed_step
    (h : ∀ entry ∈ run.log,
      entry.record.toState ∈ VALID_TRANSITIONS entry.record.fromState ∨ entry.Forced) :
    ∀ entry ∈ (step run call).log,
      entry.record.toState ∈ VALID_TRANSITIONS entry.record.fromState ∨ entry.Forced := by
  unfold step
  split
  · rename_i machine record h_perform
    obtain ⟨h_rec, h_target⟩ := recorded_of_perform h_perform
    intro entry h_entry
    rcases List.mem_append.mp h_entry with h_old | h_new
    · exact h entry h_old
    · obtain rfl := List.mem_singleton.mp h_new
      exact h_rec.allowed_or_forced h_target
  · exact h

/-- While fewer other executions than the bound were recorded since, the machine knows where
    an execution stands. -/
theorem Inv.lookup_last (h : Inv run) {before : List (Entry τ)} {first : Entry τ}
    {since : List (Entry τ)} (h_log : run.log = before ++ first :: since)
    (h_since : ∀ entry ∈ since, entry.record.executionId ≠ first.record.executionId)
    (h_few : (since.map fun entry => entry.record.executionId).dedup.length <
      run.machine.maxHistoryEntries) :
    run.machine.currentStates.lookup first.record.executionId = some first.record.toState := by
  have h_keys : (since.map assignment).map Prod.fst =
      since.map fun entry => entry.record.executionId := by
    rw [List.map_map]
    rfl
  rw [h.states, h_log, List.map_append, List.map_cons]
  refine lookup_evict_recent _ (assignment first) ?_ (by rw [h_keys]; exact h_few)
  rw [h_keys]
  intro h_mem
  obtain ⟨entry, h_entry, h_eq⟩ := List.mem_map.mp h_mem
  exact h_since entry h_entry h_eq

/-- Consecutive transitions of one execution are linked. -/
def Linked (run : Run τ) : Prop :=
  ∀ before first between second after,
    run.log = before ++ first :: (between ++ second :: after) →
    first.record.executionId = second.record.executionId →
    (∀ entry ∈ between, entry.record.executionId ≠ first.record.executionId) →
    (between.map fun entry => entry.record.executionId).dedup.length <
      run.machine.maxHistoryEntries →
    second.record.fromState = first.record.toState

theorem linked_step (h_inv : Inv run) (h : Linked run) : Linked (step run call) := by
  unfold step
  split
  · rename_i machine record h_perform
    have h_rec := (recorded_of_perform h_perform).1
    intro before first between second after h_log h_id h_between h_few
    rw [h_rec.capacity] at h_few
    rcases List.eq_nil_or_concat after with rfl | ⟨earlier, last, rfl⟩
    · -- the second transition is the new one
      rw [← List.cons_append, ← List.append_assoc] at h_log
      obtain ⟨h_old, h_new⟩ := List.append_inj' h_log rfl
      obtain rfl := List.singleton_inj.mp h_new
      have h_lookup := h_inv.lookup_last h_old h_between h_few
      rw [h_id] at h_lookup
      exact h_rec.source _ h_lookup
    · refine h before first between second earlier ?_ h_id h_between h_few
      have h_assoc : before ++ first :: (between ++ second :: (earlier.concat last)) =
          (before ++ first :: (between ++ second :: earlier)) ++ [last] := by simp
      rw [h_assoc] at h_log
      exact (List.append_inj' h_log rfl).1
  · exact h

end RunStep

/-- Whatever the order of the calls and however many the executions: the recorded steps are
    allowed or forced, and what is recorded for an execution is a chain for as long as the
    memory reaches. -/
theorem recordsChains_run (maxHistoryEntries : ℕ) (calls : List (Call × τ)) :
    RecordsChains (run maxHistoryEntries calls) := by
  have h_inv := inv_run maxHistoryEntries calls
  have h_run : (∀ entry ∈ (run maxHistoryEntries calls).log,
      entry.record.toState ∈ VALID_TRANSITIONS entry.record.fromState ∨ entry.Forced) ∧
      Linked (run maxHistoryEntries calls) := by
    clear h_inv
    induction calls using List.reverseRecOn with
    | nil =>
      constructor
      · intro entry h_entry
        exact absurd h_entry List.not_mem_nil
      · intro before first between second after h_log
        simp [run] at h_log
    | append_singleton calls call ih =>
      rw [run, List.foldl_append]
      exact ⟨allowed_step ih.1, linked_step (inv_run maxHistoryEntries calls) ih.2⟩
  obtain ⟨h_allowed, h_linked⟩ := h_run
  refine ⟨h_allowed, ?_, ?_, ?_⟩
  · intro before first between second after h_log h_id h_between h_few
    have h_from := h_linked before first between second after h_log h_id h_between h_few
    refine ⟨h_from, fun h_terminal => ?_⟩
    have h_second : second ∈ (run maxHistoryEntries calls).log := by
      rw [h_log]
      simp
    refine (h_allowed second h_second).resolve_left ?_
    rw [h_from]
    exact not_mem_of_isTerminal h_terminal _
  · intro executionId state h_state
    have h_key : executionId ∈
        (run maxHistoryEntries calls).machine.transitionHistory.map Prod.fst := by
      rw [h_inv.keys]
      obtain ⟨before, after, h_split, -⟩ := List.lookup_eq_some_iff.mp h_state
      rw [h_split]
      simp
    have h_nodup : ((run maxHistoryEntries calls).machine.transitionHistory.map
        Prod.fst).Nodup := h_inv.keys ▸ h_inv.nodup
    obtain ⟨⟨id, history⟩, h_mem, rfl⟩ := List.mem_map.mp h_key
    obtain ⟨h_chain, h_last, h_suffix⟩ := h_inv.stored _ h_mem
    exact ⟨history, lookup_of_mem h_nodup h_mem, h_chain, h_last.trans h_state, h_suffix⟩
  · rw [h_inv.states]
    exact length_evict_le _ _

theorem ChainsEndInTerminal.nothing_after {log : List (Entry τ)} (h : ChainsEndInTerminal log)
    {before after : List OrderState} {state : OrderState}
    (h_states : (recordsOf executionId log).map StateTransition.toState = before ++ state :: after)
    (h_terminal : state.isTerminal = true) : after = [] := by
  obtain ⟨first, rest, h_split, -, h_rest⟩ := List.map_eq_append_iff.mp h_states
  obtain ⟨r, later, rfl, rfl, rfl⟩ := List.map_eq_cons_iff.mp h_rest
  rw [(h executionId).2.2 first r later h_split h_terminal, List.map_nil]

/-- A cancellation after a fill is recorded; and with room for one execution, a filled one
    that another evicted is submitted again. -/
theorem recordsChains_divergence :
    ¬ ChainsEndInTerminal (run 1000 [(.createdToSubmitted "A", 0),
      (.toFilled "A" 1 100 "x", 1), (.toCancelled "A", 2)]).log ∧
    ¬ ChainsEndInTerminal (run 1 [(.createdToSubmitted "A", 0),
      (.toFilled "A" 1 100 "x", 1), (.createdToSubmitted "B", 2),
      (.createdToSubmitted "A", 3)]).log := by
  constructor
  · intro h
    have h_states : (recordsOf "A" (run 1000 [(.createdToSubmitted "A", 0),
        (.toFilled "A" 1 100 "x", 1), (.toCancelled "A", 2)]).log).map
          StateTransition.toState = [submitted] ++ filled :: [cancelled] := by decide +kernel
    cases h.nothing_after h_states rfl
  · intro h
    have h_states : (recordsOf "A" (run 1 [(.createdToSubmitted "A", 0),
        (.toFilled "A" 1 100 "x", 1), (.createdToSubmitted "B", 2),
        (.createdToSubmitted "A", 3)]).log).map
          StateTransition.toState = [submitted] ++ filled :: [submitted] := by decide +kernel
    cases h.nothing_after h_states rfl

end VyomQuant.OrderTransitions
