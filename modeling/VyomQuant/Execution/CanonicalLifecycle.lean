/-
  VyomQuant.Execution.CanonicalLifecycle

  The canonical order lifecycle: nine states with their table of transitions, the tables
  that map the status of an order, of a signal and of a trace onto them, the resolver that
  takes the first source that reports, and the gate before a transition is written.

  The states that the order engine goes through, mapped through the resolver, pass the gate
  exactly in the runs in which a fill meets an order that is at the exchange and a resumed
  cancel one that did not end otherwise (`refines_iff`): a fill has none of the guards of
  the other operations.
-/

import VyomQuant.Execution.OrderStateEngine
import VyomQuant.StrategyDag.Schema

namespace VyomQuant.CanonicalLifecycle

open OrderEngine

/-! ## The vocabulary -/

inductive OrderLifecycleState where
  | generated
  | pending
  | submitted
  | partiallyExecuted
  | executed
  | closed
  | failed
  | cancelled
  | rejected
  deriving DecidableEq

namespace OrderLifecycleState

def value : OrderLifecycleState → String
  | generated => "GENERATED"
  | pending => "PENDING"
  | submitted => "SUBMITTED"
  | partiallyExecuted => "PARTIALLY_EXECUTED"
  | executed => "EXECUTED"
  | closed => "CLOSED"
  | failed => "FAILED"
  | cancelled => "CANCELLED"
  | rejected => "REJECTED"

end OrderLifecycleState

open OrderLifecycleState

def TERMINAL_STATES : List OrderLifecycleState := [closed, failed, cancelled, rejected]

def ORDER_LIFECYCLE_TRANSITIONS : OrderLifecycleState → List OrderLifecycleState
  | generated => [pending, rejected, failed, cancelled]
  | pending => [submitted, rejected, failed, cancelled]
  | submitted => [partiallyExecuted, executed, rejected, failed, cancelled]
  | partiallyExecuted => [partiallyExecuted, executed, failed, cancelled]
  | executed => [closed, failed]
  | closed => []
  | failed => []
  | cancelled => []
  | rejected => []

def ORDER_STATE_MAP : List (String × OrderLifecycleState) :=
  [("created", pending), ("submitted", submitted), ("open", submitted),
    ("partial", partiallyExecuted), ("filled", executed), ("cancelling", pending),
    ("cancelled", cancelled), ("failed", failed), ("timed_out", failed)]

def SIGNALS_STATUS_MAP : List (String × OrderLifecycleState) :=
  [("pending", pending), ("accepted", submitted), ("rejected", rejected),
    ("executed", executed), ("failed", failed), ("cancelled", cancelled),
    ("expired", cancelled)]

def TRACE_STATUS_MAP : List (String × OrderLifecycleState) :=
  [("pending", pending), ("running", pending), ("completed", executed), ("failed", failed),
    ("blocked", rejected), ("timeout", failed)]

def INTERNAL_SUBSTATE_MAP : List (String × OrderLifecycleState) :=
  [("risk_check_pending", pending), ("approved_pending_submission", pending)]

/-! ## The resolver -/

/-- A refusal of this module. -/
structure OrderLifecycleRejected where
  code : String
  message : String
  orderLifecycleState : OrderLifecycleState
  requestedState : OrderLifecycleState
  legalTransitions : List String
  signalId : Option String
  orderId : Option String
  reason : Option String
  httpStatus : ℕ

/-- A source reported a value outside its vocabulary. -/
structure UnknownSourceStatus where
  source : String
  value : String
  known : List String
  deriving DecidableEq

/-- The message, given how a text is quoted. -/
def UnknownSourceStatus.message (repr : String → String) (e : UnknownSourceStatus) : String :=
  let known := ", ".intercalate (e.known.map repr)
  s!"{e.source}={repr e.value} is not one of [{known}], " ++
    "so it cannot be reconciled onto an Order_Lifecycle_State."

/-- A source reading as a key of its table: lower case, with `-` and blanks folded onto `_`.
    An enum member stands for its value. -/
def normaliseSourceValue (value : Option String) : Option String :=
  match value with
  | none => none
  | some raw =>
    let chars := (StrategyDag.strip raw).toList.map Char.toLower
    let text := String.ofList (chars.map fun c => if c = '-' ∨ c = ' ' then '_' else c)
    if text = "" then none else some text

def mapThrough (table : List (String × OrderLifecycleState)) (source : String)
    (value : Option String) (extra : List (String × OrderLifecycleState)) :
    Except UnknownSourceStatus (Option OrderLifecycleState) :=
  match normaliseSourceValue value with
  | none => .ok none
  | some key =>
    match (table.lookup key).or (extra.lookup key) with
    | some mapped => .ok (some mapped)
    | none => .error ⟨source, value.getD "", (table ++ extra).map Prod.fst⟩

def mapOrderState (value : Option String) :
    Except UnknownSourceStatus (Option OrderLifecycleState) :=
  mapThrough ORDER_STATE_MAP "order_state" value []

def mapSignalsStatus (value : Option String) :
    Except UnknownSourceStatus (Option OrderLifecycleState) :=
  mapThrough SIGNALS_STATUS_MAP "signals_status" value INTERNAL_SUBSTATE_MAP

def mapTraceStatus (value : Option String) :
    Except UnknownSourceStatus (Option OrderLifecycleState) :=
  mapThrough TRACE_STATUS_MAP "trace_status" value []

/-- The first source that reports decides; with none the signal was just minted. -/
def resolveOrderLifecycleState (orderState signalsStatus traceStatus : Option String) :
    Except UnknownSourceStatus OrderLifecycleState := do
  match ← mapOrderState orderState with
  | some mapped => return mapped
  | none =>
    match ← mapSignalsStatus signalsStatus with
    | some mapped => return mapped
    | none =>
      match ← mapTraceStatus traceStatus with
      | some mapped => return mapped
      | none => return generated

/-! ## The gate -/

def subject (signalId orderId : Option String) : String :=
  match signalId.filter (· ≠ ""), orderId.filter (· ≠ "") with
  | some signal, some order => s!"signal {signal} (order {order})"
  | some signal, none => s!"signal {signal}"
  | none, some order => s!"order {order}"
  | none, none => "this signal"

/-- Members of the vocabulary normalise to themselves, so the other refusal of the gate is
    not met here. -/
def assertTransitionLegal (current next : OrderLifecycleState)
    (signalId orderId reason : Option String) :
    Except OrderLifecycleRejected (OrderLifecycleState × OrderLifecycleState) :=
  if next ∈ ORDER_LIFECYCLE_TRANSITIONS current then .ok (current, next)
  else
    let allowed := (ORDER_LIFECYCLE_TRANSITIONS current).map value
    .error
      { code := "ORDER_LIFECYCLE_TRANSITION_INVALID"
        message := s!"Cannot move {subject signalId orderId} from {current.value} to " ++
          s!"{next.value}: that transition is not part of the order lifecycle. From " ++
          s!"{current.value} the legal transitions are " ++
          (if allowed = [] then "none - it is a terminal state"
            else ", ".intercalate allowed) ++ "."
        orderLifecycleState := current
        requestedState := next
        legalTransitions := allowed
        signalId := signalId
        orderId := orderId
        reason := reason
        httpStatus := 409 }

/-! ## The states of the order engine -/

/-- The value of an `OrderState` member. -/
def orderStateValue : OrderState → String
  | .created => "created"
  | .submitted => "submitted"
  | .open => "open"
  | .partiallyFilled => "partial"
  | .filled => "filled"
  | .cancelling => "cancelling"
  | .cancelled => "cancelled"
  | .failed => "failed"
  | .timedOut => "timed_out"

/-- The canonical state of an order that is the only source. -/
def canonical : OrderState → OrderLifecycleState
  | .created => pending
  | .submitted => submitted
  | .open => submitted
  | .partiallyFilled => partiallyExecuted
  | .filled => executed
  | .cancelling => pending
  | .cancelled => cancelled
  | .failed => failed
  | .timedOut => failed

theorem resolve_orderState (s : OrderState) :
    resolveOrderLifecycleState (some (orderStateValue s)) none none = .ok (canonical s) := by
  cases s <;> decide +kernel

/-- One more fill of an order that stays partially filled. -/
def RepeatedPartialFill (o o' : OrderLifecycle) : Prop :=
  o.currentState = .partiallyFilled ∧ o'.currentState = .partiallyFilled ∧
    o.fillHistory.length < o'.fillHistory.length

/-- Between two successive readings of an order, a change of the canonical state and a
    repeated partial fill pass the gate. -/
def PassesGate (o o' : OrderLifecycle) : Prop :=
  ∀ current next,
    resolveOrderLifecycleState (some (orderStateValue o.currentState)) none none = .ok current →
    resolveOrderLifecycleState (some (orderStateValue o'.currentState)) none none = .ok next →
    current ≠ next ∨ RepeatedPartialFill o o' →
    ∀ signalId orderId reason,
      assertTransitionLegal current next signalId orderId reason = .ok (current, next)

/-- The operation starts the order. -/
def Creates (id : String) : Operation → Prop
  | .createOrder _ orderId _ _ _ _ _ _ => orderId = id
  | _ => False

/-- What an operation makes of the order passes the gate. -/
def StepsLegally (id : String) (e : OrderStateEngine) (op : Operation) : Prop :=
  ¬ Creates id op → ∀ o ∈ e.activeOrders id, ∀ o' ∈ (e.step op).activeOrders id, PassesGate o o'

/-- A fill meets an order at the exchange, or one that is filled and leaves nothing again; a
    cancel is not resumed on an order that was filled, failed or timed out meanwhile. -/
def Admits (id : String) (e : OrderStateEngine) : Operation → Prop
  | .addFill _ orderId fill dedup =>
    orderId = id → dedup ≠ .duplicateRejected → ∀ o ∈ e.activeOrders id,
      o.currentState ∈ [OrderState.submitted, .open, .partiallyFilled] ∨
      (o.currentState = .filled ∧
        decimalContext.sub o.originalQuantity
          (decimalContext.add o.totalFilled fill.filledQuantity) = 0)
  | .cancelResume _ orderId duplicate =>
    orderId = id → orderId ∈ e.awaitingCancel → duplicate = false →
      ∀ o ∈ e.activeOrders id, o.currentState ∉ [OrderState.filled, .failed, .timedOut]
  | _ => True

/-! ## One operation -/

/-- The canonical state stays, or moves along an edge of the table. -/
def LegalStep (s s' : OrderState) : Prop :=
  canonical s = canonical s' ∨ canonical s' ∈ ORDER_LIFECYCLE_TRANSITIONS (canonical s)

instance (s s' : OrderState) : Decidable (LegalStep s s') :=
  inferInstanceAs (Decidable (_ ∨ _))

theorem assertTransitionLegal_ok_iff {current next : OrderLifecycleState}
    {signalId orderId reason : Option String} :
    assertTransitionLegal current next signalId orderId reason = .ok (current, next) ↔
      next ∈ ORDER_LIFECYCLE_TRANSITIONS current := by
  unfold assertTransitionLegal
  split
  · rename_i h
    exact ⟨fun _ => h, fun _ => rfl⟩
  · rename_i h
    exact iff_of_false (fun h_error => by cases h_error) h

theorem passesGate_iff (o o' : OrderLifecycle) :
    PassesGate o o' ↔ LegalStep o.currentState o'.currentState := by
  unfold PassesGate
  simp only [resolve_orderState, Except.ok.injEq, assertTransitionLegal_ok_iff]
  constructor
  · intro h
    by_cases h_eq : canonical o.currentState = canonical o'.currentState
    · exact Or.inl h_eq
    · exact Or.inr (h _ _ rfl rfl (Or.inl h_eq) none none none)
  · intro h_step current next h_current h_next h_reason _ _ _
    subst h_current h_next
    rcases h_step with h_eq | h_edge
    · rcases h_reason with h_ne | ⟨h_before, h_after, -⟩
      · exact absurd h_eq h_ne
      · rw [h_before, h_after]
        decide
    · exact h_edge

theorem stepsLegally_change_iff {id orderId : String} {e : OrderStateEngine} {op : Operation}
    {f : OrderLifecycle → OrderLifecycle} (h_creates : ¬ Creates id op)
    (h_step : (e.step op).activeOrders = (e.change orderId f).activeOrders) :
    StepsLegally id e op ↔
      (orderId = id → ∀ o ∈ e.activeOrders id, LegalStep o.currentState (f o).currentState) := by
  unfold StepsLegally
  rw [h_step, change_activeOrders]
  simp only [passesGate_iff, h_creates, not_false_eq_true, forall_const]
  by_cases h_id : orderId = id
  · simp only [h_id, if_true, forall_const]
    refine forall₂_congr fun o h_o => ?_
    rw [Option.mem_def.mp h_o]
    simp
  · simp only [h_id, if_false, false_implies, iff_true]
    intro o h_o o' h_o'
    rw [Option.mem_unique h_o h_o']
    exact Or.inl rfl

theorem legalStep_of_active {o : OrderLifecycle} (h : o.isTerminal = false) :
    LegalStep o.currentState .failed ∧ LegalStep o.currentState .timedOut := by
  unfold OrderLifecycle.isTerminal at h
  cases h_state : o.currentState <;> simp_all <;> decide

theorem legalStep_cancelled_iff (s : OrderState) :
    LegalStep s .cancelled ↔ s ∉ [OrderState.filled, .failed, .timedOut] := by
  cases s <;> decide

theorem legalStep_filled_iff (s : OrderState) :
    LegalStep s .filled ↔ s ∈ [OrderState.submitted, .open, .partiallyFilled] ∨ s = .filled := by
  cases s <;> decide

theorem legalStep_partiallyFilled_iff (s : OrderState) :
    LegalStep s .partiallyFilled ↔ s ∈ [OrderState.submitted, .open, .partiallyFilled] := by
  cases s <;> decide

theorem legalStep_applyFill_iff (o : OrderLifecycle) (now : ℚ) (fill : FillData)
    (dedup : DedupResult) :
    LegalStep o.currentState (o.applyFill now fill dedup).currentState ↔
      o.currentState ∈ [OrderState.submitted, .open, .partiallyFilled] ∨
      (o.currentState = .filled ∧
        decimalContext.sub o.originalQuantity
          (decimalContext.add o.totalFilled fill.filledQuantity) = 0) := by
  rw [applyFill_currentState, applyFill_remainingQuantity]
  split
  · rename_i h_zero
    rw [legalStep_filled_iff, and_iff_left h_zero]
  · rename_i h_left
    rw [legalStep_partiallyFilled_iff]
    simp [h_left]

theorem stepsLegally_iff (id : String) (e : OrderStateEngine) (op : Operation) :
    StepsLegally id e op ↔ Admits id e op := by
  cases op with
  | createOrder now orderId userId symbol side orderType quantity timeoutSeconds =>
    refine iff_of_true ?_ trivial
    intro h_creates o h_o o' h_o'
    have h_other : id ≠ orderId := fun h => h_creates h.symm
    have h_same : (e.step (.createOrder now orderId userId symbol side orderType quantity
        timeoutSeconds)).activeOrders id = e.activeOrders id := Function.update_of_ne h_other _ _
    rw [h_same] at h_o'
    rw [Option.mem_unique h_o h_o', passesGate_iff]
    exact Or.inl rfl
  | submitOrder now orderId =>
    refine iff_of_true ((stepsLegally_change_iff (by exact not_false) rfl).mpr fun _ o _ => ?_) trivial
    by_cases h : o.currentState = .created
    · simp only [h, ne_eq, not_true_eq_false, if_false, transitionTo_currentState]
      decide
    · rw [if_pos h]
      exact Or.inl rfl
  | confirmOpen now orderId =>
    refine iff_of_true ((stepsLegally_change_iff (by exact not_false) rfl).mpr fun _ o _ => ?_) trivial
    by_cases h : o.currentState = .submitted ∨ o.currentState = .created
    · rw [if_pos h, transitionTo_currentState]
      rcases h with h | h <;> rw [h] <;> decide
    · rw [if_neg h]
      exact Or.inl rfl
  | addFill now orderId fill dedup =>
    rw [stepsLegally_change_iff (by exact not_false) rfl]
    refine forall_congr' fun _ => ?_
    by_cases h_dedup : dedup = .duplicateRejected
    · simp only [h_dedup, if_true, ne_eq, not_true_eq_false, false_implies, iff_true]
      exact fun o _ => Or.inl rfl
    · simp only [h_dedup, if_false, ne_eq, not_false_eq_true, forall_const]
      exact forall₂_congr fun o _ => legalStep_applyFill_iff o now fill dedup
  | cancelOrder orderId =>
    refine iff_of_true ?_ trivial
    intro _ o h_o o' h_o'
    have h_same : (e.step (.cancelOrder orderId)).activeOrders = e.activeOrders := by
      show (e.cancelOrder orderId).activeOrders = _
      unfold OrderStateEngine.cancelOrder
      split
      · rfl
      · split <;> rfl
    rw [h_same] at h_o'
    rw [Option.mem_unique h_o h_o', passesGate_iff]
    exact Or.inl rfl
  | cancelResume now orderId duplicate =>
    have h_step : (e.step (.cancelResume now orderId duplicate)).activeOrders =
        (e.change orderId fun o => if orderId ∈ e.awaitingCancel ∧ duplicate = false then
          o.transitionTo now .cancelled else o).activeOrders := by
      show (e.cancelResume now orderId duplicate).activeOrders = _
      unfold OrderStateEngine.cancelResume
      funext key
      rw [change_activeOrders]
      by_cases h_awaiting : orderId ∈ e.awaitingCancel
      · cases duplicate with
        | true => simp [h_awaiting]
        | false =>
          simp only [h_awaiting, if_true, Bool.false_eq_true, if_false, and_self]
          exact change_activeOrders _ _ _ _
      · simp [h_awaiting]
    rw [stepsLegally_change_iff (by exact not_false) h_step]
    refine forall_congr' fun _ => ?_
    by_cases h_resumes : orderId ∈ e.awaitingCancel ∧ duplicate = false
    · simp only [h_resumes, and_self, if_true, transitionTo_currentState,
        legalStep_cancelled_iff, forall_const]
    · simp only [h_resumes, if_false]
      rw [not_and] at h_resumes
      refine iff_of_true (fun o _ => Or.inl rfl) fun h_awaiting h_new => ?_
      exact absurd h_new (h_resumes h_awaiting)
  | failOrder now orderId errorMessage errorCode =>
    refine iff_of_true ((stepsLegally_change_iff (by exact not_false) rfl).mpr fun _ o _ => ?_) trivial
    cases h : o.isTerminal with
    | true => exact Or.inl rfl
    | false => exact (legalStep_of_active h).1
  | timeoutOrder now orderId =>
    refine iff_of_true ((stepsLegally_change_iff (by exact not_false) rfl).mpr fun _ o _ => ?_) trivial
    cases h : o.isTerminal with
    | true => exact Or.inl rfl
    | false => exact (legalStep_of_active h).2

/-! ## Runs -/

/-- Whatever a run makes of the order can be recorded in the canonical lifecycle. -/
def Refines (defaultTimeout : ℚ) (ops : List Operation) (id : String) : Prop :=
  Throughout defaultTimeout (StepsLegally id) ops

/-- The engine refines the canonical lifecycle exactly in the runs in which every fill meets
    the order at the exchange and no cancel resumes on an order that ended otherwise. -/
theorem refines_iff (defaultTimeout : ℚ) (ops : List Operation) (id : String) :
    Refines defaultTimeout ops id ↔ Throughout defaultTimeout (Admits id) ops := by
  refine forall_congr' fun pre => forall_congr' fun op => forall₂_congr fun post _ => ?_
  exact stepsLegally_iff id (run defaultTimeout pre) op

/-- Half of an order is filled before its submission is recorded. -/
theorem refines_divergence :
    ¬ ∀ (defaultTimeout : ℚ) (ops : List Operation) (id : String),
      Refines defaultTimeout ops id := by
  intro h
  let create : Operation := .createOrder 0 "ord_1" "u" "BTCUSDT" "buy" "limit" 1 none
  let fill : Operation := .addFill 1 "ord_1" ⟨1 / 2, 100, "t1", 0, ""⟩ .notAsked
  have h_refines := h 30 [create, fill] "ord_1" [create] fill [] rfl
  have h_before : ((run 30 [create]).activeOrders "ord_1").map (·.currentState) =
      some .created := by decide +kernel
  have h_after : (((run 30 [create]).step fill).activeOrders "ord_1").map (·.currentState) =
      some .partiallyFilled := by decide +kernel
  obtain ⟨o, h_o, h_created⟩ := Option.map_eq_some_iff.mp h_before
  obtain ⟨o', h_o', h_partial⟩ := Option.map_eq_some_iff.mp h_after
  have h_step := (passesGate_iff o o').mp (h_refines (by exact not_false) o h_o o' h_o')
  rw [h_created, h_partial] at h_step
  exact absurd h_step (by decide)

end VyomQuant.CanonicalLifecycle
