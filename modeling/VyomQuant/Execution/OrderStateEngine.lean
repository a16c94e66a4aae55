/-
  VyomQuant.Execution.OrderStateEngine

  The order state engine of the live path: the lifecycle record of an order with
  its fill history and running totals, and the seven operations on it.

  Cancelling checks the order before it awaits the cancellation manager and
  transitions after it, so the two halves are operations of their own
  (`cancelOrder` and `cancelResume`) between which anything may happen; with no
  manager attached they follow one another.

  The figures of an order are always its fills (`Booked`).  Its state follows its
  remainder, and a terminal state is final, exactly in the runs in which no fill
  and no resumed cancel meets a terminal order and no fill exceeds the remainder
  (`orderInvariant_iff`): `add_fill` has none of the guards that cancelling,
  failing and timing out have.
-/

import VyomQuant.Lib.DecimalContext
import VyomQuant.Lib.Run

namespace VyomQuant.OrderEngine

open Decimal

/-! ## The records -/

/-- `OrderState`. -/
inductive OrderState where
  | created
  | submitted
  | open
  | partiallyFilled
  | filled
  | cancelling
  | cancelled
  | failed
  | timedOut
  deriving DecidableEq

/-- `FillRecord`. -/
structure FillRecord where
  fillId : Option String
  orderId : String
  timestamp : ℚ
  filledQuantity : ℚ
  fillPrice : ℚ
  totalFilled : ℚ
  remainingQuantity : ℚ
  fee : ℚ
  feeCurrency : String
  exchangeTradeId : String

/-- One entry of the transition log. -/
structure StateChange where
  old : OrderState
  new : OrderState
  timestamp : ℚ

/-- `OrderLifecycle`. -/
structure OrderLifecycle where
  orderId : String
  userId : String
  symbol : String
  side : String
  orderType : String
  originalQuantity : ℚ
  currentState : OrderState
  fillHistory : List FillRecord
  totalFilled : ℚ
  remainingQuantity : ℚ
  averageFillPrice : Option ℚ
  createdAt : ℚ
  submittedAt : Option ℚ
  openedAt : Option ℚ
  filledAt : Option ℚ
  cancelledAt : Option ℚ
  failedAt : Option ℚ
  timeoutSeconds : ℚ
  timeoutAt : Option ℚ
  stateHistory : List StateChange
  errorMessage : String
  errorCode : String

/-- The context of the engine's arithmetic: 28 digits, half-even. -/
abbrev decimalContext : Context := .default

namespace OrderLifecycle

/-- `is_terminal`. -/
def isTerminal (o : OrderLifecycle) : Bool :=
  o.currentState ∈ [.filled, .cancelled, .failed, .timedOut]

/-- `transition_to`. -/
def transitionTo (o : OrderLifecycle) (now : ℚ) (newState : OrderState) : OrderLifecycle :=
  { o with
    currentState := newState
    submittedAt := if newState = .submitted then some now else o.submittedAt
    timeoutAt := if newState = .submitted then some (now + o.timeoutSeconds) else o.timeoutAt
    openedAt := if newState = .open then some now else o.openedAt
    filledAt := if newState = .filled then some now else o.filledAt
    cancelledAt := if newState = .cancelled then some now else o.cancelledAt
    failedAt := if newState = .failed then some now else o.failedAt
    stateHistory := o.stateHistory ++ [⟨o.currentState, newState, now⟩] }

end OrderLifecycle

/-- The value of a list of fills as the engine adds it up. -/
def totalValue (fills : List FillRecord) : ℚ :=
  fills.foldl (fun value f =>
    decimalContext.add value (decimalContext.mul f.filledQuantity f.fillPrice)) 0

namespace OrderLifecycle

/-- `OrderLifecycle.add_fill`. -/
def addFill (o : OrderLifecycle) (fill : FillRecord) : OrderLifecycle :=
  { o with
    fillHistory := o.fillHistory ++ [fill]
    totalFilled := fill.totalFilled
    remainingQuantity := fill.remainingQuantity
    averageFillPrice :=
      some (decimalContext.div (totalValue (o.fillHistory ++ [fill])) fill.totalFilled) }

end OrderLifecycle

/-! ## The engine -/

/-- The orders of the engine, and the cancels that wait for the cancellation manager. -/
structure OrderStateEngine where
  defaultTimeoutSeconds : ℚ
  activeOrders : String → Option OrderLifecycle
  awaitingCancel : List String

/-- What the fill deduplication manager made of a fill, if it was asked. -/
inductive DedupResult where
  | notAsked
  | processed (fillId : String)
  | duplicateRejected
  | registrationFailed (fillId : Option String)
  | raised
  deriving DecidableEq

structure FillData where
  filledQuantity : ℚ
  fillPrice : ℚ
  exchangeTradeId : String
  fee : ℚ
  feeCurrency : String

/-- The identifier that a fill is recorded under. -/
def fillIdOf (o : OrderLifecycle) : DedupResult → Option String
  | .processed fillId => some fillId
  | .registrationFailed fillId => fillId
  | _ => some s!"fill_{o.orderId}_{o.fillHistory.length}"

/-- The record of a fill, with the running totals. -/
def OrderLifecycle.fillRecord (o : OrderLifecycle) (now : ℚ) (fill : FillData)
    (dedup : DedupResult) : FillRecord :=
  let newTotal := decimalContext.add o.totalFilled fill.filledQuantity
  { fillId := fillIdOf o dedup
    orderId := o.orderId
    timestamp := now
    filledQuantity := fill.filledQuantity
    fillPrice := fill.fillPrice
    totalFilled := newTotal
    remainingQuantity := decimalContext.sub o.originalQuantity newTotal
    fee := fill.fee
    feeCurrency := fill.feeCurrency
    exchangeTradeId := fill.exchangeTradeId }

/-- `add_fill` behind the deduplication check. -/
def OrderLifecycle.applyFill (o : OrderLifecycle) (now : ℚ) (fill : FillData)
    (dedup : DedupResult) : OrderLifecycle :=
  let record := o.fillRecord now fill dedup
  let filled := o.addFill record
  if record.remainingQuantity = 0 then filled.transitionTo now .filled
  else if o.currentState ≠ .partiallyFilled then filled.transitionTo now .partiallyFilled
  else filled

/-- The operations, with what their surroundings decide for them: the time, the verdict
    of the deduplication manager and that of the cancellation manager. -/
inductive Operation where
  | createOrder (now : ℚ) (orderId userId symbol side orderType : String) (quantity : ℚ)
      (timeoutSeconds : Option ℚ)
  | submitOrder (now : ℚ) (orderId : String)
  | confirmOpen (now : ℚ) (orderId : String)
  | addFill (now : ℚ) (orderId : String) (fill : FillData) (dedup : DedupResult)
  | cancelOrder (orderId : String)
  | cancelResume (now : ℚ) (orderId : String) (duplicate : Bool)
  | failOrder (now : ℚ) (orderId errorMessage errorCode : String)
  | timeoutOrder (now : ℚ) (orderId : String)

namespace OrderStateEngine

def initial (defaultTimeoutSeconds : ℚ) : OrderStateEngine where
  defaultTimeoutSeconds := defaultTimeoutSeconds
  activeOrders := fun _ => none
  awaitingCancel := []

def put (e : OrderStateEngine) (orderId : String) (o : OrderLifecycle) : OrderStateEngine :=
  { e with activeOrders := Function.update e.activeOrders orderId (some o) }

def change (e : OrderStateEngine) (orderId : String) (f : OrderLifecycle → OrderLifecycle) :
    OrderStateEngine :=
  match e.activeOrders orderId with
  | none => e
  | some o => e.put orderId (f o)

/-- The lifecycle that `create_order` starts. -/
def newOrder (e : OrderStateEngine) (now : ℚ)
    (orderId userId symbol side orderType : String) (quantity : ℚ)
    (timeoutSeconds : Option ℚ) : OrderLifecycle :=
  { orderId := orderId
    userId := userId
    symbol := symbol
    side := side
    orderType := orderType
    originalQuantity := quantity
    currentState := .created
    fillHistory := []
    totalFilled := 0
    remainingQuantity := quantity
    averageFillPrice := none
    createdAt := now
    submittedAt := none
    openedAt := none
    filledAt := none
    cancelledAt := none
    failedAt := none
    timeoutSeconds :=
      match timeoutSeconds with
      | some t => if t = 0 then e.defaultTimeoutSeconds else t
      | none => e.defaultTimeoutSeconds
    timeoutAt := none
    stateHistory := []
    errorMessage := ""
    errorCode := "" }

/-- `create_order`: an order under the same id is replaced. -/
def createOrder (e : OrderStateEngine) (now : ℚ)
    (orderId userId symbol side orderType : String) (quantity : ℚ)
    (timeoutSeconds : Option ℚ) : OrderStateEngine :=
  e.put orderId (e.newOrder now orderId userId symbol side orderType quantity timeoutSeconds)

/-- `submit_order`. -/
def submitOrder (e : OrderStateEngine) (now : ℚ) (orderId : String) : OrderStateEngine :=
  e.change orderId fun o =>
    if o.currentState ≠ .created then o else o.transitionTo now .submitted

/-- `confirm_open`. -/
def confirmOpen (e : OrderStateEngine) (now : ℚ) (orderId : String) : OrderStateEngine :=
  e.change orderId fun o =>
    if o.currentState = .submitted ∨ o.currentState = .created then o.transitionTo now .open
    else o

/-- `add_fill`. -/
def addFill (e : OrderStateEngine) (now : ℚ) (orderId : String) (fill : FillData)
    (dedup : DedupResult) : OrderStateEngine :=
  e.change orderId fun o =>
    if dedup = .duplicateRejected then o else o.applyFill now fill dedup

/-- `cancel_order` up to the cancellation manager. -/
def cancelOrder (e : OrderStateEngine) (orderId : String) : OrderStateEngine :=
  match e.activeOrders orderId with
  | none => e
  | some o =>
    if o.isTerminal then e
    else { e with awaitingCancel := orderId :: e.awaitingCancel }

/-- `cancel_order` after the cancellation manager answered; the order is not read again. -/
def cancelResume (e : OrderStateEngine) (now : ℚ) (orderId : String) (duplicate : Bool) :
    OrderStateEngine :=
  if orderId ∈ e.awaitingCancel then
    let resumed := { e with awaitingCancel := e.awaitingCancel.erase orderId }
    if duplicate then resumed
    else resumed.change orderId fun o => o.transitionTo now .cancelled
  else e

/-- `fail_order`. -/
def failOrder (e : OrderStateEngine) (now : ℚ) (orderId errorMessage errorCode : String) :
    OrderStateEngine :=
  e.change orderId fun o =>
    if o.isTerminal then o
    else
      { o with
        errorMessage := errorMessage
        errorCode := errorCode }.transitionTo now .failed

/-- `timeout_order`. -/
def timeoutOrder (e : OrderStateEngine) (now : ℚ) (orderId : String) : OrderStateEngine :=
  e.change orderId fun o => if o.isTerminal then o else o.transitionTo now .timedOut

def step (e : OrderStateEngine) : Operation → OrderStateEngine
  | .createOrder now orderId userId symbol side orderType quantity timeoutSeconds =>
    e.createOrder now orderId userId symbol side orderType quantity timeoutSeconds
  | .submitOrder now orderId => e.submitOrder now orderId
  | .confirmOpen now orderId => e.confirmOpen now orderId
  | .addFill now orderId fill dedup => e.addFill now orderId fill dedup
  | .cancelOrder orderId => e.cancelOrder orderId
  | .cancelResume now orderId duplicate => e.cancelResume now orderId duplicate
  | .failOrder now orderId errorMessage errorCode =>
    e.failOrder now orderId errorMessage errorCode
  | .timeoutOrder now orderId => e.timeoutOrder now orderId

end OrderStateEngine

/-! ## What an order's figures say -/

def filledQuantity (fills : List FillRecord) : ℚ :=
  (fills.map fun f => f.filledQuantity).sum

/-- The exact value of a list of fills. -/
def notional (fills : List FillRecord) : ℚ :=
  (fills.map fun f => f.filledQuantity * f.fillPrice).sum

/-- The figures of an order are those of its fills.  The mean price is the weighted mean
    to the precision of the arithmetic. -/
structure Booked (o : OrderLifecycle) : Prop where
  total : o.totalFilled = filledQuantity o.fillHistory
  remaining : o.remainingQuantity = o.originalQuantity - o.totalFilled
  average : o.averageFillPrice =
    if o.fillHistory = [] then none
    else some (decimalContext.round (notional o.fillHistory / filledQuantity o.fillHistory))

/-- The state of an order follows its remainder. -/
structure Settled (o : OrderLifecycle) : Prop where
  nonneg : 0 ≤ o.remainingQuantity
  filled : o.currentState = .filled ↔ o.remainingQuantity = 0

/-- The sums and the product that a fill takes fit in the digits of the arithmetic. -/
structure Precise (o : OrderLifecycle) (fill : FillData) : Prop where
  total : decimalContext.Representable (o.totalFilled + fill.filledQuantity)
  remaining :
    decimalContext.Representable (o.originalQuantity - (o.totalFilled + fill.filledQuantity))
  value : decimalContext.Representable (fill.filledQuantity * fill.fillPrice)
  notional : decimalContext.Representable
    (notional o.fillHistory + fill.filledQuantity * fill.fillPrice)

theorem precise_iff {o : OrderLifecycle} {fill : FillData} :
    Precise o fill ↔
      decimalContext.Representable (o.totalFilled + fill.filledQuantity) ∧
      decimalContext.Representable (o.originalQuantity - (o.totalFilled + fill.filledQuantity)) ∧
      decimalContext.Representable (fill.filledQuantity * fill.fillPrice) ∧
      decimalContext.Representable
        (notional o.fillHistory + fill.filledQuantity * fill.fillPrice) :=
  ⟨fun h => ⟨h.total, h.remaining, h.value, h.notional⟩,
    fun ⟨total, remaining, value, notional⟩ => ⟨total, remaining, value, notional⟩⟩

instance (o : OrderLifecycle) (fill : FillData) : Decidable (Precise o fill) :=
  decidable_of_iff _ precise_iff.symm

theorem filledQuantity_append (fills : List FillRecord) (f : FillRecord) :
    filledQuantity (fills ++ [f]) = filledQuantity fills + f.filledQuantity := by
  simp [filledQuantity]

theorem notional_append (fills : List FillRecord) (f : FillRecord) :
    notional (fills ++ [f]) = notional fills + f.filledQuantity * f.fillPrice := by
  simp [notional]

theorem totalValue_append (fills : List FillRecord) (f : FillRecord) :
    totalValue (fills ++ [f])
      = decimalContext.add (totalValue fills)
          (decimalContext.mul f.filledQuantity f.fillPrice) := by
  simp [totalValue]

/-! ## One operation on an order -/

section Fields

variable (o : OrderLifecycle) (now : ℚ) (newState : OrderState)

@[simp] theorem transitionTo_currentState :
    (o.transitionTo now newState).currentState = newState := rfl

@[simp] theorem transitionTo_originalQuantity :
    (o.transitionTo now newState).originalQuantity = o.originalQuantity := rfl

@[simp] theorem transitionTo_fillHistory :
    (o.transitionTo now newState).fillHistory = o.fillHistory := rfl

@[simp] theorem transitionTo_totalFilled :
    (o.transitionTo now newState).totalFilled = o.totalFilled := rfl

@[simp] theorem transitionTo_remainingQuantity :
    (o.transitionTo now newState).remainingQuantity = o.remainingQuantity := rfl

@[simp] theorem transitionTo_averageFillPrice :
    (o.transitionTo now newState).averageFillPrice = o.averageFillPrice := rfl

end Fields

theorem Booked.transitionTo {o : OrderLifecycle} (h : Booked o) (now : ℚ)
    (newState : OrderState) : Booked (o.transitionTo now newState) :=
  ⟨h.total, h.remaining, h.average⟩

section ApplyFill

variable (o : OrderLifecycle) (now : ℚ) (fill : FillData) (dedup : DedupResult)

@[simp] theorem applyFill_originalQuantity :
    (o.applyFill now fill dedup).originalQuantity = o.originalQuantity := by
  unfold OrderLifecycle.applyFill
  dsimp only
  split_ifs <;> rfl

@[simp] theorem applyFill_fillHistory :
    (o.applyFill now fill dedup).fillHistory
      = o.fillHistory ++ [o.fillRecord now fill dedup] := by
  unfold OrderLifecycle.applyFill
  dsimp only
  split_ifs <;> rfl

@[simp] theorem applyFill_totalFilled :
    (o.applyFill now fill dedup).totalFilled
      = decimalContext.add o.totalFilled fill.filledQuantity := by
  unfold OrderLifecycle.applyFill
  dsimp only
  split_ifs <;> rfl

@[simp] theorem applyFill_remainingQuantity :
    (o.applyFill now fill dedup).remainingQuantity
      = decimalContext.sub o.originalQuantity
          (decimalContext.add o.totalFilled fill.filledQuantity) := by
  unfold OrderLifecycle.applyFill
  dsimp only
  split_ifs <;> rfl

@[simp] theorem applyFill_averageFillPrice :
    (o.applyFill now fill dedup).averageFillPrice
      = some (decimalContext.div (totalValue (o.fillHistory ++ [o.fillRecord now fill dedup]))
          (decimalContext.add o.totalFilled fill.filledQuantity)) := by
  unfold OrderLifecycle.applyFill
  dsimp only
  split_ifs <;> rfl

theorem applyFill_currentState :
    (o.applyFill now fill dedup).currentState
      = if (o.applyFill now fill dedup).remainingQuantity = 0 then .filled
        else .partiallyFilled := by
  rw [applyFill_remainingQuantity]
  change _ = if (o.fillRecord now fill dedup).remainingQuantity = 0 then _ else _
  unfold OrderLifecycle.applyFill
  dsimp only
  split_ifs with h_zero h_state
  · rfl
  · rfl
  · exact not_not.mp h_state

end ApplyFill

variable {o : OrderLifecycle} {fill : FillData}

theorem Precise.total_eq (h : Precise o fill) :
    decimalContext.add o.totalFilled fill.filledQuantity
      = o.totalFilled + fill.filledQuantity :=
  Context.round_of_representable h.total

theorem Precise.remaining_eq (h : Precise o fill) :
    decimalContext.sub o.originalQuantity
        (decimalContext.add o.totalFilled fill.filledQuantity)
      = o.originalQuantity - (o.totalFilled + fill.filledQuantity) := by
  rw [h.total_eq]
  exact Context.round_of_representable h.remaining

theorem Booked.applyFill (h : Booked o) (h_value : totalValue o.fillHistory = notional o.fillHistory)
    (h_precise : Precise o fill) (now : ℚ) (dedup : DedupResult) :
    Booked (o.applyFill now fill dedup) ∧
      totalValue (o.applyFill now fill dedup).fillHistory
        = notional (o.applyFill now fill dedup).fillHistory := by
  have h_sum : totalValue (o.fillHistory ++ [o.fillRecord now fill dedup])
      = notional (o.fillHistory ++ [o.fillRecord now fill dedup]) := by
    rw [totalValue_append, notional_append, h_value]
    show decimalContext.round (notional o.fillHistory
      + decimalContext.round (fill.filledQuantity * fill.fillPrice)) = _
    rw [Context.round_of_representable h_precise.value,
      Context.round_of_representable h_precise.notional]
    rfl
  have h_total : o.totalFilled + fill.filledQuantity
      = filledQuantity (o.fillHistory ++ [o.fillRecord now fill dedup]) := by
    rw [filledQuantity_append, h.total]
    rfl
  refine ⟨⟨?_, ?_, ?_⟩, ?_⟩
  · rw [applyFill_totalFilled, applyFill_fillHistory, h_precise.total_eq, h_total]
  · rw [applyFill_remainingQuantity, applyFill_originalQuantity, applyFill_totalFilled,
      h_precise.remaining_eq, h_precise.total_eq]
  · rw [applyFill_averageFillPrice, applyFill_fillHistory, if_neg (by simp),
      h_precise.total_eq, h_sum, h_total]
    rfl
  · rw [applyFill_fillHistory]
    exact h_sum

theorem isTerminal_of_filled (h : o.currentState = .filled) : o.isTerminal = true := by
  simp [OrderLifecycle.isTerminal, h]

theorem Settled.applyFill (h_booked : Booked o) (h_precise : Precise o fill)
    (h_fits : fill.filledQuantity ≤ o.remainingQuantity) (now : ℚ) (dedup : DedupResult) :
    Settled (o.applyFill now fill dedup) := by
  have h_remaining : (o.applyFill now fill dedup).remainingQuantity
      = o.remainingQuantity - fill.filledQuantity := by
    rw [applyFill_remainingQuantity, h_precise.remaining_eq, h_booked.remaining]
    ring
  refine ⟨?_, ?_⟩
  · rw [h_remaining]
    exact sub_nonneg.mpr h_fits
  · rw [applyFill_currentState]
    split <;> simp_all

/-- Conversely, a fill that leaves the order settled fits in its remainder, and if it
    also leaves a terminal state alone it met an active order. -/
theorem fits_of_settled (h_pos : 0 < fill.filledQuantity) (h_booked : Booked o)
    (h_precise : Precise o fill) (h_settled : Settled o) {now : ℚ} {dedup : DedupResult}
    (h_after : Settled (o.applyFill now fill dedup))
    (h_final : o.isTerminal → (o.applyFill now fill dedup).currentState = o.currentState) :
    o.isTerminal = false ∧ fill.filledQuantity ≤ o.remainingQuantity := by
  have h_remaining : (o.applyFill now fill dedup).remainingQuantity
      = o.remainingQuantity - fill.filledQuantity := by
    rw [applyFill_remainingQuantity, h_precise.remaining_eq, h_booked.remaining]
    ring
  have h_fits : fill.filledQuantity ≤ o.remainingQuantity := by
    have h_nonneg := h_after.nonneg
    rw [h_remaining] at h_nonneg
    exact sub_nonneg.mp h_nonneg
  refine ⟨Bool.eq_false_iff.mpr fun h_terminal => ?_, h_fits⟩
  -- the one terminal state that a fill can leave in place is FILLED, with nothing to fill
  have h_state := h_final h_terminal
  rw [applyFill_currentState] at h_state
  have h_filled : o.currentState = .filled := by
    split at h_state
    · exact h_state.symm
    · rw [OrderLifecycle.isTerminal, ← h_state] at h_terminal
      simp at h_terminal
  have h_zero := h_settled.filled.mp h_filled
  linarith

/-! ## One operation of the engine -/

structure SameFigures (o o' : OrderLifecycle) : Prop where
  originalQuantity : o'.originalQuantity = o.originalQuantity
  fillHistory : o'.fillHistory = o.fillHistory
  totalFilled : o'.totalFilled = o.totalFilled
  remainingQuantity : o'.remainingQuantity = o.remainingQuantity
  averageFillPrice : o'.averageFillPrice = o.averageFillPrice

/-- What an operation can do to the order `id`. -/
inductive Evolves (e : OrderStateEngine) (id : String) (op : Operation) :
    Option OrderLifecycle → Option OrderLifecycle → Prop
  | same (o : Option OrderLifecycle) : Evolves e id op o o
  | created (o : Option OrderLifecycle) (now : ℚ) (userId symbol side orderType : String)
      (quantity : ℚ) (timeoutSeconds : Option ℚ)
      (h_op : op = .createOrder now id userId symbol side orderType quantity timeoutSeconds) :
      Evolves e id op o
        (some (e.newOrder now id userId symbol side orderType quantity timeoutSeconds))
  | filled (o : OrderLifecycle) (now : ℚ) (fill : FillData) (dedup : DedupResult)
      (h_op : op = .addFill now id fill dedup) (h_dedup : dedup ≠ .duplicateRejected) :
      Evolves e id op (some o) (some (o.applyFill now fill dedup))
  | moved (o o' : OrderLifecycle) (h_figures : SameFigures o o')
      (h_state : o'.currentState ≠ .filled) (h_active : o.isTerminal = false) :
      Evolves e id op (some o) (some o')
  | resumed (o : OrderLifecycle) (now : ℚ) (h_op : op = .cancelResume now id false)
      (h_awaiting : id ∈ e.awaitingCancel) :
      Evolves e id op (some o) (some (o.transitionTo now .cancelled))

theorem change_activeOrders (e : OrderStateEngine) (orderId id : String)
    (f : OrderLifecycle → OrderLifecycle) :
    (e.change orderId f).activeOrders id =
      if orderId = id then (e.activeOrders id).map f else e.activeOrders id := by
  unfold OrderStateEngine.change
  by_cases h : orderId = id
  · subst h
    rw [if_pos rfl]
    cases h_order : e.activeOrders orderId with
    | none => simp [h_order]
    | some o => simp [OrderStateEngine.put]
  · rw [if_neg h]
    cases e.activeOrders orderId with
    | none => rfl
    | some o => simp [OrderStateEngine.put, Function.update_of_ne (Ne.symm h)]

variable {e : OrderStateEngine} {id : String} {op : Operation}

theorem evolves_change (orderId : String) (f : OrderLifecycle → OrderLifecycle)
    (h : ∀ o, f o = o ∨ SameFigures o (f o) ∧ (f o).currentState ≠ .filled ∧ o.isTerminal = false) :
    Evolves e id op (e.activeOrders id) ((e.change orderId f).activeOrders id) := by
  rw [change_activeOrders]
  split
  · cases e.activeOrders id with
    | none => exact .same none
    | some o =>
      obtain h_same | ⟨h_figures, h_state, h_active⟩ := h o
      · rw [Option.map_some, h_same]
        exact .same _
      · exact .moved o (f o) h_figures h_state h_active
  · exact .same _

theorem sameFigures_transitionTo (o : OrderLifecycle) (now : ℚ) (newState : OrderState) :
    SameFigures o (o.transitionTo now newState) :=
  ⟨rfl, rfl, rfl, rfl, rfl⟩

theorem step_evolves (e : OrderStateEngine) (id : String) (op : Operation) :
    Evolves e id op (e.activeOrders id) ((e.step op).activeOrders id) := by
  cases op with
  | createOrder now orderId userId symbol side orderType quantity timeoutSeconds =>
    show Evolves e id _ _ (Function.update e.activeOrders orderId _ id)
    by_cases h : orderId = id
    · subst h
      rw [Function.update_self]
      exact .created _ now userId symbol side orderType quantity timeoutSeconds rfl
    · rw [Function.update_of_ne (Ne.symm h)]
      exact .same _
  | submitOrder now orderId =>
    refine evolves_change orderId _ fun o => ?_
    by_cases h : o.currentState = .created
    · refine .inr ⟨?_, ?_, ?_⟩
      · simp only [h, ne_eq, not_true_eq_false, ite_false]
        exact sameFigures_transitionTo o now .submitted
      · simp [h]
      · simp [OrderLifecycle.isTerminal, h]
    · exact .inl (if_pos h)
  | confirmOpen now orderId =>
    refine evolves_change orderId _ fun o => ?_
    by_cases h : o.currentState = .submitted ∨ o.currentState = .created
    · refine .inr ⟨?_, ?_, ?_⟩
      · simp only [h, ite_true]
        exact sameFigures_transitionTo o now .open
      · simp [h]
      · obtain h | h := h <;> simp [OrderLifecycle.isTerminal, h]
    · exact .inl (if_neg h)
  | addFill now orderId fill dedup =>
    show Evolves e id _ _ ((e.change orderId _).activeOrders id)
    rw [change_activeOrders]
    split
    · rename_i h
      subst h
      cases e.activeOrders orderId with
      | none => exact .same none
      | some o =>
        by_cases h_dedup : dedup = .duplicateRejected
        · simp only [Option.map_some, h_dedup, ite_true]
          exact .same _
        · simp only [Option.map_some, h_dedup, ite_false]
          exact .filled o now fill dedup rfl h_dedup
    · exact .same _
  | cancelOrder orderId =>
    have h_same : (e.step (.cancelOrder orderId)).activeOrders = e.activeOrders := by
      show (e.cancelOrder orderId).activeOrders = _
      unfold OrderStateEngine.cancelOrder
      split
      · rfl
      · split <;> rfl
    rw [h_same]
    exact .same _
  | cancelResume now orderId duplicate =>
    show Evolves e id _ _ ((e.cancelResume now orderId duplicate).activeOrders id)
    unfold OrderStateEngine.cancelResume
    by_cases h_awaiting : orderId ∈ e.awaitingCancel
    · rw [if_pos h_awaiting]
      cases duplicate with
      | true => exact .same _
      | false =>
        simp only [Bool.false_eq_true, ite_false]
        rw [change_activeOrders]
        split
        · rename_i h
          subst h
          show Evolves e orderId _ (e.activeOrders orderId) ((e.activeOrders orderId).map _)
          cases e.activeOrders orderId with
          | none => exact .same none
          | some o => exact .resumed o now rfl h_awaiting
        · exact .same _
    · rw [if_neg h_awaiting]
      exact .same _
  | failOrder now orderId errorMessage errorCode =>
    refine evolves_change orderId _ fun o => ?_
    cases h : o.isTerminal with
    | true => exact .inl (by simp)
    | false => exact .inr ⟨by simpa using ⟨rfl, rfl, rfl, rfl, rfl⟩, by simp, rfl⟩
  | timeoutOrder now orderId =>
    refine evolves_change orderId _ fun o => ?_
    cases h : o.isTerminal with
    | true => exact .inl (by simp)
    | false =>
      exact .inr ⟨by simpa using sameFigures_transitionTo o now .timedOut, by simp, rfl⟩

/-! ## Runs -/

abbrev transition (e : OrderStateEngine) (op : Operation) : Except Empty OrderStateEngine :=
  .ok (e.step op)

abbrev run (d : ℚ) (ops : List Operation) : OrderStateEngine :=
  Run.final transition (.initial d) ops

/-- `M` holds of every operation of a run in the engine that it meets. -/
abbrev Throughout (d : ℚ) (M : OrderStateEngine → Operation → Prop) (ops : List Operation) :
    Prop :=
  Run.Throughout transition M (.initial d) ops

theorem run_append_singleton (d : ℚ) (ops : List Operation) (op : Operation) :
    run d (ops ++ [op]) = (run d ops).step op := by
  show Run.final _ _ _ = _
  unfold Run.final
  rw [List.foldl_append]
  rfl

/-- Orders are of positive quantity, and so are fills. -/
def Operation.Positive : Operation → Prop
  | createOrder _ _ _ _ _ _ quantity _ => 0 < quantity
  | addFill _ _ fill _ => 0 < fill.filledQuantity ∧ 0 < fill.fillPrice
  | _ => True

/-- A fill that the engine applies to the order `id` is precise. -/
def PreciseAt (id : String) (e : OrderStateEngine) : Operation → Prop
  | .addFill _ orderId fill dedup =>
    orderId = id → dedup ≠ .duplicateRejected → ∀ o ∈ e.activeOrders id, Precise o fill
  | _ => True

/-- A fill of the order `id` meets an active order and fits in its remainder, a cancel is
    not resumed on an order that ended otherwise, and no order is created over an ended one. -/
def Admissible (id : String) (e : OrderStateEngine) : Operation → Prop
  | .createOrder _ orderId _ _ _ _ _ _ =>
    orderId = id → ∀ o ∈ e.activeOrders id, o.isTerminal = false
  | .addFill _ orderId fill dedup =>
    orderId = id → dedup ≠ .duplicateRejected → ∀ o ∈ e.activeOrders id,
      o.isTerminal = false ∧ fill.filledQuantity ≤ o.remainingQuantity
  | .cancelResume _ orderId duplicate =>
    orderId = id → orderId ∈ e.awaitingCancel → duplicate = false →
      ∀ o ∈ e.activeOrders id, o.isTerminal = false ∨ o.currentState = .cancelled
  | _ => True

/-- What holds of the order `id` over a whole run: its figures are those of its fills, its
    state follows its remainder, and a terminal state never changes again. -/
structure OrderInvariant (d : ℚ) (ops : List Operation) (id : String) : Prop where
  booked : ∀ pre, pre <+: ops → ∀ o ∈ (run d pre).activeOrders id, Booked o
  settled : ∀ pre, pre <+: ops → ∀ o ∈ (run d pre).activeOrders id, Settled o
  terminal : ∀ pre mid, pre ++ mid <+: ops → ∀ o ∈ (run d pre).activeOrders id,
    o.isTerminal → ∃ o' ∈ (run d (pre ++ mid)).activeOrders id,
      o'.currentState = o.currentState

/-- Figures of which the value is the one that the engine adds up. -/
structure Valued (o : OrderLifecycle) : Prop where
  booked : Booked o
  value : totalValue o.fillHistory = notional o.fillHistory

theorem SameFigures.valued {o o' : OrderLifecycle} (h : SameFigures o o') (h_valued : Valued o) :
    Valued o' := by
  refine ⟨⟨?_, ?_, ?_⟩, ?_⟩
  · rw [h.totalFilled, h.fillHistory, h_valued.booked.total]
  · rw [h.remainingQuantity, h.originalQuantity, h.totalFilled, h_valued.booked.remaining]
  · rw [h.averageFillPrice, h.fillHistory, h_valued.booked.average]
  · rw [h.fillHistory, h_valued.value]

theorem newOrder_valued (e : OrderStateEngine) (now : ℚ)
    (id userId symbol side orderType : String) (quantity : ℚ) (timeoutSeconds : Option ℚ) :
    Valued (e.newOrder now id userId symbol side orderType quantity timeoutSeconds) :=
  ⟨⟨rfl, by simp [OrderStateEngine.newOrder], rfl⟩, rfl⟩

theorem valued_step (h : ∀ o ∈ e.activeOrders id, Valued o) (h_precise : PreciseAt id e op) :
    ∀ o ∈ (e.step op).activeOrders id, Valued o := by
  have h_evolves := step_evolves e id op
  generalize h_before : e.activeOrders id = before at *
  generalize (e.step op).activeOrders id = after at *
  intro o h_o
  cases h_evolves with
  | same => exact h o h_o
  | created =>
    cases h_o
    exact newOrder_valued e _ _ _ _ _ _ _ _
  | filled o₀ now fill dedup h_op h_dedup =>
    cases h_o
    subst h_op
    have h_valued := h o₀ rfl
    obtain ⟨h_booked, h_value⟩ := h_valued.booked.applyFill h_valued.value
      (h_precise rfl h_dedup o₀ h_before) now dedup
    exact ⟨h_booked, h_value⟩
  | moved o₀ o' h_figures =>
    cases h_o
    exact h_figures.valued (h o₀ rfl)
  | resumed o₀ now =>
    cases h_o
    exact (sameFigures_transitionTo o₀ now .cancelled).valued (h o₀ rfl)

theorem valued_run {d : ℚ} {ops : List Operation} (h_precise : Throughout d (PreciseAt id) ops) :
    ∀ o ∈ (run d ops).activeOrders id, Valued o := by
  refine Run.final_invariant_of_throughout (I := fun e => ∀ o ∈ e.activeOrders id, Valued o)
    ?_ ?_ h_precise
  · intro e op e' h_e h_op h_step
    cases h_step
    exact valued_step h_e h_op
  · intro o h_o
    cases h_o

theorem settled_step (h_positive : op.Positive) (h_valued : ∀ o ∈ e.activeOrders id, Valued o)
    (h_settled : ∀ o ∈ e.activeOrders id, Settled o) (h_precise : PreciseAt id e op)
    (h_admissible : Admissible id e op) : ∀ o ∈ (e.step op).activeOrders id, Settled o := by
  have h_evolves := step_evolves e id op
  generalize h_before : e.activeOrders id = before at *
  generalize (e.step op).activeOrders id = after at *
  intro o h_o
  cases h_evolves with
  | same => exact h_settled o h_o
  | created o₀ now userId symbol side orderType quantity timeoutSeconds h_op =>
    cases h_o
    subst h_op
    have h_pos : 0 < quantity := h_positive
    exact ⟨h_pos.le, ⟨nofun, fun h_zero => absurd h_zero h_pos.ne'⟩⟩
  | filled o₀ now fill dedup h_op h_dedup =>
    cases h_o
    subst h_op
    exact Settled.applyFill (h_valued o₀ rfl).booked (h_precise rfl h_dedup o₀ h_before)
      (h_admissible rfl h_dedup o₀ h_before).2 now dedup
  | moved o₀ o' h_figures h_state h_active =>
    cases h_o
    have h_o₀ := h_settled o₀ rfl
    refine ⟨h_figures.remainingQuantity ▸ h_o₀.nonneg, ?_⟩
    rw [h_figures.remainingQuantity]
    refine ⟨fun h_filled => absurd h_filled h_state, fun h_zero => ?_⟩
    rw [isTerminal_of_filled (h_o₀.filled.mpr h_zero)] at h_active
    cases h_active
  | resumed o₀ now h_op h_awaiting =>
    cases h_o
    subst h_op
    have h_o₀ := h_settled o₀ rfl
    refine ⟨h_o₀.nonneg, nofun, fun h_zero => ?_⟩
    -- an order with nothing left is FILLED, and no admissible cancel resumes on that
    have h_filled := h_o₀.filled.mpr h_zero
    obtain h_active | h_cancelled := h_admissible rfl h_awaiting rfl o₀ h_before
    · rw [isTerminal_of_filled h_filled] at h_active
      cases h_active
    · rw [h_filled] at h_cancelled
      cases h_cancelled

theorem terminal_step (h_admissible : Admissible id e op) {o : OrderLifecycle}
    (h_o : o ∈ e.activeOrders id) (h_terminal : o.isTerminal) :
    ∃ o' ∈ (e.step op).activeOrders id, o'.currentState = o.currentState := by
  have h_evolves := step_evolves e id op
  rw [show e.activeOrders id = some o from h_o] at h_evolves
  generalize (e.step op).activeOrders id = after at *
  have h_ended : o.isTerminal ≠ false := by simp [h_terminal]
  cases h_evolves with
  | same => exact ⟨o, rfl, rfl⟩
  | created _ _ _ _ _ _ _ _ h_op =>
    subst h_op
    exact absurd (h_admissible rfl o h_o) h_ended
  | filled _ now fill dedup h_op h_dedup =>
    subst h_op
    exact absurd (h_admissible rfl h_dedup o h_o).1 h_ended
  | moved _ o' _ _ h_active => exact absurd h_active h_ended
  | resumed _ now h_op h_awaiting =>
    subst h_op
    obtain h_active | h_cancelled := h_admissible rfl h_awaiting rfl o h_o
    · exact absurd h_active h_ended
    · exact ⟨_, rfl, h_cancelled.symm⟩

theorem settled_run {d : ℚ} {ops : List Operation} (h_positive : ∀ op ∈ ops, op.Positive)
    (h_precise : Throughout d (PreciseAt id) ops)
    (h_admissible : Throughout d (Admissible id) ops) :
    ∀ o ∈ (run d ops).activeOrders id, Settled o := by
  induction ops using List.reverseRecOn with
  | nil =>
    intro o h_o
    cases h_o
  | append_singleton ops op ih =>
    have h_before := ih (fun op h => h_positive op (List.mem_append_left _ h))
      h_precise.of_prefix h_admissible.of_prefix
    rw [run_append_singleton]
    exact settled_step (h_positive op (by simp)) (valued_run h_precise.of_prefix) h_before
      (h_precise ops op [] rfl) (h_admissible ops op [] rfl)

theorem terminal_run {d : ℚ} {pre mid : List Operation}
    (h_admissible : Throughout d (Admissible id) (pre ++ mid)) {o : OrderLifecycle}
    (h_o : o ∈ (run d pre).activeOrders id) (h_terminal : o.isTerminal) :
    ∃ o' ∈ (run d (pre ++ mid)).activeOrders id, o'.currentState = o.currentState := by
  induction mid using List.reverseRecOn with
  | nil => exact ⟨o, by rwa [List.append_nil], rfl⟩
  | append_singleton mid op ih =>
    rw [← List.append_assoc] at h_admissible ⊢
    obtain ⟨o₁, h_o₁, h_state⟩ := ih h_admissible.of_prefix
    have h_terminal₁ : o₁.isTerminal := by
      rw [OrderLifecycle.isTerminal, h_state]
      exact h_terminal
    rw [run_append_singleton]
    obtain ⟨o₂, h_o₂, h_state₂⟩ :=
      terminal_step (h_admissible (pre ++ mid) op [] rfl) h_o₁ h_terminal₁
    exact ⟨o₂, h_o₂, h_state₂.trans h_state⟩

/-- In a run where the engine's arithmetic is exact, an order keeps its invariant exactly
    when no fill meets it in a terminal state or exceeds its remainder, no cancel resumes
    on it after it ended otherwise, and it is not created over. -/
theorem orderInvariant_iff (d : ℚ) (ops : List Operation) (id : String)
    (h_positive : ∀ op ∈ ops, op.Positive) (h_precise : Throughout d (PreciseAt id) ops) :
    OrderInvariant d ops id ↔ Throughout d (Admissible id) ops := by
  constructor
  · intro h pre op post h_ops
    have h_pre : pre <+: ops := ⟨op :: post, h_ops.symm⟩
    have h_next : pre ++ [op] <+: ops := ⟨post, by simp [h_ops]⟩
    have h_precise_op := h_precise pre op post h_ops
    have h_positive_op := h_positive op (by simp [h_ops])
    have h_evolves := run_append_singleton d pre op
    cases op with
    | createOrder now orderId userId symbol side orderType quantity timeoutSeconds =>
      rintro rfl o h_o
      refine Bool.eq_false_iff.mpr fun h_terminal => ?_
      obtain ⟨o', h_o', h_state⟩ := h.terminal pre [_] h_next o h_o h_terminal
      rw [h_evolves] at h_o'
      have h_new : o'.currentState = .created := by
        simp only [OrderStateEngine.step, OrderStateEngine.createOrder, OrderStateEngine.put,
          Function.update_self, Option.mem_def, Option.some.injEq] at h_o'
        rw [← h_o']
        rfl
      rw [OrderLifecycle.isTerminal, ← h_state, h_new] at h_terminal
      simp at h_terminal
    | addFill now orderId fill dedup =>
      rintro rfl h_dedup o h_o
      have h_after : o.applyFill now fill dedup ∈
          (run d (pre ++ [.addFill now orderId fill dedup])).activeOrders orderId := by
        rw [h_evolves]
        show _ ∈ (OrderStateEngine.change _ _ _).activeOrders orderId
        rw [change_activeOrders, if_pos rfl,
          show (run d pre).activeOrders orderId = some o from h_o]
        simp [h_dedup]
      refine fits_of_settled h_positive_op.1 (h.booked pre h_pre o h_o)
        (h_precise_op rfl h_dedup o h_o) (h.settled pre h_pre o h_o)
        (h.settled _ h_next _ h_after) fun h_terminal => ?_
      obtain ⟨o', h_o', h_state⟩ := h.terminal pre [_] h_next o h_o h_terminal
      rw [Option.mem_unique h_after h_o']
      exact h_state
    | cancelResume now orderId duplicate =>
      rintro rfl h_awaiting rfl o h_o
      refine or_iff_not_imp_left.mpr fun h_ended => ?_
      have h_after : o.transitionTo now .cancelled ∈
          (run d (pre ++ [.cancelResume now orderId false])).activeOrders orderId := by
        rw [h_evolves]
        show _ ∈ (OrderStateEngine.cancelResume _ _ _ _).activeOrders orderId
        rw [OrderStateEngine.cancelResume, if_pos h_awaiting, if_neg Bool.false_ne_true,
          change_activeOrders, if_pos rfl]
        show _ ∈ ((run d pre).activeOrders orderId).map _
        rw [show (run d pre).activeOrders orderId = some o from h_o]
        rfl
      obtain ⟨o', h_o', h_state⟩ := h.terminal pre [_] h_next o h_o (by simpa using h_ended)
      rw [← h_state, ← Option.mem_unique h_after h_o']
      rfl
    | submitOrder now orderId => trivial
    | confirmOpen now orderId => trivial
    | cancelOrder orderId => trivial
    | failOrder now orderId errorMessage errorCode => trivial
    | timeoutOrder now orderId => trivial
  · intro h
    refine ⟨?_, ?_, ?_⟩
    · rintro pre ⟨rest, rfl⟩ o h_o
      exact (valued_run h_precise.of_prefix o h_o).booked
    · rintro pre ⟨rest, rfl⟩ o h_o
      exact settled_run (fun op h_op => h_positive op (List.mem_append_left _ h_op))
        h_precise.of_prefix h.of_prefix o h_o
    · rintro pre mid ⟨rest, rfl⟩ o h_o h_terminal
      exact terminal_run h.of_prefix h_o h_terminal

/-- A market order of one unit, opened and then filled by its whole quantity twice. -/
def filledTwice : List Operation :=
  [.createOrder 0 "ord_1" "u" "BTCUSDT" "buy" "market" 1 none, .submitOrder 0 "ord_1",
    .confirmOpen 0 "ord_1", .addFill 1 "ord_1" ⟨1, 100, "t1", 0, ""⟩ .notAsked,
    .addFill 2 "ord_1" ⟨1, 100, "t2", 0, ""⟩ .notAsked]

theorem filledTwice_positive : ∀ op ∈ filledTwice, op.Positive := by
  intro op h_op
  simp only [filledTwice, List.mem_cons, List.not_mem_nil, or_false] at h_op
  rcases h_op with rfl | rfl | rfl | rfl | rfl <;> simp [Operation.Positive]

theorem filledTwice_precise : Throughout 30 (PreciseAt "ord_1") filledTwice := by
  simp only [Throughout, filledTwice, Run.throughout_cons, Run.throughout_nil, PreciseAt,
    true_and, and_true]
  refine ⟨fun _ _ => ?_, fun _ _ => ?_⟩
  · decide +kernel
  · decide +kernel

/-- The run of two whole fills keeps no invariant, and the second fill is the reason. -/
theorem filledTwice_iff :
    OrderInvariant 30 filledTwice "ord_1" ↔ Throughout 30 (Admissible "ord_1") filledTwice :=
  orderInvariant_iff 30 filledTwice "ord_1" filledTwice_positive filledTwice_precise

/-- The second fill leaves a negative remainder. -/
theorem not_orderInvariant :
    ¬ ∀ d ops id, (∀ op ∈ ops, Operation.Positive op) → OrderInvariant d ops id := by
  intro h
  have h_remaining : ((run 30 filledTwice).activeOrders "ord_1").map (·.remainingQuantity)
      = some (-1) := by decide +kernel
  obtain ⟨o, h_o, h_o_remaining⟩ := Option.map_eq_some_iff.mp h_remaining
  have h_nonneg := ((h 30 filledTwice "ord_1" filledTwice_positive).settled filledTwice
    List.prefix_rfl o h_o).nonneg
  rw [h_o_remaining] at h_nonneg
  norm_num at h_nonneg

end VyomQuant.OrderEngine
