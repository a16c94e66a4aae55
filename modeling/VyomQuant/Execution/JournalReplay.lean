/-
  VyomQuant.Execution.JournalReplay

  State rebuilt from the event journal: the events of a tenant, in the order of
  their sequence numbers, applied to orders, positions, executions and fills.

  Only `FILL_RECEIVED` is looked up in the fill registry, and nothing of the replay
  is registered there.  So a replay with repeated events rebuilds what the journal
  without them does where every repetition finds its effect in place already
  (`Settled`), which the repetition of a fill never does on its own; and the
  position of a fill follows its side only if it is long (`holds_of_throughout`).
-/

import VyomQuant.Lib.DecimalContext
import VyomQuant.Lib.KeyedList
import VyomQuant.Lib.KeySort
import VyomQuant.Lib.Redelivery

namespace VyomQuant.JournalReplay

open Decimal Redelivery

/-! ## Events -/

/-- A field of a payload that is parsed: it may be missing, or not be what the parser takes. -/
inductive Field (α : Type) where
  | absent
  | malformed
  | given (x : α)

/-- `parse(payload.get(name, default))`: `none` where the parser raises. -/
def Field.read {α : Type} (default : α) : Field α → Option α
  | .absent => some default
  | .malformed => none
  | .given x => some x

/-- A text that counts: neither missing nor empty. -/
def truthy (text : Option String) : Option String := text.filter fun t => t ≠ ""

/-- The payload of `ORDER_SUBMITTED`. -/
structure OrderSubmitted where
  orderId : Option String
  tenantId : Option String
  strategyId : Option String
  symbol : Option String
  side : Option String
  orderType : Option String
  quantity : Field ℚ
  price : Field ℚ
  timestamp : Field String

/-- The payload of `ORDER_FILLED`. -/
structure OrderFilled where
  orderId : Option String
  positionId : Option String
  fillId : Option String
  filledQuantity : Field ℚ
  fillPrice : Field ℚ
  timestamp : Option String
  exchangeTradeId : Option String

/-- The payload of `POSITION_OPENED`. -/
structure PositionOpened where
  positionId : Option String
  tenantId : Option String
  strategyId : Option String
  symbol : Option String
  side : Option String
  quantity : Field ℚ
  entryPrice : Field ℚ
  currentPrice : Field ℚ
  unrealizedPnl : Field ℚ
  realizedPnl : Field ℚ
  timestamp : Field String

/-- The payload of `POSITION_UPDATED`. -/
structure PositionUpdated where
  positionId : Option String
  quantity : Field ℚ
  currentPrice : Field ℚ
  unrealizedPnl : Field ℚ
  realizedPnl : Field ℚ

/-- The payload of `POSITION_CLOSED`. -/
structure PositionClosed where
  positionId : Option String
  realizedPnl : Field ℚ

/-- The payload of `EXECUTION_SUBMITTED`. -/
structure ExecutionSubmitted where
  executionId : Option String
  tenantId : Option String
  strategyId : Option String
  signalId : Option String
  symbol : Option String
  side : Option String
  size : Field ℚ
  price : Field ℚ
  timestamp : Field String

/-- The payload of `EXECUTION_COMPLETED`. -/
structure ExecutionCompleted where
  executionId : Option String
  timestamp : Field String

/-- The payload of `FILL_RECEIVED`, which is kept as it is. -/
structure FillReceived where
  fillId : Option String
  tenantId : Option String
  fillHash : Option String
  orderId : Option String
  symbol : Option String
  side : Option String
  filledQuantity : Option String
  fillPrice : Option String
  timestamp : Option String
  exchangeTradeId : Option String

/-- An event, by its `event_type`. -/
inductive Body where
  | orderSubmitted (payload : OrderSubmitted)
  | orderAccepted (orderId : Option String)
  | orderFilled (payload : OrderFilled)
  | orderCancelled (orderId : Option String)
  | positionOpened (payload : PositionOpened)
  | positionUpdated (payload : PositionUpdated)
  | positionClosed (payload : PositionClosed)
  | executionSubmitted (payload : ExecutionSubmitted)
  | executionCompleted (payload : ExecutionCompleted)
  | fillReceived (payload : FillReceived)
  | unknown

structure Event where
  sequence : Option ℤ
  body : Body

/-- `e.get("sequence", 0)`. -/
def Event.key (e : Event) : ℤ := e.sequence.getD 0

/-! ## What is rebuilt -/

inductive OrderStatus where
  | submitted
  | accepted
  | cancelled
  deriving DecidableEq

inductive PositionStatus where
  | open
  | closed
  deriving DecidableEq

inductive ExecutionStatus where
  | submitted
  | completed

/-- The record of a fill, as an order and the list of fills hold it. -/
structure FillRecord where
  fillId : Option String
  orderId : String
  filledQuantity : ℚ
  fillPrice : ℚ
  timestamp : Option String
  exchangeTradeId : Option String
  deriving DecidableEq

/-- `ReconstructedOrder`; a missing `createdAt` is the clock of the replay. -/
structure ReconstructedOrder where
  orderId : String
  tenantId : Option String
  strategyId : Option String
  symbol : Option String
  side : Option String
  orderType : Option String
  quantity : ℚ
  price : ℚ
  status : OrderStatus
  filledQuantity : ℚ
  remainingQuantity : ℚ
  createdAt : Option String
  fills : List FillRecord
  deriving DecidableEq

/-- `ReconstructedPosition`. -/
structure ReconstructedPosition where
  positionId : String
  tenantId : Option String
  strategyId : Option String
  symbol : Option String
  side : Option String
  quantity : ℚ
  entryPrice : ℚ
  currentPrice : ℚ
  unrealizedPnl : ℚ
  realizedPnl : ℚ
  status : PositionStatus
  openedAt : Option String
  deriving DecidableEq

/-- `ReconstructedExecution`. -/
structure ReconstructedExecution where
  executionId : String
  tenantId : Option String
  strategyId : Option String
  signalId : Option String
  symbol : Option String
  side : Option String
  size : ℚ
  price : ℚ
  status : ExecutionStatus
  createdAt : Option String
  completedAt : Option (Option String)

inductive FillEntry where
  | ofOrder (record : FillRecord)
  | received (payload : FillReceived)

abbrev Orders := KeyedList ReconstructedOrder.orderId
abbrev Positions := KeyedList ReconstructedPosition.positionId
abbrev Executions := KeyedList ReconstructedExecution.executionId

/-- The collections that the events update, and the numbers of the events that raised. -/
structure Rebuilt where
  positions : Positions
  orders : Orders
  executions : Executions
  fills : List FillEntry
  errors : List (Option ℤ)

def Rebuilt.empty : Rebuilt := ⟨.empty, .empty, .empty, [], []⟩

/-! ## The handlers

A handler returns what it leaves, and whether it raised. -/

/-- A field that is parsed with the clock of the replay as its default. -/
def Field.readTime : Field String → Option (Option String)
  | .absent => some none
  | .malformed => none
  | .given t => some (some t)

/-- The order of a submission, if its fields can be parsed. -/
def submittedOrder (payload : OrderSubmitted) (orderId : String) : Option ReconstructedOrder :=
  match payload.quantity.read 0, payload.price.read 0, payload.timestamp.readTime with
  | some quantity, some price, some createdAt =>
    some {
      orderId
      tenantId := payload.tenantId
      strategyId := payload.strategyId
      symbol := payload.symbol
      side := payload.side
      orderType := payload.orderType
      quantity
      price
      status := .submitted
      filledQuantity := 0
      remainingQuantity := quantity
      createdAt
      fills := [] }
  | _, _, _ => none

/-- `_apply_order_submitted`. -/
def applyOrderSubmitted (payload : OrderSubmitted) (orders : Orders) : Orders × Bool :=
  match truthy payload.orderId with
  | none => (orders, false)
  | some orderId =>
    match submittedOrder payload orderId with
    | some order => (orders.put order, false)
    | none => (orders, true)

/-- `_apply_order_accepted` and `_apply_order_cancelled`: the status of a known order. -/
def applyOrderStatus (status : OrderStatus) (orderId : Option String) (orders : Orders) : Orders :=
  match orderId.bind orders.get? with
  | none => orders
  | some order => orders.put { order with status }

def filledOrder (order : ReconstructedOrder) (record : FillRecord) : ReconstructedOrder :=
  let filledQuantity := Context.default.add order.filledQuantity record.filledQuantity
  { order with
    filledQuantity
    remainingQuantity := Context.default.sub order.quantity filledQuantity
    fills := order.fills ++ [record] }

def filledPosition (side : Option String) (filledQuantity : ℚ) (position : ReconstructedPosition) :
    ReconstructedPosition :=
  { position with
    quantity :=
      if side = some "buy" then Context.default.add position.quantity filledQuantity
      else Context.default.sub position.quantity filledQuantity }

/-- The record that a fill of a known order writes. -/
def fillRecord (payload : OrderFilled) (orderId : String) (filledQuantity fillPrice : ℚ) :
    FillRecord where
  fillId := payload.fillId
  orderId := orderId
  filledQuantity := filledQuantity
  fillPrice := fillPrice
  timestamp := payload.timestamp
  exchangeTradeId := payload.exchangeTradeId

/-- The order that `_apply_order_filled` fills, and the record of the fill, if it gets so far. -/
def fillOf (s : Rebuilt) (payload : OrderFilled) : Option (ReconstructedOrder × FillRecord) :=
  match payload.orderId.bind s.orders.get? with
  | none => none
  | some order =>
    match payload.filledQuantity.read 0, payload.fillPrice.read 0 with
    | some filledQuantity, some fillPrice =>
      some (order, fillRecord payload order.orderId filledQuantity fillPrice)
    | _, _ => none

/-- The position that a payload names. -/
def positionOf (s : Rebuilt) (positionId : Option String) : Option ReconstructedPosition :=
  (truthy positionId).bind s.positions.get?

/-- `_apply_order_filled`; it raises on the figures of a known order only. -/
def applyOrderFilled (payload : OrderFilled) (s : Rebuilt) : Rebuilt × Bool :=
  match fillOf s payload with
  | none => (s, (payload.orderId.bind s.orders.get?).isSome)
  | some (order, record) =>
    ({ s with
      orders := s.orders.put (filledOrder order record)
      fills := s.fills ++ [.ofOrder record]
      positions :=
        match positionOf s payload.positionId with
        | none => s.positions
        | some position =>
          s.positions.put (filledPosition order.side record.filledQuantity position) }, false)

/-- The position of an opening, if its fields can be parsed. -/
def openedPosition (payload : PositionOpened) (positionId : String) :
    Option ReconstructedPosition :=
  match payload.quantity.read 0, payload.entryPrice.read 0, payload.currentPrice.read 0,
    payload.unrealizedPnl.read 0, payload.realizedPnl.read 0, payload.timestamp.readTime with
  | some quantity, some entryPrice, some currentPrice, some unrealizedPnl, some realizedPnl,
    some openedAt =>
    some {
      positionId
      tenantId := payload.tenantId
      strategyId := payload.strategyId
      symbol := payload.symbol
      side := payload.side
      quantity
      entryPrice
      currentPrice
      unrealizedPnl
      realizedPnl
      status := .open
      openedAt }
  | _, _, _, _, _, _ => none

/-- `_apply_position_opened`. -/
def applyPositionOpened (payload : PositionOpened) (positions : Positions) : Positions × Bool :=
  match truthy payload.positionId with
  | none => (positions, false)
  | some positionId =>
    match openedPosition payload positionId with
    | some position => (positions.put position, false)
    | none => (positions, true)

/-- The figures of a position are assigned one by one; one that cannot be parsed ends it. -/
def updatedPosition (payload : PositionUpdated) (position : ReconstructedPosition) :
    ReconstructedPosition × Bool :=
  match payload.quantity.read position.quantity with
  | none => (position, true)
  | some quantity =>
    let position := { position with quantity }
    match payload.currentPrice.read position.currentPrice with
    | none => (position, true)
    | some currentPrice =>
      let position := { position with currentPrice }
      match payload.unrealizedPnl.read position.unrealizedPnl with
      | none => (position, true)
      | some unrealizedPnl =>
        let position := { position with unrealizedPnl }
        match payload.realizedPnl.read position.realizedPnl with
        | none => (position, true)
        | some realizedPnl => ({ position with realizedPnl }, false)

/-- The status is assigned before the profit is parsed. -/
def closedPosition (payload : PositionClosed) (position : ReconstructedPosition) :
    ReconstructedPosition × Bool :=
  match payload.realizedPnl.read position.realizedPnl with
  | none => ({ position with status := .closed }, true)
  | some realizedPnl =>
    ({ position with status := .closed, realizedPnl, unrealizedPnl := 0 }, false)

/-- `_apply_position_updated` and `_apply_position_closed`: a change of a known position. -/
def applyToPosition (positionId : Option String)
    (change : ReconstructedPosition → ReconstructedPosition × Bool) (positions : Positions) :
    Positions × Bool :=
  match positionId.bind positions.get? with
  | none => (positions, false)
  | some position => (positions.put (change position).1, (change position).2)

/-- `_apply_execution_submitted`. -/
def applyExecutionSubmitted (payload : ExecutionSubmitted) (executions : Executions) :
    Executions × Bool :=
  match truthy payload.executionId with
  | none => (executions, false)
  | some executionId =>
    match payload.size.read 0, payload.price.read 0, payload.timestamp.readTime with
    | some size, some price, some createdAt =>
      (executions.put {
        executionId
        tenantId := payload.tenantId
        strategyId := payload.strategyId
        signalId := payload.signalId
        symbol := payload.symbol
        side := payload.side
        size
        price
        status := .submitted
        createdAt
        completedAt := none }, false)
    | _, _, _ => (executions, true)

/-- `_apply_execution_completed`: the status is assigned before the time is parsed. -/
def applyExecutionCompleted (payload : ExecutionCompleted) (executions : Executions) :
    Executions × Bool :=
  match payload.executionId.bind executions.get? with
  | none => (executions, false)
  | some execution =>
    match payload.timestamp.readTime with
    | none => (executions.put { execution with status := .completed }, true)
    | some completedAt =>
      (executions.put { execution with status := .completed, completedAt := some completedAt },
        false)

/-- The fill registry, if the engine consults it: whether the fill with a hash is registered
    for a tenant.  A replay registers nothing, so it stays as it is. -/
abbrev Registry := Option (String → String → Bool)

/-- The check in front of `_apply_fill_received`. -/
def registered (registry : Registry) (payload : FillReceived) : Bool :=
  match registry, truthy payload.fillHash, truthy payload.tenantId with
  | some isDuplicateFill, some fillHash, some tenantId => isDuplicateFill tenantId fillHash
  | _, _, _ => false

variable (registry : Registry)

/-- `_apply_event`. -/
def applyEvent (s : Rebuilt) : Body → Rebuilt × Bool
  | .orderSubmitted payload =>
    let (orders, raised) := applyOrderSubmitted payload s.orders
    ({ s with orders }, raised)
  | .orderAccepted orderId => ({ s with orders := applyOrderStatus .accepted orderId s.orders }, false)
  | .orderFilled payload => applyOrderFilled payload s
  | .orderCancelled orderId =>
    ({ s with orders := applyOrderStatus .cancelled orderId s.orders }, false)
  | .positionOpened payload =>
    let (positions, raised) := applyPositionOpened payload s.positions
    ({ s with positions }, raised)
  | .positionUpdated payload =>
    let (positions, raised) :=
      applyToPosition payload.positionId (updatedPosition payload) s.positions
    ({ s with positions }, raised)
  | .positionClosed payload =>
    let (positions, raised) :=
      applyToPosition payload.positionId (closedPosition payload) s.positions
    ({ s with positions }, raised)
  | .executionSubmitted payload =>
    let (executions, raised) := applyExecutionSubmitted payload s.executions
    ({ s with executions }, raised)
  | .executionCompleted payload =>
    let (executions, raised) := applyExecutionCompleted payload s.executions
    ({ s with executions }, raised)
  | .fillReceived payload =>
    if registered registry payload then (s, false)
    else ({ s with fills := s.fills ++ [.received payload] }, false)
  | .unknown => (s, false)

/-- One round of the loop: an event that raises is noted, with what it did so far. -/
def step (s : Rebuilt) (e : Event) : Rebuilt :=
  let (s, raised) := applyEvent registry s e.body
  if raised then { s with errors := s.errors ++ [e.sequence] } else s

/-- `reconstruct_state` of the events that the journal returns, without restoring. -/
def reconstruct (events : List Event) : Rebuilt :=
  (events.insertionSort fun a b => a.key ≤ b.key).foldl (step registry) .empty

/-! ## What a replay has to keep -/

/-- The collections that a repeated event may not change. -/
def Rebuilt.view (s : Rebuilt) : Positions × Orders × List FillEntry :=
  (s.positions, s.orders, s.fills)

/-- The fills of an order, the records of one fill id counted once. -/
def distinctFills (fills : List FillRecord) : List FillRecord :=
  fills.foldl (fun kept record =>
    if record.fillId.isSome ∧ ∃ r ∈ kept, r.fillId = record.fillId then kept
    else kept ++ [record]) []

/-- The filled quantity is that of the distinct fills, and the remaining one what is left. -/
structure ReconstructedOrder.Conserves (order : ReconstructedOrder) : Prop where
  filled : order.filledQuantity = ((distinctFills order.fills).map FillRecord.filledQuantity).sum
  remaining : order.remainingQuantity = order.quantity - order.filledQuantity

/-- A fill on the side of a position increases it, and one on the other side reduces it. -/
structure FollowsSide (side : Option String) (before after : ReconstructedPosition) : Prop where
  same : side = some "buy" ∧ before.side = some "long" ∨
    side = some "sell" ∧ before.side = some "short" → before.quantity < after.quantity
  opposite : side = some "sell" ∧ before.side = some "long" ∨
    side = some "buy" ∧ before.side = some "short" → after.quantity < before.quantity

/-- What an event that fills an order does to the position that it names. -/
def FollowsSides (s : Rebuilt) (e : Event) : Prop :=
  ∀ payload, e.body = .orderFilled payload → ∀ order record,
    fillOf s payload = some (order, record) →
    ∀ position, positionOf s payload.positionId = some position →
    ∀ after, (step registry s e).positions.get? position.positionId = some after →
      FollowsSide order.side position after

/-- The deliveries in the order in which they are applied. -/
def inOrder (deliveries : List (Delivery Event)) : List (Delivery Event) :=
  deliveries.insertionSort fun a b => a.item.key ≤ b.item.key

/-- A replay with repeated events rebuilds what the journal without them does, its orders
    account for their fills, and its positions follow the side of every fill. -/
structure Holds (deliveries : List (Delivery Event)) : Prop where
  same : (reconstruct registry (arriving deliveries)).view
    = (reconstruct registry (original deliveries)).view
  conserved : ∀ order ∈ (reconstruct registry (arriving deliveries)).orders.items,
    order.Conserves
  sided : Run.Throughout (transition (step registry)) (fun s d => FollowsSides registry s d.item)
    .empty (inOrder deliveries)

/-! ## Where it keeps it -/

/-- What an event would do is done already. -/
def Settled (s : Rebuilt) : Body → Prop
  | .orderSubmitted payload => ∀ orderId ∈ truthy payload.orderId,
    ∀ order ∈ submittedOrder payload orderId, s.orders.get? orderId = some order
  | .orderAccepted orderId => ∀ order ∈ orderId.bind s.orders.get?, order.status = .accepted
  | .orderFilled payload => fillOf s payload = none
  | .orderCancelled orderId => ∀ order ∈ orderId.bind s.orders.get?, order.status = .cancelled
  | .positionOpened payload => ∀ positionId ∈ truthy payload.positionId,
    ∀ position ∈ openedPosition payload positionId,
      s.positions.get? positionId = some position
  | .positionUpdated payload => ∀ position ∈ payload.positionId.bind s.positions.get?,
    (updatedPosition payload position).1 = position
  | .positionClosed payload => ∀ position ∈ payload.positionId.bind s.positions.get?,
    (closedPosition payload position).1 = position
  | .executionSubmitted _ => True
  | .executionCompleted _ => True
  | .fillReceived payload => registered registry payload = true
  | .unknown => True

instance (s : Rebuilt) (body : Body) : Decidable (Settled registry s body) :=
  match body with
  | .orderSubmitted _ | .positionOpened _ => inferInstanceAs (Decidable (∀ _ ∈ _, ∀ _ ∈ _, _ = _))
  | .orderAccepted _ | .orderCancelled _ | .positionUpdated _ | .positionClosed _ =>
    inferInstanceAs (Decidable (∀ _ ∈ _, _ = _))
  | .orderFilled _ | .fillReceived _ => inferInstanceAs (Decidable (_ = _))
  | .executionSubmitted _ | .executionCompleted _ | .unknown => .isTrue trivial

/-- A fill that an order has not counted yet, and that adds up in the digits of the
    arithmetic. -/
def Counts (order : ReconstructedOrder) (record : FillRecord) : Prop :=
  (record.fillId.isSome → ∀ r ∈ order.fills, r.fillId ≠ record.fillId) ∧
    Context.default.add order.filledQuantity record.filledQuantity
      = order.filledQuantity + record.filledQuantity ∧
    Context.default.sub order.quantity (order.filledQuantity + record.filledQuantity)
      = order.quantity - (order.filledQuantity + record.filledQuantity)

instance (order : ReconstructedOrder) (record : FillRecord) : Decidable (Counts order record) :=
  inferInstanceAs (Decidable ((_ → ∀ r ∈ order.fills, _) ∧ _ ∧ _))

/-- A fill of a long position that is not lost in the digits of the arithmetic; of a short
    one, a fill that is neither bought nor sold. -/
def Moves (side : Option String) (filledQuantity : ℚ) (position : ReconstructedPosition) : Prop :=
  (position.side = some "long" →
    (side = some "buy" →
      position.quantity < Context.default.add position.quantity filledQuantity) ∧
    (side = some "sell" →
      Context.default.sub position.quantity filledQuantity < position.quantity)) ∧
  (position.side = some "short" → side ≠ some "buy" ∧ side ≠ some "sell")

instance (side : Option String) (filledQuantity : ℚ) (position : ReconstructedPosition) :
    Decidable (Moves side filledQuantity position) :=
  inferInstanceAs (Decidable ((_ → (_ → _) ∧ (_ → _)) ∧ (_ → _ ∧ _)))

/-- The fill of an event counts, and moves the position that it names. -/
def Accounts (s : Rebuilt) (payload : OrderFilled) : Prop :=
  ∀ fill ∈ fillOf s payload, Counts fill.1 fill.2 ∧
    ∀ position ∈ positionOf s payload.positionId,
      Moves fill.1.side fill.2.filledQuantity position

instance (s : Rebuilt) (payload : OrderFilled) : Decidable (Accounts s payload) :=
  inferInstanceAs (Decidable (∀ fill ∈ fillOf s payload, _ ∧ ∀ position ∈ positionOf s _, _))

/-- What an event fills is accounted for. -/
def Accounted (s : Rebuilt) : Body → Prop
  | .orderFilled payload => Accounts s payload
  | _ => True

instance (s : Rebuilt) (body : Body) : Decidable (Accounted s body) :=
  match body with
  | .orderFilled payload => inferInstanceAs (Decidable (Accounts s payload))
  | .orderSubmitted _ | .orderAccepted _ | .orderCancelled _ | .positionOpened _
  | .positionUpdated _ | .positionClosed _ | .executionSubmitted _ | .executionCompleted _
  | .fillReceived _ | .unknown => .isTrue trivial

/-- The condition of an event in the state that it meets. -/
def Meets (s : Rebuilt) (d : Delivery Event) : Prop :=
  (d.repeated = true → Settled registry s d.item.body) ∧ Accounted s d.item.body

instance (s : Rebuilt) (d : Delivery Event) : Decidable (Meets registry s d) :=
  inferInstanceAs (Decidable (_ ∧ _))

/-! ## One event -/

variable {registry}

theorem view_step (s : Rebuilt) (e : Event) :
    (step registry s e).view = (applyEvent registry s e.body).1.view := by
  unfold step
  cases h : (applyEvent registry s e.body).2 <;> simp [h, Rebuilt.view]

theorem view_step_congr (s t : Rebuilt) (e : Event) (h : s.view = t.view) :
    (step registry s e).view = (step registry t e).view := by
  rw [view_step, view_step]
  obtain ⟨positions, orders, executions, fills, errors⟩ := s
  obtain ⟨positions', orders', executions', fills', errors'⟩ := t
  simp only [Rebuilt.view, Prod.mk.injEq] at h
  obtain ⟨rfl, rfl, rfl⟩ := h
  cases e.body with
  | orderSubmitted payload => rfl
  | orderAccepted orderId => rfl
  | orderFilled payload =>
    have h_fill : fillOf ⟨positions, orders, executions, fills, errors⟩ payload
        = fillOf ⟨positions, orders, executions', fills, errors'⟩ payload := rfl
    simp only [applyEvent, applyOrderFilled, h_fill]
    cases fillOf ⟨positions, orders, executions', fills, errors'⟩ payload with
    | none => rfl
    | some fill => rfl
  | orderCancelled orderId => rfl
  | positionOpened payload => rfl
  | positionUpdated payload => rfl
  | positionClosed payload => rfl
  | executionSubmitted payload => rfl
  | executionCompleted payload => rfl
  | fillReceived payload =>
    simp only [applyEvent]
    split <;> rfl
  | unknown => rfl

theorem put_of_get? {α : Type} {key : α → String} {d : KeyedList key} {k : String} {a : α}
    (h : d.get? k = some a) : d.put a = d :=
  KeyedList.put_of_mem (KeyedList.mem_of_get? h).1

variable {orders : Orders}

theorem applyOrderStatus_eq_self {status : OrderStatus} {orderId : Option String}
    (h : ∀ order ∈ orderId.bind orders.get?, order.status = status) :
    applyOrderStatus status orderId orders = orders := by
  unfold applyOrderStatus
  cases h_order : orderId.bind orders.get? with
  | none => rfl
  | some order =>
    have h_same : { order with status } = order := by rw [← h order h_order]
    obtain ⟨id, -, h_get⟩ := Option.bind_eq_some_iff.mp h_order
    simp only [h_same]
    exact put_of_get? h_get

theorem applyToPosition_eq_self {positionId : Option String}
    {change : ReconstructedPosition → ReconstructedPosition × Bool} {positions : Positions}
    (h : ∀ position ∈ positionId.bind positions.get?, (change position).1 = position) :
    (applyToPosition positionId change positions).1 = positions := by
  unfold applyToPosition
  cases h_position : positionId.bind positions.get? with
  | none => rfl
  | some position =>
    obtain ⟨id, -, h_get⟩ := Option.bind_eq_some_iff.mp h_position
    simp only [h position h_position]
    exact put_of_get? h_get

variable {s : Rebuilt}

theorem view_step_of_settled {e : Event} (h : Settled registry s e.body) :
    (step registry s e).view = s.view := by
  rw [view_step]
  cases h_body : e.body with
  | orderSubmitted payload =>
    rw [h_body] at h
    have h_orders : (applyOrderSubmitted payload s.orders).1 = s.orders := by
      unfold applyOrderSubmitted
      cases h_id : truthy payload.orderId with
      | none => rfl
      | some orderId =>
        cases h_order : submittedOrder payload orderId with
        | none => simp [h_order]
        | some order =>
          simp only [h_order]
          exact put_of_get? (h orderId h_id order h_order)
    simp [applyEvent, Rebuilt.view, h_orders]
  | orderAccepted orderId =>
    rw [h_body] at h
    simp [applyEvent, Rebuilt.view, applyOrderStatus_eq_self h]
  | orderFilled payload =>
    rw [h_body] at h
    have h_none : fillOf s payload = none := h
    simp [applyEvent, applyOrderFilled, h_none]
  | orderCancelled orderId =>
    rw [h_body] at h
    simp [applyEvent, Rebuilt.view, applyOrderStatus_eq_self h]
  | positionOpened payload =>
    rw [h_body] at h
    have h_positions : (applyPositionOpened payload s.positions).1 = s.positions := by
      unfold applyPositionOpened
      cases h_id : truthy payload.positionId with
      | none => rfl
      | some positionId =>
        cases h_position : openedPosition payload positionId with
        | none => simp [h_position]
        | some position =>
          simp only [h_position]
          exact put_of_get? (h positionId h_id position h_position)
    simp [applyEvent, Rebuilt.view, h_positions]
  | positionUpdated payload =>
    rw [h_body] at h
    simp [applyEvent, Rebuilt.view, applyToPosition_eq_self h]
  | positionClosed payload =>
    rw [h_body] at h
    simp [applyEvent, Rebuilt.view, applyToPosition_eq_self h]
  | executionSubmitted payload => rfl
  | executionCompleted payload => rfl
  | fillReceived payload =>
    rw [h_body] at h
    have h_registered : registered registry payload = true := h
    simp [applyEvent, h_registered]
  | unknown => rfl

/-! ## The fills of an order -/

theorem distinctFills_append_singleton (fills : List FillRecord) (record : FillRecord) :
    distinctFills (fills ++ [record]) =
      if record.fillId.isSome ∧ ∃ r ∈ distinctFills fills, r.fillId = record.fillId then
        distinctFills fills
      else distinctFills fills ++ [record] := by
  unfold distinctFills
  rw [List.foldl_append]
  rfl

theorem mem_of_mem_distinctFills {fills : List FillRecord} {r : FillRecord}
    (h : r ∈ distinctFills fills) : r ∈ fills := by
  induction fills using List.reverseRecOn with
  | nil => exact h
  | append_singleton fills record ih =>
    rw [distinctFills_append_singleton] at h
    split at h
    · exact List.mem_append_left _ (ih h)
    · rcases List.mem_append.mp h with h | h
      · exact List.mem_append_left _ (ih h)
      · exact List.mem_append_right _ h

variable {order : ReconstructedOrder}

theorem conserves_submittedOrder {payload : OrderSubmitted} {orderId : String}
    (h : submittedOrder payload orderId = some order) : order.Conserves := by
  unfold submittedOrder at h
  split at h
  · cases h
    exact ⟨rfl, (sub_zero _).symm⟩
  · cases h

theorem ReconstructedOrder.Conserves.fill {record : FillRecord} (h : order.Conserves)
    (h_counts : Counts order record) : (filledOrder order record).Conserves := by
  obtain ⟨h_new, h_add, h_sub⟩ := h_counts
  have h_distinct : distinctFills (order.fills ++ [record]) = distinctFills order.fills ++ [record] := by
    rw [distinctFills_append_singleton, if_neg]
    rintro ⟨h_some, r, h_r, h_eq⟩
    exact h_new h_some r (mem_of_mem_distinctFills h_r) h_eq
  constructor
  · show Context.default.add order.filledQuantity record.filledQuantity
      = ((distinctFills (order.fills ++ [record])).map FillRecord.filledQuantity).sum
    rw [h_add, h_distinct, h.filled]
    simp
  · show Context.default.sub order.quantity
        (Context.default.add order.filledQuantity record.filledQuantity)
      = order.quantity - Context.default.add order.filledQuantity record.filledQuantity
    rw [h_add, h_sub]

theorem fillOf_eq_some {payload : OrderFilled} {record : FillRecord}
    (h : fillOf s payload = some (order, record)) : order ∈ s.orders.items := by
  unfold fillOf at h
  cases h_order : payload.orderId.bind s.orders.get? with
  | none =>
    rw [h_order] at h
    cases h
  | some found =>
    obtain ⟨id, -, h_get⟩ := Option.bind_eq_some_iff.mp h_order
    simp only [h_order] at h
    split at h
    · cases h
      exact (KeyedList.mem_of_get? h_get).1
    · cases h

/-- Every order accounts for its fills. -/
def Conserved (s : Rebuilt) : Prop := ∀ order ∈ s.orders.items, order.Conserves

theorem conserved_put (h : ∀ o ∈ orders.items, o.Conserves) (h_order : order.Conserves) :
    ∀ o ∈ (orders.put order).items, o.Conserves := by
  intro o h_o
  obtain rfl | ⟨h_o, -⟩ := KeyedList.mem_put h_o
  · exact h_order
  · exact h o h_o

theorem conserved_applyOrderStatus (h : ∀ o ∈ orders.items, o.Conserves) (status : OrderStatus)
    (orderId : Option String) :
    ∀ o ∈ (applyOrderStatus status orderId orders).items, o.Conserves := by
  unfold applyOrderStatus
  cases h_order : orderId.bind orders.get? with
  | none => exact h
  | some order =>
    obtain ⟨id, -, h_get⟩ := Option.bind_eq_some_iff.mp h_order
    obtain ⟨h_filled, h_remaining⟩ := h order (KeyedList.mem_of_get? h_get).1
    exact conserved_put h ⟨h_filled, h_remaining⟩

theorem step_orders (s : Rebuilt) (e : Event) :
    (step registry s e).orders = (applyEvent registry s e.body).1.orders := by
  have h := @view_step registry s e
  simp only [Rebuilt.view, Prod.mk.injEq] at h
  exact h.2.1

theorem conserved_step {d : Delivery Event} (h : Conserved s) (h_meets : Meets registry s d) :
    Conserved (step registry s d.item) := by
  unfold Conserved
  rw [step_orders]
  obtain ⟨-, h_accounts⟩ := h_meets
  cases h_body : d.item.body with
  | orderSubmitted payload =>
    simp only [applyEvent, applyOrderSubmitted]
    cases truthy payload.orderId with
    | none => exact h
    | some orderId =>
      cases h_order : submittedOrder payload orderId with
      | none =>
        simp only [h_order]
        exact h
      | some order =>
        simp only [h_order]
        exact conserved_put h (conserves_submittedOrder h_order)
  | orderAccepted orderId => exact conserved_applyOrderStatus h _ _
  | orderFilled payload =>
    rw [h_body] at h_accounts
    have h_accounts : Accounts s payload := h_accounts
    simp only [applyEvent, applyOrderFilled]
    cases h_fill : fillOf s payload with
    | none => exact h
    | some fill =>
      have h_order := h fill.1 (fillOf_eq_some h_fill)
      exact conserved_put h (h_order.fill (h_accounts fill h_fill).1)
  | orderCancelled orderId => exact conserved_applyOrderStatus h _ _
  | positionOpened payload => exact h
  | positionUpdated payload => exact h
  | positionClosed payload => exact h
  | executionSubmitted payload => exact h
  | executionCompleted payload => exact h
  | fillReceived payload =>
    simp only [applyEvent]
    split <;> exact h
  | unknown => exact h

/-! ## The side of a fill -/

theorem step_positions (s : Rebuilt) (e : Event) :
    (step registry s e).positions = (applyEvent registry s e.body).1.positions := by
  have h := @view_step registry s e
  simp only [Rebuilt.view, Prod.mk.injEq] at h
  exact h.1

theorem followsSide_filledPosition {side : Option String} {filledQuantity : ℚ}
    {position : ReconstructedPosition} (h : Moves side filledQuantity position) :
    FollowsSide side position (filledPosition side filledQuantity position) := by
  obtain ⟨h_long, h_short⟩ := h
  constructor
  · rintro (⟨h_side, h_position⟩ | ⟨h_side, h_position⟩)
    · show position.quantity < if side = some "buy" then _ else _
      rw [if_pos h_side]
      exact (h_long h_position).1 h_side
    · exact absurd h_side (h_short h_position).2
  · rintro (⟨h_side, h_position⟩ | ⟨h_side, h_position⟩)
    · have h_not : side ≠ some "buy" := by
        rw [h_side]
        decide
      show (if side = some "buy" then _ else _) < position.quantity
      rw [if_neg h_not]
      exact (h_long h_position).2 h_side
    · exact absurd h_side (h_short h_position).1

theorem followsSides_of_meets {d : Delivery Event} (h : Meets registry s d) :
    FollowsSides registry s d.item := by
  intro payload h_body order record h_fill position h_position after h_after
  obtain ⟨-, h_accounts⟩ := h
  rw [h_body] at h_accounts
  have h_accounts : Accounts s payload := h_accounts
  have h_moves := (h_accounts _ h_fill).2 position h_position
  rw [step_positions, h_body] at h_after
  simp only [applyEvent, applyOrderFilled, h_fill, h_position] at h_after
  have h_put := KeyedList.get?_put_self s.positions
    (filledPosition order.side record.filledQuantity position)
  have h_eq : filledPosition order.side record.filledQuantity position = after :=
    Option.some.inj (h_put.symm.trans h_after)
  rw [← h_eq]
  exact followsSide_filledPosition h_moves

/-! ## The journal -/

theorem map_item_inOrder (deliveries : List (Delivery Event)) :
    (inOrder deliveries).map Delivery.item
      = (deliveries.map Delivery.item).insertionSort fun a b => a.key ≤ b.key :=
  List.map_insertionSort (fun a b : Delivery Event => a.item.key ≤ b.item.key)
    (fun a b : Event => a.key ≤ b.key) Delivery.item deliveries fun _ _ _ _ => Iff.rfl

theorem reconstruct_arriving (deliveries : List (Delivery Event)) :
    reconstruct registry (arriving deliveries)
      = (arriving (inOrder deliveries)).foldl (step registry) .empty := by
  unfold reconstruct arriving
  rw [map_item_inOrder]

theorem reconstruct_original (deliveries : List (Delivery Event)) :
    reconstruct registry (original deliveries)
      = (original (inOrder deliveries)).foldl (step registry) .empty := by
  unfold reconstruct original
  rw [← map_item_inOrder, inOrder, inOrder, KeySort.filter_insertionSort]

/-- Where every event of a journal with repetitions meets its condition, every part of the
    replay rebuilds what it does without the repetitions, accounts for its fills and follows
    their sides. -/
theorem holds_of_throughout (registry : Registry) (deliveries : List (Delivery Event))
    (h : Run.Throughout (transition (step registry)) (Meets registry) .empty
      (inOrder deliveries)) :
    ∀ part, inOrder part <+: inOrder deliveries → Holds registry part := by
  rintro part ⟨rest, h_part⟩
  rw [← h_part] at h
  have h := h.of_prefix
  refine ⟨?_, ?_, ?_⟩
  · rw [reconstruct_arriving, reconstruct_original]
    exact view_foldl_arriving view_step_congr rfl fun pre d post h_eq h_repeated =>
      view_step_of_settled ((h pre d post h_eq).1 h_repeated)
  · rw [reconstruct_arriving, ← final_transition]
    refine Run.final_invariant_of_throughout (I := Conserved) ?_ (List.forall_mem_nil _) h
    intro s d s' h_s h_meets h_step
    cases h_step
    exact conserved_step h_s h_meets
  · intro pre d post h_eq
    exact followsSides_of_meets (h pre d post h_eq)

/-- Every repetition is one of an event of the journal. -/
def Redelivers (deliveries : List (Delivery Event)) : Prop :=
  ∀ d ∈ deliveries, d.repeated = true →
    ∃ d' ∈ deliveries, d'.repeated = false ∧ d'.item = d.item

/-- A purchase, and what is filled of it. -/
def bought : Event :=
  ⟨some 1, .orderSubmitted ⟨some "order_1", none, none, none, some "buy", none, .given 2,
    .given 100, .given "2026-01-01T00:00:00+00:00"⟩⟩

def longOpened : Event :=
  ⟨some 2, .positionOpened ⟨some "position_1", none, none, none, some "long", .given 1,
    .given 100, .given 100, .absent, .absent, .given "2026-01-01T00:00:00+00:00"⟩⟩

def filled : Event :=
  ⟨some 3, .orderFilled ⟨some "order_1", some "position_1", some "fill_1", .given 1, .given 100,
    none, none⟩⟩

def received : Event :=
  ⟨some 4, .fillReceived ⟨some "fill_1", some "tenant", some "hash", some "order_1", none, none,
    some "1", some "100", none, none⟩⟩

/-- A journal whose submission and whose registered fill arrive twice. -/
def repeatedSubmission : List (Delivery Event) :=
  [⟨bought, false⟩, ⟨bought, true⟩, ⟨longOpened, false⟩, ⟨filled, false⟩, ⟨received, false⟩,
    ⟨received, true⟩]

theorem inOrder_repeatedSubmission : inOrder repeatedSubmission = repeatedSubmission := by
  apply List.Pairwise.insertionSort_eq
  simp [repeatedSubmission, bought, longOpened, filled, received, Event.key]

theorem holds_repeatedSubmission : Holds (some fun _ _ => true) repeatedSubmission := by
  refine holds_of_throughout (some fun _ _ => true) repeatedSubmission ?_ repeatedSubmission
    List.prefix_rfl
  rw [inOrder_repeatedSubmission]
  simp only [repeatedSubmission, Run.throughout_cons]
  refine ⟨?_, ?_, ?_, ?_, ?_, ?_, Run.throughout_nil⟩
  · decide +kernel
  · decide +kernel
  · decide +kernel
  · decide +kernel
  · decide +kernel
  · decide +kernel

/-- A journal whose order is filled twice by one fill. -/
def repeatedFill : List (Delivery Event) :=
  [⟨bought, false⟩, ⟨filled, false⟩, ⟨filled, true⟩]

/-- The repetition of a fill is counted again: two are filled of the order, not one. -/
theorem holds_divergence :
    ¬ ∀ registry deliveries, Redelivers deliveries → Holds registry deliveries := by
  intro h
  have h_redelivers : Redelivers repeatedFill := by
    intro d h_d h_repeated
    refine ⟨⟨filled, false⟩, by simp [repeatedFill], rfl, ?_⟩
    simp only [repeatedFill, List.mem_cons, List.not_mem_nil, or_false] at h_d
    rcases h_d with rfl | rfl | rfl
    · cases h_repeated
    · cases h_repeated
    · rfl
  have h_same := (h none repeatedFill h_redelivers).same
  have h_orders := congrArg (fun view : Positions × Orders × List FillEntry =>
    view.2.1.items.map fun order => order.filledQuantity) h_same
  revert h_orders
  decide +kernel

end VyomQuant.JournalReplay
