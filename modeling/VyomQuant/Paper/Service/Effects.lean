/-
  VyomQuant.Paper.Service.Effects

  What one statement of the service does to the store.

  `Call.step_effect` says it for the orders and the account: a statement moves the one order
  that its call is about to move, or writes the account under the version that its call has
  read, or inserts an order, or leaves both alone.  `Moves` is what the orders go through
  then: their terms stay, and an order that has ended stays as it ended.
-/

import VyomQuant.Paper.Service.Calls
import VyomQuant.Paper.Store.Orders

namespace VyomQuant.Paper.Service

open Except
open Accounting (AccountingConfig AccountingError Account Book Position OrderSide Instant FillResult
  ClosedTrade)

variable {s s' s'' : Store}

/-! ## Statements that were answered -/

theorem issue_cases {β κ : Type} (result : Except PaperError (β × Store)) (next : β → κ)
    (failed : PaperError → κ) :
    (∃ answer s', result = .ok (answer, s') ∧ issue s result next failed = (next answer, s')) ∨
      ∃ e, result = .error e ∧ issue s result next failed = (failed e, s) := by
  cases result with
  | ok answered => exact .inl ⟨answered.1, answered.2, rfl, rfl⟩
  | error e => exact .inr ⟨e, rfl, rfl⟩

theorem issue_store {β κ : Type} {P : Store → Prop} {result : Except PaperError (β × Store)}
    {next : β → κ} {failed : PaperError → κ} (h_same : P s)
    (h_ok : ∀ answer s', result = .ok (answer, s') → P s') : P (issue s result next failed).2 := by
  rcases issue_cases result next failed with ⟨answer, s', h_result, h_issue⟩ | ⟨e, -, h_issue⟩
  · rw [h_issue]
    exact h_ok answer s' h_result
  · rw [h_issue]
    exact h_same

theorem issue_eq {β κ : Type} {result : Except PaperError (β × Store)} {next : β → κ}
    {failed : PaperError → κ} {after : κ} (h : (issue s result next failed).1 = after) :
    (∃ answer s', result = .ok (answer, s') ∧ next answer = after ∧
        (issue s result next failed).2 = s') ∨
      ∃ e, result = .error e ∧ failed e = after ∧ (issue s result next failed).2 = s := by
  rcases issue_cases result next failed with ⟨answer, s', h_result, h_issue⟩ | ⟨e, h_result, h_issue⟩
  · rw [h_issue] at h ⊢
    exact .inl ⟨answer, s', h_result, h, rfl⟩
  · rw [h_issue] at h ⊢
    exact .inr ⟨e, h_result, h, rfl⟩

/-- The columns of an order that no update writes. -/
structure OrderTerms where
  id : ℕ
  symbol : String
  side : OrderSide
  orderType : Paper.OrderType
  quantity : ℚ
  limitPrice : Option ℚ
  referencePrice : Option ℚ
  idempotencyKey : Option String
  createdAt : Instant

def termsOf (order : OrderRow) : OrderTerms where
  id := order.id
  symbol := order.symbol
  side := order.side
  orderType := order.orderType
  quantity := order.quantity
  limitPrice := order.limitPrice
  referencePrice := order.referencePrice
  idempotencyKey := order.idempotencyKey
  createdAt := order.createdAt

/-- What an update of an order did. -/
structure OrderMoved (orderId : ℕ) (target expected : OrderState) (s : Store) (row : OrderRow)
    (s' : Store) : Prop where
  can : expected.canTransition target
  old : ∃ old ∈ s.orders, old.id = orderId ∧ old.orderState = expected ∧ termsOf row = termsOf old
  state : row.orderState = target
  store : s' = replaceOrder row s

variable {orderId : ℕ} {target expected : OrderState} {row : OrderRow}

theorem OrderMoved.id (h : OrderMoved orderId target expected s row s') : row.id = orderId := by
  obtain ⟨old, -, h_id, -, h_terms⟩ := h.old
  exact (congrArg OrderTerms.id h_terms).trans h_id

theorem find_order {old : OrderRow}
    (h : (s.orders.find? fun old => old.id = orderId ∧ old.orderState = expected) = some old) :
    old ∈ s.orders ∧ old.id = orderId ∧ old.orderState = expected := by
  have h_found := List.find?_some h
  rw [decide_eq_true_eq] at h_found
  exact ⟨List.mem_of_find?_eq_some h, h_found⟩

theorem moveOrderRow_eq_ok {reason : Option RejectionReason}
    (h : moveOrderRow orderId target expected reason s = .ok (row, s')) :
    OrderMoved orderId target expected s row s' := by
  simp only [moveOrderRow, updateOrderRow, bind_eq_ok, pure_eq_ok, refuseIf_eq_ok, ofOption_eq_ok,
    Prod.mk.injEq, not_not] at h
  obtain ⟨_, h_can, old, h_find, _, -, rfl, rfl⟩ := h
  obtain ⟨h_old, h_id, h_state⟩ := find_order h_find
  exact ⟨h_can, ⟨old, h_old, h_id, h_state, rfl⟩, rfl, rfl⟩

theorem fillOrderRow_eq_ok {values : OrderValues}
    (h : fillOrderRow orderId expected values s = .ok (row, s')) :
    OrderMoved orderId values.targetState expected s row s' := by
  simp only [fillOrderRow, bind_eq_ok, pure_eq_ok, refuseIf_eq_ok, ofOption_eq_ok, Prod.mk.injEq,
    not_not] at h
  obtain ⟨_, h_can, _, -, _, -, _, -, _, -, old, h_find, _, -, _, -, rfl, rfl⟩ := h
  obtain ⟨h_old, h_id, h_state⟩ := find_order h_find
  exact ⟨h_can, ⟨old, h_old, h_id, h_state, rfl⟩, rfl, rfl⟩

theorem FillPlan.orderValues_target {config : AccountingConfig} {plan : FillPlan}
    {values : OrderValues} (h : plan.orderValues config = .ok values) :
    values.targetState = .filled := by
  obtain ⟨_, -, h⟩ := bind_eq_ok.mp h
  obtain ⟨_, -, h⟩ := bind_eq_ok.mp h
  rw [pure_eq_ok] at h
  rw [← h]

structure AccountWrittenAt (version : ℕ) (payload : AccountUpdate) (s : Store) (row : AccountRow)
    (s' : Store) : Prop where
  version_eq : s.account.version = version
  available : numeric (payload.availableBalance.getD s.account.availableBalance)
    = .ok row.availableBalance
  locked : numeric (payload.lockedBalance.getD s.account.lockedBalance) = .ok row.lockedBalance
  realized : numeric (payload.realizedPnl.getD s.account.realizedPnl) = .ok row.realizedPnl
  totalEquity : numeric (payload.totalEquity.getD s.account.totalEquity) = .ok row.totalEquity
  available_nonneg : 0 ≤ row.availableBalance
  locked_nonneg : 0 ≤ row.lockedBalance
  moved : row.version = version + 1
  currency : row.currency = s.account.currency
  store : s' = { s with account := row, clock := s.clock + 1 }

theorem bumpVersionRow_written {version : ℕ} {payload : AccountUpdate} {row : AccountRow}
    (h : bumpVersionRow version payload s = .ok (row, s')) :
    AccountWrittenAt version payload s row s' := by
  simp only [bumpVersionRow, bind_eq_ok, pure_eq_ok, refuseIf_eq_ok, Prod.mk.injEq, not_or, not_lt,
    not_not] at h
  obtain ⟨_, h_version, _, h_available, _, h_locked, _, h_realized, _, h_equity, _,
    ⟨h_nonneg, h_nonneg'⟩, rfl, rfl⟩ := h
  exact ⟨h_version, h_available, h_locked, h_realized, h_equity, h_nonneg, h_nonneg', rfl, rfl, rfl⟩

theorem insertBalanceEventRow_store {event row : BalanceEventRow}
    (h : insertBalanceEventRow event s = .ok (row, s')) :
    row.cause = event.cause ∧ row.fillId = event.fillId ∧
      s' = { s with balanceEvents := s.balanceEvents ++ [row] } := by
  simp only [insertBalanceEventRow, bind_eq_ok, pure_eq_ok, Prod.mk.injEq] at h
  obtain ⟨_, -, _, -, _, -, _, -, _, -, _, -, rfl, rfl⟩ := h
  exact ⟨rfl, rfl, rfl⟩

structure FillInserted (orderId : ℕ) (values : FillValues) (s : Store) (fill : FillRow)
    (s' : Store) : Prop where
  fresh : ∀ old ∈ s.fills, ¬ (old.orderId = orderId ∧ old.fillEventId = fillEventId orderId)
  id_eq : fill.id = s.clock
  order_eq : fill.orderId = orderId
  event_eq : fill.fillEventId = fillEventId orderId
  quantity : numeric values.quantity = .ok fill.quantity
  price : numeric values.price = .ok fill.price
  feeMinor : fill.feeMinor = values.feeMinor
  filledAt : fill.filledAt = values.filledAt
  store : s' = { s with fills := s.fills ++ [fill], clock := s.clock + 1 }

theorem bigint_eq_ok {value stored : ℤ} (h : bigint value = .ok stored) : stored = value := by
  unfold bigint at h
  split_ifs at h
  exact (ok.inj h).symm

theorem insertFillRow_eq_ok {values : FillValues} {fill : FillRow}
    (h : insertFillRow orderId values s = .ok (fill, s')) :
    FillInserted orderId values s fill s' := by
  simp only [insertFillRow, bind_eq_ok, pure_eq_ok, refuseIf_eq_ok, Prod.mk.injEq] at h
  obtain ⟨_, h_quantity, _, h_price, _, h_fee, _, -, _, -, _, -, _, h_fresh, rfl, rfl⟩ := h
  exact {
    fresh := fun old h_old h_key => h_fresh ⟨old, h_old, h_key⟩
    id_eq := rfl, order_eq := rfl, event_eq := rfl, quantity := h_quantity, price := h_price
    feeMinor := bigint_eq_ok h_fee, filledAt := rfl, store := rfl }

theorem writePositionRow_store {current : Option PositionRow} {values : PositionValues}
    {row : PositionRow} (h : writePositionRow current values s = .ok (row, s')) :
    ∃ positions clock, s.clock ≤ clock ∧ s' = { s with positions := positions, clock := clock } := by
  cases current with
  | some read =>
    simp only [writePositionRow, updatePositionRow, bind_eq_ok, pure_eq_ok, Prod.mk.injEq] at h
    obtain ⟨_, -, _, -, _, -, _, -, _, -, _, -, -, rfl⟩ := h
    exact ⟨_, s.clock, le_rfl, rfl⟩
  | none =>
    simp only [writePositionRow, insertPositionRow, bind_eq_ok, pure_eq_ok, Prod.mk.injEq] at h
    obtain ⟨_, -, _, -, _, -, _, -, _, -, _, -, -, rfl⟩ := h
    exact ⟨_, s.clock + 1, Nat.le_succ _, rfl⟩

theorem insertTradeRow_store {trade row : TradeRow} (h : insertTradeRow trade s = .ok (row, s')) :
    s' = { s with trades := s.trades ++ [row] } := by
  simp only [insertTradeRow, bind_eq_ok, pure_eq_ok, Prod.mk.injEq] at h
  obtain ⟨_, -, _, -, _, -, _, -, _, -, rfl, rfl⟩ := h
  rfl

/-! ## What the orders go through -/

/-- The orders keep their terms, those that have ended their state, and none goes back to
    `CREATED` or is filled in part. -/
def Moves (s s' : Store) : Prop :=
  s.clock ≤ s'.clock ∧ ∃ f : OrderRow → OrderRow, s'.orders = s.orders.map f ∧
    ∀ order ∈ s.orders, termsOf (f order) = termsOf order ∧
      (order.orderState.isTerminal = true → (f order).orderState = order.orderState) ∧
      (order.orderState ≠ .created → (f order).orderState ≠ .created) ∧
      (order.orderState ≠ .partiallyFilled → (f order).orderState ≠ .partiallyFilled)

namespace Moves

theorem of_orders (h_orders : s'.orders = s.orders) (h_clock : s.clock ≤ s'.clock) : Moves s s' :=
  ⟨h_clock, id, h_orders.trans (List.map_id _).symm, fun _ _ =>
    ⟨rfl, fun _ => rfl, fun h => h, fun h => h⟩⟩

theorem keyed (h : Moves s s') (h_keyed : OrdersKeyed s) : OrdersKeyed s' := by
  obtain ⟨h_clock, f, h_orders, h_f⟩ := h
  refine h_keyed.congr ?_ h_clock
  rw [h_orders, List.map_map]
  exact List.map_congr_left fun order h_order => congrArg OrderTerms.id (h_f order h_order).1

end Moves

theorem OrderMoved.moves (h : OrderMoved orderId target expected s row s')
    (h_target : target ≠ .partiallyFilled) (h_keyed : OrdersKeyed s) : Moves s s' := by
  obtain ⟨old, h_old, h_id, h_state, h_terms⟩ := h.old
  refine ⟨(congrArg Store.clock h.store).ge, fun order => if order.id = row.id then row else order, ?_,
    fun order h_order => ?_⟩
  · rw [h.store]
    rfl
  · dsimp only
    split_ifs with h_row
    · -- The row that is replaced is the one that was found.
      obtain rfl : order = old :=
        List.inj_on_of_nodup_map h_keyed.nodup h_order h_old ((h_row.trans h.id).trans h_id.symm)
      refine ⟨h_terms, fun h_terminal => ?_, fun _ h_created => ?_, fun _ => h.state ▸ h_target⟩
      · rw [h_state] at h_terminal
        exact absurd h.can ((OrderState.isTerminal_iff expected).mp h_terminal target)
      · have h_can := h.can
        rw [h.state.symm.trans h_created] at h_can
        revert h_can
        cases expected <;> decide
    · exact ⟨rfl, fun _ => rfl, fun h => h, fun h => h⟩

/-! ## What one statement does to the orders and the account -/

/-- The order that a statement moves, the state that it expects it in, and the state that it
    moves it to. -/
structure Moving where
  orderId : ℕ
  expected : OrderState
  target : OrderState

/-- The order that a fill is about to move. -/
def FillPhase.moving (job : FillJob) : FillPhase → Option Moving
  | .finish _ _ => some ⟨job.order.id, job.order.orderState, .filled⟩
  | _ => none

/-- The order that a call is about to move. -/
def Call.moving : Call → Option Moving
  | .place _ (.accept order _) => some ⟨order.id, .created, .accepted⟩
  | .place _ (.reject order) => some ⟨order.id, order.orderState, .rejected⟩
  | .place _ (.filling fill) => fill.phase.moving fill.job
  | .cancel _ (.move order) => some ⟨order.id, order.orderState, .cancelled⟩
  | .sweep _ _ (.filling fill _ _) => fill.phase.moving fill.job
  | .reset _ _ (.cancel order _ _) => some ⟨order.id, order.orderState, .cancelled⟩
  | _ => none

/-- The account update that a fill is about to issue. -/
def FillPhase.writing : FillPhase → Option (AccountRow × AccountUpdate)
  | .money plan _ => some (plan.account, plan.payload)
  | _ => none

/-- The account that a call has read and the update that it is about to issue. -/
def Call.writing : Call → Option (AccountRow × AccountUpdate)
  | .place _ (.lockMoney _ _ before locked _) => some (before, transferPayload before locked)
  | .place _ (.filling fill) => fill.phase.writing
  | .cancel _ (.money _ before unlocked _) => some (before, transferPayload before unlocked)
  | .sweep _ _ (.filling fill _ _) => fill.phase.writing
  | .reset capital _ (.money before _) => some (before, resetPayload capital)
  | _ => none

/-- What a statement did to the orders and the account: nothing, the move that it was about
    to make, or the update of the account. -/
inductive Effect (moving : Option Moving) (writing : Option (AccountRow × AccountUpdate))
    (s s' : Store) : Prop
  | kept (h_orders : s'.orders = s.orders) (h_account : s'.account = s.account)
      (h_clock : s.clock ≤ s'.clock)
  | moved {move : Moving} {row : OrderRow} (h_moving : moving = some move)
      (h : OrderMoved move.orderId move.target move.expected s row s')
  | wrote {before row : AccountRow} {payload : AccountUpdate} (h_writing : writing = some (before, payload))
      (h : AccountWrittenAt before.version payload s row s')

variable {moving : Option Moving} {writing : Option (AccountRow × AccountUpdate)}

theorem Effect.refl : Effect moving writing s s := .kept rfl rfl le_rfl

theorem Effect.moves (h : Effect moving writing s s') (h_keyed : OrdersKeyed s)
    (h_target : ∀ move ∈ moving, move.target ≠ .partiallyFilled) : Moves s s' := by
  cases h with
  | kept h_orders h_account h_clock => exact .of_orders h_orders h_clock
  | moved h_moving h => exact h.moves (h_target _ h_moving) h_keyed
  | wrote h_writing h =>
    rw [h.store]
    exact .of_orders rfl (Nat.le_succ _)

variable {config : AccountingConfig}

theorem FillPhase.step_effect (job : FillJob) (attempt : ℕ) (phase : FillPhase) (s : Store) :
    Effect (phase.moving job) phase.writing s (phase.step config job attempt s).2 := by
  cases phase with
  | readAccount => exact .refl
  | readPositions account =>
    unfold FillPhase.step
    dsimp only
    cases planOf config job account (positionRows true s) s.clock with
    | ok plan => exact .refl
    | error e => exact .refl
  | unmoved plan =>
    unfold FillPhase.step
    dsimp only
    split_ifs
    · exact .refl
    · exact .refl
    · exact .refl
  | lookup plan =>
    unfold FillPhase.step
    dsimp only
    split
    · exact .refl
    · exact .refl
  | ledger plan existing =>
    unfold FillPhase.step
    dsimp only
    split_ifs
    · exact .refl
    · exact .refl
  | insert plan =>
    refine issue_store .refl fun fill s' h_ok => ?_
    obtain ⟨values, -, h_insert⟩ := bind_eq_ok.mp h_ok
    rw [(insertFillRow_eq_ok h_insert).store]
    exact .kept rfl rfl (Nat.le_succ _)
  | money plan fill =>
    exact issue_store .refl fun row s' h_ok => .wrote rfl (bumpVersionRow_written h_ok)
  | event plan fill =>
    refine issue_store .refl fun row s' h_ok => ?_
    rw [(insertBalanceEventRow_store h_ok).2.2]
    exact .kept rfl rfl le_rfl
  | closingRead plan fill existing => exact .refl
  | closingWrite plan fill existing current =>
    refine issue_store .refl fun row s' h_ok => ?_
    obtain ⟨positions, clock, h_clock, rfl⟩ := writePositionRow_store h_ok
    exact .kept rfl rfl h_clock
  | positionRead plan fill => exact .refl
  | positionWrite plan fill current =>
    refine issue_store .refl fun row s' h_ok => ?_
    obtain ⟨positions, clock, h_clock, rfl⟩ := writePositionRow_store h_ok
    exact .kept rfl rfl h_clock
  | trade plan fill closed =>
    refine issue_store .refl fun row s' h_ok => ?_
    obtain ⟨trade, -, h_insert⟩ := bind_eq_ok.mp h_ok
    rw [insertTradeRow_store h_insert]
    exact .kept rfl rfl le_rfl
  | finish plan fill =>
    refine issue_store .refl fun row s' h_ok => ?_
    obtain ⟨values, h_values, h_fill⟩ := bind_eq_ok.mp h_ok
    have h_moved := fillOrderRow_eq_ok h_fill
    rw [FillPlan.orderValues_target h_values] at h_moved
    exact .moved rfl h_moved
  | reread => exact .refl
  | rereadFills order => exact .refl

theorem FillPhase.step_filled {job : FillJob} {attempt : ℕ} {phase : FillPhase} {order : OrderRow}
    {fill : FillRow} (h : (phase.step config job attempt s).1 = .filled order fill) :
    ∃ plan values, phase = .finish plan fill ∧ plan.orderValues config = .ok values ∧
      fillOrderRow job.order.id job.order.orderState values s
        = .ok (order, (phase.step config job attempt s).2) := by
  cases phase with
  | readAccount => cases h
  | readPositions account =>
    unfold FillPhase.step at h
    dsimp only at h
    split at h
    · cases h
    · cases h
  | unmoved plan =>
    unfold FillPhase.step at h
    dsimp only at h
    split_ifs at h
  | lookup plan =>
    unfold FillPhase.step at h
    dsimp only at h
    split at h
    · cases h
    · cases h
  | ledger plan existing =>
    unfold FillPhase.step at h
    dsimp only at h
    split_ifs at h
  | insert plan | money plan fill | event plan fill | closingWrite plan fill existing current
  | positionWrite plan fill current | trade plan fill closed =>
    rcases issue_eq h with ⟨_, _, _, h_next, _⟩ | ⟨_, _, h_next, _⟩
    · cases h_next
    · cases h_next
  | closingRead plan fill existing | positionRead plan fill | reread | rereadFills order => cases h
  | finish plan anchor =>
    rcases issue_eq h with ⟨row, s', h_ok, h_next, h_store⟩ | ⟨_, _, h_next, _⟩
    · cases h_next
      obtain ⟨values, h_values, h_fill⟩ := bind_eq_ok.mp h_ok
      refine ⟨plan, values, rfl, h_values, h_fill.trans ?_⟩
      exact congrArg (fun store => ok (order, store)) h_store.symm
    · cases h_next

theorem Filling.step_store (filling : Filling) (s : Store) :
    (filling.step config s).2 = (filling.phase.step config filling.job filling.attempt s).2 := by
  unfold Filling.step
  split
  · rename_i h_step
    rw [h_step]
  · rename_i h_step
    rw [h_step]
  · rename_i h_step
    rw [h_step]
  · rename_i h_step
    rw [h_step]
    split_ifs
    · rfl
    · rfl

theorem Filling.step_effect (filling : Filling) (s : Store) :
    Effect (filling.phase.moving filling.job) filling.phase.writing s (filling.step config s).2 := by
  rw [Filling.step_store]
  exact FillPhase.step_effect _ _ _ _

/-- A statement of `place_order` that is no INSERT of an order. -/
theorem PlacePhase.step_effect (request : Request) {phase : PlacePhase}
    (h_phase : ∀ available price, phase ≠ .insert available price) (s : Store) :
    Effect (Call.place request phase).moving (Call.place request phase).writing s
      (phase.step config request s).2 := by
  cases phase with
  | readAccount =>
    unfold PlacePhase.step
    dsimp only
    split_ifs
    · exact .refl
    · exact .refl
  | readPositions account =>
    unfold PlacePhase.step
    dsimp only
    split
    · exact .refl
    · exact .refl
  | probe account rows =>
    unfold PlacePhase.step
    dsimp only
    split
    · exact .refl
    · exact .refl
  | insert available price => exact absurd rfl (h_phase available price)
  | reprobe =>
    unfold PlacePhase.step
    dsimp only
    split
    · exact .refl
    · exact .refl
  | answer recorded => exact .refl
  | lockRead order price cost =>
    unfold PlacePhase.step
    dsimp only
    split
    · exact .refl
    · exact .refl
  | lockMoney order price before locked occurredAt =>
    exact issue_store .refl fun row s' h_ok => .wrote rfl (bumpVersionRow_written h_ok)
  | lockEvent order price before locked occurredAt =>
    refine issue_store .refl fun row s' h_ok => ?_
    rw [(insertBalanceEventRow_store h_ok).2.2]
    exact .kept rfl rfl le_rfl
  | accept order price =>
    exact issue_store .refl fun row s' h_ok => .moved rfl (moveOrderRow_eq_ok h_ok)
  | reject order =>
    exact issue_store .refl fun row s' h_ok => .moved rfl (moveOrderRow_eq_ok h_ok)
  | filling fill =>
    have h_fill := @Filling.step_effect config fill s
    unfold PlacePhase.step
    dsimp only
    split
    · rename_i h_step
      rw [h_step] at h_fill
      exact h_fill
    · rename_i h_step
      rw [h_step] at h_fill
      exact h_fill
    · rename_i h_step
      rw [h_step] at h_fill
      exact h_fill
    · rename_i h_step
      rw [h_step] at h_fill
      split_ifs
      · exact h_fill
      · exact h_fill
  | ended ending => exact .refl

theorem CancelPhase.step_effect (orderId : ℕ) (phase : CancelPhase) (s : Store) :
    Effect (Call.cancel orderId phase).moving (Call.cancel orderId phase).writing s
      (phase.step config orderId s).2 := by
  cases phase with
  | readOrder =>
    unfold CancelPhase.step
    dsimp only
    split
    · exact .refl
    · split
      · exact .refl
      · split_ifs
        · exact .refl
        · exact .refl
      · exact .refl
  | readAccount order =>
    unfold CancelPhase.step
    dsimp only
    split
    · exact .refl
    · exact .refl
  | money order before unlocked occurredAt =>
    exact issue_store .refl fun row s' h_ok => .wrote rfl (bumpVersionRow_written h_ok)
  | event order before unlocked occurredAt =>
    refine issue_store .refl fun row s' h_ok => ?_
    rw [(insertBalanceEventRow_store h_ok).2.2]
    exact .kept rfl rfl le_rfl
  | move order =>
    exact issue_store .refl fun row s' h_ok => .moved rfl (moveOrderRow_eq_ok h_ok)
  | answer order => exact .refl
  | ended ending => exact .refl

theorem SweepPhase.step_effect (symbol : String) (price : ℚ) (phase : SweepPhase) (s : Store) :
    Effect (Call.sweep symbol price phase).moving (Call.sweep symbol price phase).writing s
      (phase.step config symbol price s).2 := by
  cases phase with
  | readOrders =>
    unfold SweepPhase.step
    dsimp only
    split
    · exact .refl
    · exact .refl
  | filling fill rest filled =>
    have h_fill := @Filling.step_effect config fill s
    unfold SweepPhase.step
    dsimp only
    split
    · rename_i h_step
      rw [h_step] at h_fill
      exact h_fill
    · rename_i h_step
      rw [h_step] at h_fill
      exact h_fill
    · rename_i h_step
      rw [h_step] at h_fill
      exact h_fill
    · rename_i h_step
      rw [h_step] at h_fill
      exact h_fill
  | ended ending => exact .refl

theorem ResetPhase.step_effect (capital : ℚ) (startedAt : Instant) (phase : ResetPhase) (s : Store) :
    Effect (Call.reset capital startedAt phase).moving (Call.reset capital startedAt phase).writing s
      (phase.step capital startedAt s).2 := by
  cases phase with
  | readOrders => exact .refl
  | cancel order rest cancelled =>
    exact issue_store .refl fun row s' h_ok => .moved rfl (moveOrderRow_eq_ok h_ok)
  | readPositions cancelled => exact .refl
  | closeRead row rest cancelled => exact .refl
  | closeWrite row rest current cancelled =>
    refine issue_store .refl fun row s' h_ok => ?_
    obtain ⟨positions, clock, h_clock, rfl⟩ := writePositionRow_store h_ok
    exact .kept rfl rfl h_clock
  | readAccount cancelled => exact .refl
  | money before cancelled =>
    exact issue_store .refl fun row s' h_ok => .wrote rfl (bumpVersionRow_written h_ok)
  | event before updated =>
    refine issue_store .refl fun row s' h_ok => ?_
    rw [(insertBalanceEventRow_store h_ok).2.2]
    exact .kept rfl rfl le_rfl
  | ended ending => exact .refl

theorem Call.step_effect (call : Call) (s : Store) :
    Effect call.moving call.writing s (call.step config s).2 ∨
      ∃ request available price order, call = .place request (.insert available price) ∧
        OrderInserted (request.newOrder price) s order (call.step config s).2 ∧
        (call.step config s).1 = .place request (request.inserted config available price order) := by
  cases call with
  | place request phase =>
    by_cases h_phase : ∃ available price, phase = .insert available price
    · obtain ⟨available, price, rfl⟩ := h_phase
      rcases issue_cases (insertOrderRow (request.newOrder price) s)
        (request.inserted config available price)
        (fun e => if e = .concurrencyConflict ∧ request.idempotencyKey.isSome then .reprobe
          else .ended (.raised e)) with ⟨order, s', h_ok, h_issue⟩ | ⟨e, -, h_issue⟩
      · refine .inr ⟨request, available, price, order, rfl, ?_, ?_⟩
        · have h_store : ((Call.place request (.insert available price)).step config s).2 = s' :=
            congrArg Prod.snd h_issue
          rw [h_store]
          exact insertOrderRow_eq_ok h_ok
        · exact congrArg (fun step => Call.place request step.1) h_issue
      · refine .inl ?_
        have h_store : ((Call.place request (.insert available price)).step config s).2 = s :=
          congrArg Prod.snd h_issue
        rw [h_store]
        exact .refl
    · exact .inl (PlacePhase.step_effect request (fun available price h_eq =>
        h_phase ⟨available, price, h_eq⟩) s)
  | cancel orderId phase => exact .inl (phase.step_effect orderId s)
  | sweep symbol price phase => exact .inl (phase.step_effect symbol price s)
  | reset capital startedAt phase => exact .inl (phase.step_effect capital startedAt s)

theorem Call.moving_target {call : Call} {move : Moving} (h : call.moving = some move) :
    move.target ≠ .partiallyFilled := by
  have h_fill : ∀ (job : FillJob) (phase : FillPhase), phase.moving job = some move →
      move.target ≠ .partiallyFilled := by
    intro job phase h_phase
    cases phase with
    | finish plan fill =>
      cases h_phase
      exact nofun
    | _ => cases h_phase
  unfold Call.moving at h
  split at h
  · cases h
    exact nofun
  · cases h
    exact nofun
  · exact h_fill _ _ h
  · cases h
    exact nofun
  · exact h_fill _ _ h
  · cases h
    exact nofun
  · cases h

theorem Call.step_orders (h_keyed : OrdersKeyed s) (call : Call) :
    Moves s (call.step config s).2 ∨
      ∃ request available price order, call = .place request (.insert available price) ∧
        OrderInserted (request.newOrder price) s order (call.step config s).2 ∧
        (call.step config s).1 = .place request (request.inserted config available price order) :=
  (call.step_effect s).imp_left fun h => h.moves h_keyed fun _ => Call.moving_target

theorem Call.step_keyed (h_keyed : OrdersKeyed s) (call : Call) :
    OrdersKeyed (call.step config s).2 := by
  rcases @Call.step_orders s config h_keyed call with h_moves | ⟨_, _, _, _, _, h_inserted, _⟩
  · exact h_moves.keyed h_keyed
  · exact h_inserted.keyed h_keyed

end VyomQuant.Paper.Service
