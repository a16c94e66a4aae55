/-
  VyomQuant.Paper.Store.Orders

  The table of orders: its identities, what an insert at `CREATED` adds, and what an
  update guarded by a state does to the row it names.

  `OrdersKeyed` is the primary key of the table with the clock it is drawn from.  Under
  it an update of one row leaves every other row (`replaceOrder_of_not_mem`).
-/

import VyomQuant.Paper.Store.Repository

namespace VyomQuant.Paper

open Except
open Accounting (OrderSide)

/-- The identities of the orders are distinct, and were drawn before the clock. -/
structure OrdersKeyed (s : Store) : Prop where
  nodup : (s.orders.map OrderRow.id).Nodup
  drawn : ∀ order ∈ s.orders, order.id < s.clock

variable {s s' : Store}

theorem replaceOrder_of_not_mem {order : OrderRow} {orders : List OrderRow}
    (h : ∀ old ∈ orders, old.id ≠ order.id) :
    (orders.map fun old => if old.id = order.id then order else old) = orders := by
  calc (orders.map fun old => if old.id = order.id then order else old)
      = orders.map id := List.map_congr_left fun old h_old => if_neg (h old h_old)
    _ = orders := List.map_id orders

theorem OrdersKeyed.congr (h : OrdersKeyed s)
    (h_ids : s'.orders.map OrderRow.id = s.orders.map OrderRow.id) (h_clock : s.clock ≤ s'.clock) :
    OrdersKeyed s' := by
  refine ⟨by rw [h_ids]; exact h.nodup, fun order h_order => ?_⟩
  have h_mem : order.id ∈ s.orders.map OrderRow.id := by
    rw [← h_ids]
    exact List.mem_map_of_mem h_order
  obtain ⟨old, h_old, h_id⟩ := List.mem_map.mp h_mem
  have h_lt := h.drawn old h_old
  omega

theorem OrdersKeyed.find?_eq_some (h : OrdersKeyed s) {order : OrderRow} (h_mem : order ∈ s.orders) :
    (s.orders.find? fun row => row.id = order.id) = some order :=
  KeyedList.find?_key_of_mem h.nodup h_mem

theorem length_orders_le (op : RepoOp) (s : Store) :
    s.orders.length ≤ (handle op s).2.orders.length := by
  rcases handle_cases op s with ⟨answer, s', h_ran, h_handle⟩ | ⟨e, _, h_handle⟩
  · rw [h_handle]
    cases op with
    | lockAccountForUpdate | readOrder _ | readSession | getFills _ | getBalanceEvents _
    | getPositions _ | getOrders _ | getEquitySnapshots | probeIdempotencyKey _
    | readOpenPosition _ =>
      cases h_ran
      exact le_rfl
    | insertOrder order =>
      simp only [statement, insertOrderRow, bind_eq_ok, pure_eq_ok, Prod.mk.injEq] at h_ran
      obtain ⟨_, _, _, _, _, _, _, _, _, _, _, _, _, rfl⟩ := h_ran
      simp
    | updateOrder orderId orderState expectedState reason =>
      simp only [statement, updateOrderRow, bind_eq_ok, pure_eq_ok, Prod.mk.injEq] at h_ran
      obtain ⟨_, _, _, _, _, rfl⟩ := h_ran
      simp [replaceOrder]
    | bumpVersion version payload =>
      simp only [statement, bumpVersionRow, bind_eq_ok, pure_eq_ok, Prod.mk.injEq] at h_ran
      obtain ⟨_, _, _, _, _, _, _, _, _, _, _, _, _, rfl⟩ := h_ran
      exact le_rfl
    | insertBalanceEvent event =>
      simp only [statement, insertBalanceEventRow, bind_eq_ok, pure_eq_ok, Prod.mk.injEq] at h_ran
      obtain ⟨_, _, _, _, _, _, _, _, _, _, _, _, _, rfl⟩ := h_ran
      exact le_rfl
    | insertEquitySnapshot snapshot =>
      rw [writeSnapshot_eq_ok h_ran]
    | updatePosition rowId version values =>
      simp only [statement, updatePositionRow, bind_eq_ok, pure_eq_ok, Prod.mk.injEq] at h_ran
      obtain ⟨_, _, _, _, _, _, _, _, _, _, _, _, _, rfl⟩ := h_ran
      exact le_rfl
    | insertPosition values =>
      simp only [statement, insertPositionRow, bind_eq_ok, pure_eq_ok, Prod.mk.injEq] at h_ran
      obtain ⟨_, _, _, _, _, _, _, _, _, _, _, _, _, rfl⟩ := h_ran
      exact le_rfl
    | applyFillAtomic args =>
      have h_committed := applyFillAtomic_eq_ok h_ran
      rw [h_committed.orders, List.length_map]
    | transitionSession current target =>
      simp only [statement, transitionSessionRow, bind_eq_ok, pure_eq_ok, Prod.mk.injEq] at h_ran
      obtain ⟨_, _, _, rfl⟩ := h_ran
      exact le_rfl
  · rw [h_handle]

/-! ## Inserting an order -/

structure OrderInserted (new : NewOrder) (s : Store) (row : OrderRow) (s' : Store) : Prop where
  quantity : numeric new.quantity = .ok row.quantity
  limitPrice : optionalNumeric new.limitPrice = .ok row.limitPrice
  quantity_pos : 0 < row.quantity
  limitPrice_pos : ∀ limit ∈ row.limitPrice, 0 < limit
  fresh_key : ∀ key ∈ new.idempotencyKey, ∀ old ∈ s.orders, old.idempotencyKey ≠ some key
  row_eq : row = {
    id := s.clock, symbol := new.symbol, side := new.side, orderType := new.orderType
    quantity := row.quantity, limitPrice := row.limitPrice, referencePrice := row.referencePrice
    filledQuantity := 0, avgFillPrice := none, feeMinor := 0, slippageMinor := 0
    orderState := .created, rejectionReason := none, idempotencyKey := new.idempotencyKey
    signalId := new.signalId, fingerprint := new.fingerprint, createdAt := s.clock }
  store : s' = { s with orders := s.orders ++ [row], clock := s.clock + 1 }

theorem insertOrderRow_eq_ok {new : NewOrder} {row : OrderRow}
    (h : insertOrderRow new s = .ok (row, s')) : OrderInserted new s row s' := by
  simp only [insertOrderRow, bind_eq_ok, pure_eq_ok, refuseIf_eq_ok, Prod.mk.injEq, not_le] at h
  obtain ⟨quantity, h_quantity, limitPrice, h_limit, referencePrice, _, _, h_pos, _, h_limit_pos,
    _, h_fresh, rfl, rfl⟩ := h
  exact {
    quantity := h_quantity
    limitPrice := h_limit
    quantity_pos := h_pos
    limitPrice_pos := fun limit h_mem => not_le.mp fun h_le => h_limit_pos ⟨limit, h_mem, h_le⟩
    fresh_key := fun key h_key old h_old h_eq => h_fresh ⟨key, h_key, old, h_old, h_eq⟩
    row_eq := rfl
    store := rfl }

namespace OrderInserted

variable {new : NewOrder} {row : OrderRow}

theorem id_eq (h : OrderInserted new s row s') : row.id = s.clock := by rw [h.row_eq]

theorem state_eq (h : OrderInserted new s row s') : row.orderState = .created := by rw [h.row_eq]

theorem not_mem (h : OrderInserted new s row s') (h_keyed : OrdersKeyed s) : row ∉ s.orders := by
  intro h_mem
  have h_lt := h_keyed.drawn row h_mem
  rw [h.id_eq] at h_lt
  omega

theorem keyed (h : OrderInserted new s row s') (h_keyed : OrdersKeyed s) : OrdersKeyed s' := by
  rw [h.store]
  constructor
  case nodup =>
    rw [List.map_append, List.nodup_append]
    refine ⟨h_keyed.nodup, List.nodup_singleton _, fun a h_a b h_b h_eq => ?_⟩
    obtain ⟨old, h_old, rfl⟩ := List.mem_map.mp h_a
    simp only [List.map_cons, List.map_nil, List.mem_singleton] at h_b
    have h_lt := h_keyed.drawn old h_old
    rw [h_eq, h_b, h.id_eq] at h_lt
    omega
  case drawn =>
    intro order h_order
    show order.id < s.clock + 1
    rcases List.mem_append.mp h_order with h_old | h_new
    · have h_lt := h_keyed.drawn order h_old
      omega
    · rw [List.mem_singleton.mp h_new, h.id_eq]
      omega

/-- The row after its first transition. -/
def moved (row : OrderRow) (target : OrderState) (reason : Option RejectionReason) : OrderRow :=
  { row with orderState := target, rejectionReason := reason }

/-- The update guarded by `CREATED` finds the row just inserted. -/
theorem updateOrderRow_eq (h : OrderInserted new s row s') (h_keyed : OrdersKeyed s)
    {target : OrderState} {reason : Option RejectionReason}
    (h_allowed : OrderState.created.canTransition target) :
    updateOrderRow row.id target .created reason s'
      = .ok (moved row target reason, { s' with orders := s.orders ++ [moved row target reason] }) := by
  have h_others : ∀ old ∈ s.orders, old.id ≠ row.id := by
    intro old h_old h_eq
    have h_lt := h_keyed.drawn old h_old
    rw [h_eq, h.id_eq] at h_lt
    omega
  have h_find : s'.orders.find? (fun old => old.id = row.id ∧ old.orderState = .created)
      = some row := by
    rw [h.store]
    show (s.orders ++ [row]).find? _ = _
    rw [List.find?_append, List.find?_eq_none.mpr, Option.none_or]
    · simp [h.state_eq]
    · intro old h_old
      simp [h_others old h_old]
  have h_reason : reason.or row.rejectionReason = reason := by
    rw [h.row_eq]
    cases reason <;> rfl
  have h_guard : transitionAllowed row.orderState target := by
    rw [h.state_eq]
    exact Or.inr h_allowed
  have h_rows : replaceOrder (moved row target reason) s'
      = { s' with orders := s.orders ++ [moved row target reason] } := by
    rw [h.store]
    simp only [replaceOrder, List.map_append, List.map_cons, List.map_nil]
    have h_same := replaceOrder_of_not_mem (show ∀ old ∈ s.orders,
      old.id ≠ (moved row target reason).id from h_others)
    rw [h_same, if_pos (show row.id = (moved row target reason).id from rfl)]
  simp only [updateOrderRow, h_find, Except.ofOption]
  rw [← h_rows]
  simp [Bind.bind, Except.bind, Pure.pure, Except.pure, Except.refuseIf, h_guard, h_reason, moved]

end OrderInserted

end VyomQuant.Paper
