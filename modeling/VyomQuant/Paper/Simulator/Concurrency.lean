/-
  VyomQuant.Paper.Simulator.Concurrency

  Concurrent calls of `apply_fill` on one account.

  `Consistent` is what the orders, the fills and the ledger of an account agree on:
  an order's filled quantity is the sum of its fill rows, it is `FILLED` exactly when
  that is its quantity, no event has two fill rows, and the ledger carries each fill
  once.  One applied fill keeps it (`FillRun.consistent`).  Calls in any interleaving
  leave the store of a serial run (`Optimistic.linearizable`), so they keep it too.
-/

import VyomQuant.Paper.Simulator.ApplyFill

namespace VyomQuant.Paper

open Decimal Except Program

/-! ## A consistent account -/

/-- The unique key of a fill row, `uq_paper_fill_event`. -/
def FillRow.event (fill : FillRow) : ℕ × FillEventId := (fill.orderId, fill.fillEventId)

def FillCall.event (call : FillCall) : ℕ × FillEventId := (call.orderId, call.fillEventId)

/-- The sum of an order's fill rows. -/
def filledBy (s : Store) (orderId : ℕ) : ℚ :=
  ((s.fills.filter fun fill => fill.orderId = orderId).map FillRow.quantity).sum

/-- The ledger rows that carry a fill of the event. -/
def movementsOf (s : Store) (event : ℕ × FillEventId) : List BalanceEventRow :=
  s.balanceEvents.filter fun row =>
    row.cause = .fill ∧ ∃ fill ∈ s.fills, row.fillId = some fill.id ∧ fill.event = event

/-- What an order row and its fill rows agree on. -/
structure OrderConsistent (config : SessionConfig) (s : Store) (order : OrderRow) : Prop where
  grid : OnGrid config.quantityPrecision order.quantity
  numeric : order.quantity < 10 ^ 18
  filled_eq : order.filledQuantity = filledBy s order.id
  filled_le : order.filledQuantity ≤ order.quantity
  filled_iff : order.orderState = .filled ↔ order.filledQuantity = order.quantity

/-- A consistent account without an orphan fill row. -/
structure Consistent (config : SessionConfig) (s : Store) : Prop where
  orders_nodup : (s.orders.map OrderRow.id).Nodup
  orders : ∀ order ∈ s.orders, OrderConsistent config s order
  fills_grid : ∀ fill ∈ s.fills, OnGrid config.quantityPrecision fill.quantity
  fills_pos : ∀ fill ∈ s.fills, 0 < fill.quantity
  fills_drawn : ∀ fill ∈ s.fills, fill.id < s.clock
  fills_nodup : (s.fills.map FillRow.id).Nodup
  events_nodup : (s.fills.map FillRow.event).Nodup
  ledger : ((s.balanceEvents.filter fun row => row.cause = .fill).map BalanceEventRow.fillId).Perm
    (s.fills.map fun fill => some fill.id)

variable {config : SessionConfig} {s s' : Store} {call : FillCall} {fillQty fillPrice : ℚ}
  {fill : AppliedFill}

theorem Consistent.movements_le_one (h : Consistent config s) (event : ℕ × FillEventId) :
    (movementsOf s event).length ≤ 1 := by
  have h_ids : (s.fills.map fun fill => some fill.id).Nodup := by
    have h_some := h.fills_nodup.map (Option.some_injective ℕ)
    rwa [List.map_map] at h_some
  have h_ledger := h.ledger.nodup_iff.mpr h_ids
  have h_sub : (movementsOf s event).Sublist
      (s.balanceEvents.filter fun row => row.cause = .fill) := by
    apply List.monotone_filter_right
    intro row h_row
    simp only [decide_eq_true_eq] at h_row ⊢
    exact h_row.1
  have h_nodup : ((movementsOf s event).map BalanceEventRow.fillId).Nodup :=
    h_ledger.sublist (h_sub.map _)
  -- Two ledger rows of the event carry the one fill row that has its key.
  have h_same : ∀ row ∈ movementsOf s event, ∀ row' ∈ movementsOf s event,
      row.fillId = row'.fillId := by
    intro row h_row row' h_row'
    simp only [movementsOf, List.mem_filter, decide_eq_true_eq] at h_row h_row'
    obtain ⟨-, -, fill, h_fill, h_id, h_event⟩ := h_row
    obtain ⟨-, -, fill', h_fill', h_id', h_event'⟩ := h_row'
    have h_eq : fill = fill' :=
      List.inj_on_of_nodup_map h.events_nodup h_fill h_fill' (h_event.trans h_event'.symm)
    rw [h_id, h_id', h_eq]
  match h_list : movementsOf s event with
  | [] => exact Nat.zero_le 1
  | [_] => exact le_rfl
  | row :: row' :: rest =>
    rw [h_list] at h_nodup h_same
    have h_eq := h_same row (by simp) row' (by simp)
    simp [h_eq] at h_nodup

/-! ## The total of an order's fills is exact -/

/-- The running total of fills at the session's quantity precision. -/
theorem foldlM_addFillAmounts {amounts : List FillAmounts} {totals result : FillTotals}
    (h_grid : OnGrid config.quantityPrecision totals.quantity) (h_nonneg : 0 ≤ totals.quantity)
    (h_amounts : ∀ a ∈ amounts, OnGrid config.quantityPrecision a.quantity ∧ 0 < a.quantity)
    (h_lt : totals.quantity + (amounts.map FillAmounts.quantity).sum < 10 ^ 18)
    (h : amounts.foldlM (addFillAmounts config) totals = .ok result) :
    result.quantity = totals.quantity + (amounts.map FillAmounts.quantity).sum := by
  induction amounts generalizing totals with
  | nil =>
    rw [List.foldlM_nil, pure_eq_ok] at h
    simp [h]
  | cons a rest ih =>
    rw [List.forall_mem_cons] at h_amounts
    obtain ⟨⟨h_a_grid, h_a_pos⟩, h_rest⟩ := h_amounts
    rw [List.map_cons, List.sum_cons] at h_lt ⊢
    have h_rest_nonneg : 0 ≤ (rest.map FillAmounts.quantity).sum := by
      apply List.sum_nonneg
      intro q h_q
      obtain ⟨b, h_b, rfl⟩ := List.mem_map.mp h_q
      exact (h_rest b h_b).2.le
    rw [List.foldlM_cons, bind_eq_ok] at h
    obtain ⟨next, h_next, h⟩ := h
    simp only [addFillAmounts, bind_eq_ok, pure_eq_ok] at h_next
    obtain ⟨qty, h_qty, price, _, rfl⟩ := h_next
    have h_exact : config.accounting.qty a.quantity = .ok a.quantity :=
      quantizeAt_of_recorded _ config.quantityPrecision_le h_a_grid
        (by rw [abs_of_pos h_a_pos]; linarith)
    obtain rfl : a.quantity = qty := ok.inj (h_exact.symm.trans h_qty)
    have h_sum : ambientContext.add totals.quantity a.quantity = totals.quantity + a.quantity :=
      ambient_round_of_recorded config.quantityPrecision_le (h_grid.add h_a_grid)
        (by rw [abs_of_nonneg (by linarith)]; linarith)
    rw [ih (by rw [h_sum]; exact h_grid.add h_a_grid) (by rw [h_sum]; linarith) h_rest
      (by rw [h_sum]; linarith) h, h_sum]
    ring

theorem fillEventTotals_quantity {amounts : List FillAmounts} {totals : FillTotals}
    (h_amounts : ∀ a ∈ amounts, OnGrid config.quantityPrecision a.quantity ∧ 0 < a.quantity)
    (h_lt : (amounts.map FillAmounts.quantity).sum < 10 ^ 18)
    (h : fillEventTotals amounts config = .ok totals) :
    totals.quantity = (amounts.map FillAmounts.quantity).sum := by
  simp only [fillEventTotals, bind_eq_ok, pure_eq_ok] at h
  obtain ⟨sums, h_sums, quantity, h_quantity, rfl⟩ := h
  have h_eq := foldlM_addFillAmounts (OnGrid.zero _) le_rfl h_amounts (by simpa using h_lt) h_sums
  have h_grid : OnGrid config.quantityPrecision (amounts.map FillAmounts.quantity).sum := by
    clear h_lt h_sums h_eq h_quantity
    induction amounts with
    | nil => exact OnGrid.zero _
    | cons a rest ih =>
      rw [List.forall_mem_cons] at h_amounts
      exact h_amounts.1.1.add (ih h_amounts.2)
  have h_nonneg : 0 ≤ (amounts.map FillAmounts.quantity).sum := by
    apply List.sum_nonneg
    intro q h_q
    obtain ⟨b, h_b, rfl⟩ := List.mem_map.mp h_q
    exact (h_amounts b h_b).2.le
  rw [h_eq, zero_add] at h_quantity
  have h_exact := quantizeAt_of_recorded config.accounting config.quantityPrecision_le h_grid
    (by rwa [abs_of_nonneg h_nonneg])
  exact ok.inj (h_quantity.symm.trans h_exact)

/-! ## One applied fill -/

theorem EventResolved.not_filled {otherFills : List FillRow} {resumeFillId : Option ℕ}
    (h_resolved : EventResolved call s otherFills resumeFillId) (h : Consistent config s) :
    resumeFillId = none ∧
      otherFills.Perm (s.fills.filter fun row => row.orderId = call.orderId) ∧
      ∀ row ∈ s.fills, row.event ≠ call.event := by
  cases h_resolved with
  | fresh h_perm h_fresh =>
    refine ⟨rfl, h_perm, ?_⟩
    intro row h_row h_event
    rw [FillRow.event, FillCall.event, Prod.mk.injEq] at h_event
    refine h_fresh row (h_perm.mem_iff.mpr ?_) h_event.2
    exact List.mem_filter.mpr ⟨h_row, by simpa using h_event.1⟩
  | @resumed fills row h_perm h_mem _ h_orphan =>
    -- The ledger carries the fill, so the attempt would have found it settled.
    have h_row : row ∈ s.fills := (List.mem_filter.mp (h_perm.mem_iff.mp h_mem)).1
    have h_ledger := h.ledger.mem_iff.mpr
      (List.mem_map_of_mem (f := fun fill : FillRow => some fill.id) h_row)
    obtain ⟨event, h_event, h_id⟩ := List.mem_map.mp h_ledger
    rw [List.mem_filter, decide_eq_true_eq] at h_event
    exact absurd h_id (h_orphan event h_event.1 h_event.2)

theorem FillRun.inserted (run : FillRun config call fillQty fillPrice s fill s')
    (h : Consistent config s) (h_figures : fillFigures config call = .ok (fillQty, fillPrice)) :
    s'.fills = s.fills ++ [fill.commit.fill] ∧ fill.commit.fill.id = s.clock ∧
      fill.commit.fill.event = call.event ∧ fill.commit.fill.quantity = fillQty ∧
      fillQty < 10 ^ 18 := by
  obtain ⟨decision⟩ := prepareFill_eq_ok run.prepared_eq
  have h_commit := applyFillAtomic_eq_ok run.committed
  have h_passed := fillContext_eq_ok run.context_eq
  have h_resume : run.prepared.args.resumeFillId = none := by
    rw [decision.resume_eq, h_passed.resume_eq, (run.event.not_filled h).1]
  cases h_commit.fill with
  | resumed h_args => rw [h_resume] at h_args; cases h_args
  | inserted _ h_id h_quantity _ _ _ h_fills =>
    rw [decision.quantity_eq] at h_quantity
    have h_grid : OnGrid config.quantityPrecision fillQty :=
      Accounting.AccountingConfig.quantizeAt_onGrid (fillFigures_eq_ok.mp h_figures).1
    have h_eq : fill.commit.fill.quantity = fillQty :=
      numeric_eq_of_onGrid h_quantity config.quantityPrecision_le h_grid
    refine ⟨h_fills, h_id, ?_, h_eq, ?_⟩
    · rw [FillRow.event, FillCall.event, h_commit.fill_orderId, h_commit.fill_eventId,
        decision.orderId_eq, decision.event_eq]
    · have h_lt := (numeric_isNumeric h_quantity).2
      rw [h_eq] at h_lt
      exact (le_abs_self _).trans_lt h_lt

theorem filledBy_append (s : Store) (row : FillRow) (orderId : ℕ)
    (h : s'.fills = s.fills ++ [row]) :
    filledBy s' orderId = filledBy s orderId + if row.orderId = orderId then row.quantity else 0 := by
  unfold filledBy
  rw [h, List.filter_append, List.map_append, List.sum_append]
  by_cases h_order : row.orderId = orderId
  · simp [h_order]
  · simp [h_order]

theorem Consistent.filledBy_nonneg (h : Consistent config s) (orderId : ℕ) :
    0 ≤ filledBy s orderId := by
  apply List.sum_nonneg
  intro q h_q
  obtain ⟨row, h_row, rfl⟩ := List.mem_map.mp h_q
  exact (h.fills_pos row (List.mem_filter.mp h_row).1).le

theorem Consistent.filledBy_onGrid (h : Consistent config s) (orderId : ℕ) :
    OnGrid config.quantityPrecision (filledBy s orderId) := by
  have h_rows : ∀ row ∈ s.fills.filter fun fill => fill.orderId = orderId,
      OnGrid config.quantityPrecision row.quantity :=
    fun row h_row => h.fills_grid row (List.mem_filter.mp h_row).1
  unfold filledBy
  generalize s.fills.filter (fun fill => fill.orderId = orderId) = rows at h_rows
  induction rows with
  | nil => exact OnGrid.zero _
  | cons row rest ih =>
    rw [List.forall_mem_cons] at h_rows
    exact h_rows.1.add (ih h_rows.2)

theorem FillRun.prior_quantity (run : FillRun config call fillQty fillPrice s fill s')
    (h : Consistent config s) :
    run.context.prior.quantity = filledBy s call.orderId := by
  have h_order : run.order ∈ s.orders := List.mem_of_find?_eq_some run.order_eq
  have h_id : run.order.id = call.orderId := by simpa using List.find?_some run.order_eq
  have h_consistent := h.orders run.order h_order
  have h_passed := fillContext_eq_ok run.context_eq
  obtain ⟨_, h_perm, _⟩ := run.event.not_filled h
  have h_sum : ((run.otherFills.map FillRow.amounts).map FillAmounts.quantity).sum
      = filledBy s call.orderId := by
    rw [List.map_map]
    exact (h_perm.map FillRow.quantity).sum_eq
  rw [← h_sum]
  apply fillEventTotals_quantity _ _ h_passed.prior_eq
  · intro a h_a
    obtain ⟨row, h_row, rfl⟩ := List.mem_map.mp h_a
    have h_mem := (List.mem_filter.mp (h_perm.mem_iff.mp h_row)).1
    exact ⟨h.fills_grid row h_mem, h.fills_pos row h_mem⟩
  · rw [h_sum, ← h_id, ← h_consistent.filled_eq]
    exact h_consistent.filled_le.trans_lt h_consistent.numeric

/-- Guard 3 computes the exact total, and keeps it within the order. -/
theorem FillRun.filledQuantity (run : FillRun config call fillQty fillPrice s fill s')
    (h : Consistent config s) (h_figures : fillFigures config call = .ok (fillQty, fillPrice)) :
    run.context.filledQuantity = filledBy s call.orderId + fillQty ∧
      run.context.filledQuantity ≤ run.order.quantity ∧
      run.context.target
        = if run.context.filledQuantity = run.order.quantity then .filled
          else .partiallyFilled := by
  have h_order := h.orders run.order (List.mem_of_find?_eq_some run.order_eq)
  have h_passed := fillContext_eq_ok run.context_eq
  obtain ⟨h_qty, -, h_pos, -⟩ := fillFigures_eq_ok.mp h_figures
  have h_grid : OnGrid config.quantityPrecision (filledBy s call.orderId + fillQty) :=
    (h.filledBy_onGrid _).add (Accounting.AccountingConfig.quantizeAt_onGrid h_qty)
  have h_nonneg := h.filledBy_nonneg call.orderId
  have h_order_nonneg : 0 ≤ run.order.quantity := by
    have h_filled_le := h_order.filled_le
    rw [h_order.filled_eq] at h_filled_le
    exact (h.filledBy_nonneg _).trans h_filled_le
  obtain ⟨ordered, h_ordered, h_le, h_target⟩ := h_passed.ordered
  have h_exact_order : config.accounting.qty run.order.quantity = .ok run.order.quantity :=
    quantizeAt_of_recorded _ config.quantityPrecision_le h_order.grid
      (by rw [abs_of_nonneg h_order_nonneg]; exact h_order.numeric)
  obtain rfl : run.order.quantity = ordered := ok.inj (h_exact_order.symm.trans h_ordered)
  have h_filled := h_passed.filled_eq
  rw [run.prior_quantity h] at h_filled
  -- A total beyond the columns' range stays beyond it when it is rounded.
  have h_lt : filledBy s call.orderId + fillQty < 10 ^ 18 := by
    by_contra h_ge
    have h_bound : ambientContext.Representable (10 ^ 18) :=
      ⟨1, 18, by norm_num [ambientContext], by norm_num⟩
    have h_whole : OnGrid config.accounting.quantityPrecision ((10 : ℚ) ^ 18) := by
      have h_int := OnGrid.intCast config.accounting.quantityPrecision (10 ^ 18)
      push_cast at h_int
      exact h_int
    have h_quantized : (10 : ℚ) ^ 18 ≤ run.context.filledQuantity :=
      Context.le_quantize (Accounting.AccountingConfig.quantizeAt_eq_ok h_filled) h_whole
        (h_bound.le_round (not_lt.mp h_ge))
    exact absurd (h_quantized.trans h_le) (not_le.mpr h_order.numeric)
  have h_abs : |filledBy s call.orderId + fillQty| < 10 ^ 18 := by
    rwa [abs_of_nonneg (by linarith)]
  have h_round : ambientContext.add (filledBy s call.orderId) fillQty
      = filledBy s call.orderId + fillQty :=
    ambient_round_of_recorded config.quantityPrecision_le h_grid h_abs
  rw [h_round] at h_filled
  have h_exact := quantizeAt_of_recorded config.accounting config.quantityPrecision_le h_grid h_abs
  exact ⟨ok.inj (h_filled.symm.trans h_exact), h_le, h_target⟩

theorem FillRun.order_row (run : FillRun config call fillQty fillPrice s fill s')
    (h : Consistent config s) (h_figures : fillFigures config call = .ok (fillQty, fillPrice)) :
    fill.commit.order.id = call.orderId ∧
      fill.commit.order.quantity = run.order.quantity ∧
      fill.commit.order.filledQuantity = run.context.filledQuantity ∧
      fill.commit.order.orderState = run.context.target := by
  obtain ⟨decision⟩ := prepareFill_eq_ok run.prepared_eq
  have h_commit := applyFillAtomic_eq_ok run.committed
  obtain ⟨old, h_old, _, h_written⟩ := h_commit.order
  rw [decision.orderId_eq, run.order_eq, Option.some.injEq] at h_old
  subst h_old
  have h_id : run.order.id = call.orderId := by simpa using List.find?_some run.order_eq
  obtain ⟨h_filled, _, _⟩ := run.filledQuantity h h_figures
  have h_grid : OnGrid config.quantityPrecision run.context.filledQuantity := by
    rw [h_filled]
    exact (h.filledBy_onGrid _).add
      (Accounting.AccountingConfig.quantizeAt_onGrid (fillFigures_eq_ok.mp h_figures).1)
  have h_numeric := h_written.filledQuantity
  rw [decision.filled_eq] at h_numeric
  have h_eq := numeric_eq_of_onGrid h_numeric config.quantityPrecision_le h_grid
  obtain ⟨_, _, _, h_row⟩ := h_written.row
  rw [h_row]
  exact ⟨h_id, rfl, by rw [h_eq], decision.target_eq⟩

/-- One applied fill keeps the account consistent and adds its event. -/
theorem FillRun.consistent (run : FillRun config call fillQty fillPrice s fill s')
    (h : Consistent config s) (h_figures : fillFigures config call = .ok (fillQty, fillPrice)) :
    Consistent config s' ∧ s'.fills.map FillRow.event = s.fills.map FillRow.event ++ [call.event] := by
  have h_commit := applyFillAtomic_eq_ok run.committed
  obtain ⟨h_fills, h_fill_id, h_event, h_quantity, h_fill_lt⟩ := run.inserted h h_figures
  obtain ⟨h_order_id, h_order_qty, h_order_filled, h_order_state⟩ := run.order_row h h_figures
  obtain ⟨h_filled, h_le, h_target⟩ := run.filledQuantity h h_figures
  obtain ⟨_, _, h_fresh⟩ := run.event.not_filled h
  obtain ⟨h_qty, -, h_pos, -⟩ := fillFigures_eq_ok.mp h_figures
  have h_order := h.orders run.order (List.mem_of_find?_eq_some run.order_eq)
  have h_run_id : run.order.id = call.orderId := by simpa using List.find?_some run.order_eq
  have h_fill_order : fill.commit.fill.orderId = call.orderId := (Prod.mk.inj h_event).1
  have h_clock := h_commit.clock
  refine ⟨?_, by rw [h_fills, List.map_append, List.map_singleton, h_event]⟩
  constructor
  case orders_nodup =>
    have h_ids : s'.orders.map OrderRow.id = s.orders.map OrderRow.id := by
      rw [h_commit.orders, List.map_map]
      apply List.map_congr_left
      intro old _
      rw [Function.comp_apply]
      split
      · rename_i h_eq
        exact h_eq.symm
      · rfl
    rw [h_ids]
    exact h.orders_nodup
  case orders =>
    intro order h_mem
    rw [h_commit.orders] at h_mem
    obtain ⟨old, h_old, h_eq⟩ := List.mem_map.mp h_mem
    split at h_eq
    · subst h_eq
      constructor
      case grid => rw [h_order_qty]; exact h_order.grid
      case numeric => rw [h_order_qty]; exact h_order.numeric
      case filled_eq =>
        rw [h_order_filled, h_filled, filledBy_append s _ _ h_fills, h_order_id, h_fill_order,
          if_pos rfl, h_quantity]
      case filled_le => rw [h_order_filled, h_order_qty]; exact h_le
      case filled_iff =>
        rw [h_order_state, h_order_filled, h_order_qty, h_target]
        split
        · rename_i h_full
          simp [h_full]
        · rename_i h_part
          simp [h_part]
    · rename_i h_ne
      subst h_eq
      have h_kept := h.orders old h_old
      refine ⟨h_kept.grid, h_kept.numeric, ?_, h_kept.filled_le, h_kept.filled_iff⟩
      have h_other : ¬ fill.commit.fill.orderId = old.id := by
        rw [h_fill_order, ← h_order_id]
        exact fun h_eq => h_ne h_eq.symm
      rw [filledBy_append s _ _ h_fills, if_neg h_other, add_zero]
      exact h_kept.filled_eq
  case fills_grid =>
    rw [h_fills]
    intro row h_row
    rcases List.mem_append.mp h_row with h_old | h_new
    · exact h.fills_grid row h_old
    · rw [List.mem_singleton.mp h_new, h_quantity]
      exact Accounting.AccountingConfig.quantizeAt_onGrid h_qty
  case fills_pos =>
    rw [h_fills]
    intro row h_row
    rcases List.mem_append.mp h_row with h_old | h_new
    · exact h.fills_pos row h_old
    · rw [List.mem_singleton.mp h_new, h_quantity]
      exact h_pos
  case fills_drawn =>
    rw [h_fills]
    intro row h_row
    rcases List.mem_append.mp h_row with h_old | h_new
    · exact (h.fills_drawn row h_old).trans h_clock
    · rw [List.mem_singleton.mp h_new, h_fill_id]
      exact h_clock
  case fills_nodup =>
    rw [h_fills, List.map_append, List.map_singleton, ← List.concat_eq_append]
    apply h.fills_nodup.concat
    rw [h_fill_id]
    intro h_mem
    obtain ⟨row, h_row, h_id⟩ := List.mem_map.mp h_mem
    exact absurd (h.fills_drawn row h_row) (by omega)
  case events_nodup =>
    rw [h_fills, List.map_append, List.map_singleton, ← List.concat_eq_append]
    apply h.events_nodup.concat
    rw [h_event]
    intro h_mem
    obtain ⟨row, h_row, h_eq⟩ := List.mem_map.mp h_mem
    exact h_fresh row h_row h_eq
  case ledger =>
    rw [h_commit.balanceEvents, h_fills, List.filter_append, List.map_append, List.map_append]
    apply h.ledger.append
    rw [List.filter_singleton, h_commit.movement.cause]
    simp [h_commit.movement.fillId]

/-! ## Every interleaving -/

/-- The attempt a call retries, when its figures are admitted. -/
def fillAttempt (config : SessionConfig) (call : FillCall) : Repo FillOutcome :=
  match fillFigures config call with
  | .error _ => applyFillAttempt config call 0 0
  | .ok (fillQty, fillPrice) => applyFillAttempt config call fillQty fillPrice

theorem applyFill_retried {ι : Type} (calls : ι → FillCall) :
    Optimistic.Retried isRetryable (.concurrencyExhausted .applyFill none false) 2
      (fun i => fillAttempt config (calls i)) (fun i => applyFill config (calls i)) := by
  intro i
  simp only [fillAttempt, applyFill]
  cases fillFigures config (calls i) with
  | error e => exact Or.inr ⟨e, rfl⟩
  | ok figures => exact Or.inl rfl

theorem fillAttempt_attempt (config : SessionConfig) (call : FillCall) :
    Optimistic.Attempt handle accountVersion FillOutcome.isApplied (fillAttempt config call) := by
  unfold fillAttempt
  split
  · exact applyFillAttempt_attempt ..
  · exact applyFillAttempt_attempt ..

theorem serial_consistent {ι : Type} {calls : ι → FillCall} {s₀ : Store}
    {l : List (ι × FillOutcome)} (h₀ : Consistent config s₀)
    (h : Optimistic.Serial handle FillOutcome.isApplied (fun i => applyFill config (calls i)) s₀ l s) :
    Consistent config s ∧ s.fills.map FillRow.event
      = s₀.fills.map FillRow.event ++ l.map fun entry => (calls entry.1).event := by
  induction h with
  | nil => exact ⟨h₀, by simp⟩
  | @snoc l s s' i outcome _ h_run h_applied ih =>
    obtain ⟨h_consistent, h_events⟩ := ih
    cases outcome with
    | terminal _ => exact h_applied.elim
    | duplicate _ => exact h_applied.elim
    | applied fill =>
      obtain ⟨fillQty, fillPrice, h_figures, ⟨run⟩⟩ := applyFill_applied h_run
      obtain ⟨h_next, h_next_events⟩ := run.consistent h_consistent h_figures
      refine ⟨h_next, ?_⟩
      rw [h_next_events, h_events, List.map_append, List.map_singleton, List.append_assoc]

/-- Concurrent calls of `apply_fill` fill every event at most once and no order beyond
    its quantity, and leave the store of a serial run of the calls that applied. -/
theorem applyFill_exactly_once {ι : Type} [DecidableEq ι] (config : SessionConfig)
    (calls : ι → FillCall) (s₀ : Store) (h₀ : Consistent config s₀)
    {c : Optimistic.Config Res PaperError FillOutcome Store ι}
    (h_run : Relation.ReflTransGen (Optimistic.Step handle)
      ⟨s₀, fun i => applyFill config (calls i)⟩ c) :
    (∀ order ∈ c.store.orders,
      order.filledQuantity = filledBy c.store order.id ∧
      order.filledQuantity ≤ order.quantity ∧
      (order.orderState = .filled ↔ order.filledQuantity = order.quantity)) ∧
    (∀ event, (movementsOf c.store event).length ≤ 1) ∧
    ∃ l : List (ι × FillOutcome),
      (l.map Prod.fst).Nodup ∧
      (∀ i outcome, (i, outcome) ∈ l ↔ c.pool i = .ret outcome ∧ outcome.isApplied) ∧
      (c.store.fills.map FillRow.event).Nodup ∧
      c.store.fills.map FillRow.event
        = s₀.fills.map FillRow.event ++ l.map (fun entry => (calls entry.1).event) ∧
      Optimistic.Serial handle FillOutcome.isApplied (fun i => applyFill config (calls i)) s₀ l
        c.store := by
  obtain ⟨l, h_nodup, h_applied, h_serial⟩ := Optimistic.linearizable
    (fun i => fillAttempt_attempt config (calls i)) (applyFill_retried calls) h_run
  obtain ⟨h_consistent, h_events⟩ := serial_consistent h₀ h_serial
  refine ⟨?_, h_consistent.movements_le_one, l, h_nodup, h_applied, h_consistent.events_nodup,
    h_events, h_serial⟩
  intro order h_order
  have h_kept := h_consistent.orders order h_order
  exact ⟨h_kept.filled_eq, h_kept.filled_le, h_kept.filled_iff⟩

/-- An accepted order for half a bitcoin, alone on the account. -/
def acceptedOrder : OrderRow where
  id := 0
  symbol := "BTC/USDT"
  side := .buy
  orderType := .market
  quantity := 1 / 2
  limitPrice := none
  referencePrice := some 1000
  filledQuantity := 0
  avgFillPrice := none
  feeMinor := 0
  slippageMinor := 0
  orderState := .accepted
  rejectionReason := none
  idempotencyKey := none
  signalId := none
  fingerprint := ⟨"BTC/USDT", .recognised .buy, .recognised .market, 1 / 2, none, "gtc"⟩
  createdAt := 0

def deliveredFill : FillCall where
  orderId := 0
  quantity := 1 / 4
  price := 2001 / 2
  fillEventId := .named "delivery"
  filledAt := 5

/-- Two calls deliver the fill: the first commits after the second has read the
    account, and the second goes on and finds the event settled. -/
def deliveredTwice : Optimistic.Config Res PaperError FillOutcome Store Bool :=
  Optimistic.execute handle
    ⟨{ Store.started 1000 with orders := [acceptedOrder], clock := 1 },
      fun _ => applyFill spotConfig deliveredFill⟩
    [true, false, false, false, false, false, false, true, true, true]

theorem applyFill_exactly_once_deliveredTwice :
    deliveredTwice.store.fills.map FillRow.quantity = [1 / 4] ∧
      (∀ order ∈ deliveredTwice.store.orders,
        order.filledQuantity = filledBy deliveredTwice.store order.id) ∧
      (movementsOf deliveredTwice.store deliveredFill.event).length ≤ 1 ∧
      (match deliveredTwice.pool true with | .ret (.duplicate _) => true | _ => false) = true := by
  have h₀ : Consistent spotConfig
      { Store.started 1000 with orders := [acceptedOrder], clock := 1 } := by
    constructor
    case orders =>
      intro row h_row
      rw [List.mem_singleton.mp h_row]
      constructor <;> decide +kernel
    all_goals decide +kernel
  obtain ⟨h_orders, h_movements, _⟩ := applyFill_exactly_once spotConfig
    (fun _ : Bool => deliveredFill) _ h₀ (c := deliveredTwice) (Optimistic.execute_reachable ..)
  exact ⟨by decide +kernel, fun order h_order => (h_orders order h_order).1, h_movements _,
    by decide +kernel⟩

end VyomQuant.Paper
