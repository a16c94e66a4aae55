/-
  VyomQuant.Paper.Service.Reservations

  The locked balance of the default account and its resting buys.

  `Exact` is the invariant: the locked balance is the cash of the orders that are backed,
  and which orders are backed is read off the order states and the stakes of the calls.
  Two cancels of one order break it; `reservations_exact` is about the runs of statements
  that do not go wrong.
-/

import VyomQuant.Paper.Service.Standing

namespace VyomQuant.Paper.Service

open Decimal Except
open Accounting (AccountingConfig Account Instant)

variable {config : AccountingConfig} {s s' : Store} {backed : ℕ → Bool} {ι : Type} [DecidableEq ι]
  {c c' : System ι} {i : ι}

/-! ## The cash of the backed orders -/

def total (config : AccountingConfig) (backed : ℕ → Bool) (orders : List OrderRow) : ℚ :=
  (orders.map fun order => if backed order.id then reservedFor config order else 0).sum

section Total

variable {orders : List OrderRow} {row : OrderRow}

theorem total_cons (order : OrderRow) (orders : List OrderRow) :
    total config backed (order :: orders)
      = (if backed order.id then reservedFor config order else 0) + total config backed orders :=
  List.sum_cons

theorem total_append_singleton (orders : List OrderRow) (order : OrderRow) :
    total config backed (orders ++ [order])
      = total config backed orders + if backed order.id then reservedFor config order else 0 := by
  simp [total]

theorem total_map {f : OrderRow → OrderRow} (h : ∀ order ∈ orders, termsOf (f order) = termsOf order) :
    total config backed (orders.map f) = total config backed orders := by
  unfold total
  rw [List.map_map]
  refine congrArg List.sum (List.map_congr_left fun order h_order => ?_)
  have h_terms := h order h_order
  have h_id : (f order).id = order.id := congrArg OrderTerms.id h_terms
  show (if backed (f order).id then reservedFor config (f order) else 0) = _
  rw [h_id, reservedFor_congr h_terms]

theorem total_congr {backed' : ℕ → Bool}
    (h : ∀ order ∈ orders, reservedFor config order ≠ 0 → backed' order.id = backed order.id) :
    total config backed' orders = total config backed orders := by
  refine congrArg List.sum (List.map_congr_left fun order h_order => ?_)
  by_cases h_zero : reservedFor config order = 0
  · rw [h_zero, ite_self, ite_self]
  · rw [h order h_order h_zero]

theorem total_update (h_nodup : (orders.map OrderRow.id).Nodup) (h_row : row ∈ orders)
    (value : Bool) :
    total config (Function.update backed row.id value) orders
        + (if backed row.id then reservedFor config row else 0)
      = total config backed orders + if value then reservedFor config row else 0 := by
  induction orders with
  | nil => cases h_row
  | cons order rest ih =>
    rw [List.map_cons, List.nodup_cons] at h_nodup
    obtain ⟨h_new, h_rest⟩ := h_nodup
    rw [total_cons, total_cons]
    rcases List.mem_cons.mp h_row with rfl | h_mem
    · -- The rest does not hold the identity.
      have h_same : total config (Function.update backed row.id value) rest
          = total config backed rest := by
        refine total_congr fun other h_other _ => Function.update_of_ne ?_ value backed
        intro h_eq
        exact h_new (h_eq ▸ List.mem_map_of_mem h_other)
      rw [h_same, Function.update_self]
      ring
    · have h_ne : order.id ≠ row.id := fun h_eq => h_new (h_eq ▸ List.mem_map_of_mem h_mem)
      rw [Function.update_of_ne h_ne]
      have h_ih := ih h_rest h_mem
      linarith

theorem total_nonneg (h : ∀ order ∈ orders, 0 ≤ reservedFor config order) :
    0 ≤ total config backed orders := by
  refine List.sum_nonneg fun value h_value => ?_
  obtain ⟨order, h_order, rfl⟩ := List.mem_map.mp h_value
  split_ifs
  · exact h order h_order
  · exact le_rfl

theorem le_total (h : ∀ order ∈ orders, 0 ≤ reservedFor config order) (h_row : row ∈ orders)
    (h_backed : backed row.id = true) : reservedFor config row ≤ total config backed orders := by
  induction orders with
  | nil => cases h_row
  | cons order rest ih =>
    have h_rest : ∀ other ∈ rest, 0 ≤ reservedFor config other :=
      fun other h_other => h other (List.mem_cons_of_mem _ h_other)
    have h_nonneg : 0 ≤ total config backed rest := total_nonneg h_rest
    rw [total_cons]
    rcases List.mem_cons.mp h_row with rfl | h_mem
    · rw [if_pos h_backed]
      linarith
    · have h_le := ih h_rest h_mem
      have h_head : 0 ≤ if backed order.id then reservedFor config order else 0 := by
        split_ifs
        · exact h order List.mem_cons_self
        · exact le_rfl
      linarith

end Total

/-! ## The locked balance is the cash of the backed orders -/

omit [DecidableEq ι] in
theorem anyone_iff (c : System ι) (i : ι) (P : Stake → Prop) :
    Anyone c P ↔ P (c.calls i).stake ∨ Others c i P := by
  constructor
  · rintro ⟨j, h_j⟩
    by_cases h_eq : j = i
    · exact .inl (h_eq ▸ h_j)
    · exact .inr ⟨j, h_eq, h_j⟩
  · rintro (h_i | ⟨j, -, h_j⟩)
    · exact ⟨i, h_i⟩
    · exact ⟨j, h_j⟩

theorem anyone_step_iff (c : System ι) (i : ι) (P : Stake → Prop) :
    Anyone (c.step config i) P ↔ P ((c.step config i).calls i).stake ∨ Others c i P := by
  rw [anyone_iff (c.step config i) i P]
  refine or_congr_right ?_
  constructor
  · rintro ⟨j, h_ne, h_j⟩
    rw [System.step_other h_ne] at h_j
    exact ⟨j, h_ne, h_j⟩
  · rintro ⟨j, h_ne, h_j⟩
    refine ⟨j, h_ne, ?_⟩
    rw [System.step_other h_ne]
    exact h_j

theorem anyone_step_congr {P : Stake → Prop}
    (h : P ((c.step config i).calls i).stake ↔ P (c.calls i).stake) :
    Anyone (c.step config i) P ↔ Anyone c P := by
  rw [anyone_step_iff, anyone_iff c i, h]

/-- The invariant of the locked balance: which orders are backed is read off their states and
    the stakes of the calls. -/
structure Exact (config : AccountingConfig) (c : System ι) (backed : ℕ → Bool) : Prop where
  locked : c.store.account.lockedBalance = total config backed c.store.orders
  accepted : ∀ row ∈ c.store.orders, reservedFor config row ≠ 0 → row.orderState = .accepted →
    (backed row.id = true ↔ ¬ Anyone c (Stake.Released row.id))
  created : ∀ row ∈ c.store.orders, reservedFor config row ≠ 0 → row.orderState = .created →
    (backed row.id = true ↔ Anyone c (Stake.Held row.id))
  ended : ∀ row ∈ c.store.orders, reservedFor config row ≠ 0 → row.orderState.isTerminal = true →
    backed row.id = true → Anyone c (Stake.Cancelled row.id)

variable {order : OrderRow}

theorem Known.reservedFor_eq (h_keyed : OrdersKeyed s) {row : OrderRow} (h : Known s order)
    (h_row : row ∈ s.orders) (h_id : row.id = order.id) :
    reservedFor config row = reservedFor config order := by
  obtain ⟨stored, h_stored, h_terms⟩ := h
  have h_stored_id : stored.id = order.id := congrArg OrderTerms.id h_terms
  obtain rfl : row = stored :=
    List.inj_on_of_nodup_map h_keyed.nodup h_row h_stored (h_id.trans h_stored_id.symm)
  exact reservedFor_congr h_terms

theorem OpenRead.known (h : OpenRead s order) : Known s order := by
  obtain ⟨-, row, h_row, h_terms, -⟩ := h
  exact ⟨row, h_row, h_terms⟩

theorem OpenRead.not_created (h_keyed : OrdersKeyed s) {row : OrderRow} (h : OpenRead s order)
    (h_row : row ∈ s.orders) (h_id : row.id = order.id) : row.orderState ≠ .created := by
  obtain ⟨-, stored, h_stored, h_terms, h_created⟩ := h
  have h_stored_id : stored.id = order.id := congrArg OrderTerms.id h_terms
  obtain rfl : row = stored :=
    List.inj_on_of_nodup_map h_keyed.nodup h_row h_stored (h_id.trans h_stored_id.symm)
  exact h_created

variable {target : OrderState}

theorem OrderMoved.total_eq {orderId : ℕ} {expected : OrderState} {row : OrderRow}
    (h : OrderMoved orderId target expected s row s') (h_keyed : OrdersKeyed s) :
    total config backed s'.orders = total config backed s.orders := by
  obtain ⟨old, h_old, h_id, -, h_terms⟩ := h.old
  rw [h.store]
  refine total_map fun other h_other => ?_
  split_ifs with h_row
  · obtain rfl : other = old :=
      List.inj_on_of_nodup_map h_keyed.nodup h_other h_old ((h_row.trans h.id).trans h_id.symm)
    exact h_terms
  · rfl

variable {call : Call}

theorem Call.stake_of_returns (h : call.returns = true) : ∃ ids, call.stake = .cancelled ids := by
  unfold Call.returns at h
  split at h
  · exact ⟨_, rfl⟩
  · cases h

section Steps

variable (h_minor : config.minorUnitExponent ≤ numericScale) (h : Standing config c)
  (h_exact : Exact config c backed)

include h_exact

theorem Exact.of_same (h_orders : (c.step config i).store.orders = c.store.orders)
    (h_account : (c.step config i).store.account = c.store.account)
    (h_accepted : ∀ row ∈ c.store.orders, reservedFor config row ≠ 0 → row.orderState = .accepted →
      (Anyone (c.step config i) (Stake.Released row.id) ↔ Anyone c (Stake.Released row.id)))
    (h_created : ∀ row ∈ c.store.orders, reservedFor config row ≠ 0 → row.orderState = .created →
      (Anyone (c.step config i) (Stake.Held row.id) ↔ Anyone c (Stake.Held row.id)))
    (h_ended : ∀ row ∈ c.store.orders, reservedFor config row ≠ 0 → backed row.id = true →
      Anyone c (Stake.Cancelled row.id) → Anyone (c.step config i) (Stake.Cancelled row.id)) :
    Exact config (c.step config i) backed := by
  constructor
  case locked =>
    rw [h_account, h_orders]
    exact h_exact.locked
  case accepted =>
    intro row h_row h_cash h_state
    rw [h_orders] at h_row
    rw [h_accepted row h_row h_cash h_state]
    exact h_exact.accepted row h_row h_cash h_state
  case created =>
    intro row h_row h_cash h_state
    rw [h_orders] at h_row
    rw [h_created row h_row h_cash h_state]
    exact h_exact.created row h_row h_cash h_state
  case ended =>
    intro row h_row h_cash h_state h_backed
    rw [h_orders] at h_row
    exact h_ended row h_row h_cash h_backed (h_exact.ended row h_row h_cash h_state h_backed)

theorem Exact.kept (h_orders : (c.step config i).store.orders = c.store.orders)
    (h_account : (c.step config i).store.account = c.store.account)
    (h_stake : ((c.step config i).calls i).stake = (c.calls i).stake) :
    Exact config (c.step config i) backed := by
  have h_same : ∀ P, Anyone (c.step config i) P ↔ Anyone c P :=
    fun P => anyone_step_congr (by rw [h_stake])
  exact h_exact.of_same h_orders h_account (fun _ _ _ _ => h_same _) (fun _ _ _ _ => h_same _)
    fun _ _ _ _ h_cancelled => (h_same _).mpr h_cancelled

include h

theorem Exact.began (h_knows : ((c.step config i).calls i).Knows config (c.step config i).store)
    (h_orders : (c.step config i).store.orders = c.store.orders)
    (h_account : (c.step config i).store.account = c.store.account)
    (h_before : (c.calls i).stake = .none)
    (h_stake : ((c.step config i).calls i).stake = .cancelled [] ∨
      ∃ order, ((c.step config i).calls i).stake = .releasing order ∧ reservedFor config order = 0) :
    Exact config (c.step config i) backed := by
  have h_keyed : OrdersKeyed (c.step config i).store := Call.step_keyed h.keyed _
  refine h_exact.of_same h_orders h_account (fun row h_row h_cash _ => anyone_step_congr ?_)
    (fun row _ _ _ => anyone_step_congr ?_) fun row _ _ _ h_cancelled => ?_
  · rw [h_before]
    rcases h_stake with h_stake | ⟨order, h_stake, h_zero⟩
    · rw [h_stake]
      exact Iff.rfl
    · rw [h_stake]
      refine ⟨fun h_id => ?_, False.elim⟩
      have h_known := (h_knows.opened h_stake).known
      have h_mem : row ∈ (c.step config i).store.orders := h_orders ▸ h_row
      rw [h_known.reservedFor_eq h_keyed h_mem (show row.id = order.id from h_id.symm), h_zero] at h_cash
      exact h_cash rfl
  · rw [h_before]
    rcases h_stake with h_stake | ⟨order, h_stake, -⟩
    · rw [h_stake]
      exact Iff.rfl
    · rw [h_stake]
      exact Iff.rfl
  · rw [anyone_step_iff]
    rw [anyone_iff c i, h_before] at h_cancelled
    exact .inr (h_cancelled.resolve_left id)

theorem Exact.dropped (h_orders : (c.step config i).store.orders = c.store.orders)
    (h_account : (c.step config i).store.account = c.store.account)
    (h_settled : Settled config c i (c.calls i).stake)
    (h_stake : ((c.step config i).calls i).stake = .none) : Exact config (c.step config i) backed := by
  have h_step : ∀ P : Stake → Prop, ¬ P .none →
      (Anyone (c.step config i) P ↔ Others c i P) := by
    intro P h_none
    rw [anyone_step_iff, h_stake]
    exact or_iff_right h_none
  have h_knows := h.knows i
  refine h_exact.of_same h_orders h_account (fun row h_row h_cash h_state => ?_)
    (fun row h_row h_cash _ => ?_) fun row h_row h_cash h_backed h_cancelled => ?_
  · rw [h_step _ id, anyone_iff c i]
    refine ⟨.inr, fun h_released => h_released.elim (fun h_i => ?_) fun h_others => h_others⟩
    cases h_at : (c.calls i).stake with
    | releasing order =>
      rw [h_at] at h_settled h_i
      have h_id : row.id = order.id := (show order.id = row.id from h_i).symm
      rcases h_settled with h_zero | ⟨moved, h_moved, h_moved_id, h_left⟩ | h_others
      · rw [(h_knows.opened h_at).known.reservedFor_eq h.keyed h_row h_id] at h_cash
        exact absurd h_zero h_cash
      · obtain rfl : row = moved :=
          List.inj_on_of_nodup_map h.keyed.nodup h_row h_moved (h_id.trans h_moved_id.symm)
        exact absurd h_state h_left
      · exact h_id ▸ h_others
    | none | owned order | holding order | cancelled ids =>
      rw [h_at] at h_i
      exact h_i.elim
  · rw [h_step _ id, anyone_iff c i]
    refine ⟨.inr, fun h_held => h_held.elim (fun h_i => ?_) fun h_others => h_others⟩
    cases h_at : (c.calls i).stake with
    | holding order =>
      rw [h_at] at h_settled h_i
      have h_id : row.id = order.id := (show order.id = row.id from h_i).symm
      have h_known := h_knows.known (show (c.calls i).stake.Places order from .inr h_at)
      rw [h_known.reservedFor_eq h.keyed h_row h_id] at h_cash
      exact absurd h_settled h_cash
    | none | owned order | releasing order | cancelled ids =>
      rw [h_at] at h_i
      exact h_i.elim
  · rw [h_step _ id]
    rw [anyone_iff c i] at h_cancelled
    refine h_cancelled.elim (fun h_i => ?_) fun h_others => h_others
    cases h_at : (c.calls i).stake with
    | cancelled ids =>
      rw [h_at] at h_settled h_i
      rcases h_settled with h_empty | h_zero
      · -- Nothing is locked, so nothing that is backed has cash.
        have h_le : reservedFor config row ≤ 0 := by
          rw [← h_empty, h_exact.locked]
          exact le_total h.nonneg h_row h_backed
        exact absurd (le_antisymm h_le (h.nonneg row h_row)) h_cash
      · exact absurd (h_zero row h_row h_i) h_cash
    | none | owned order | holding order | releasing order =>
      rw [h_at] at h_i
      exact h_i.elim

theorem Exact.inserted {new : NewOrder} {row : OrderRow}
    (h_inserted : OrderInserted new c.store row (c.step config i).store)
    (h_before : (c.calls i).stake = .none)
    (h_stake : ((c.step config i).calls i).stake = .none ∨
      ((c.step config i).calls i).stake = .owned row ∨
      ((c.step config i).calls i).stake = .holding row ∧ reservedFor config row = 0) :
    Exact config (c.step config i) (Function.update backed row.id false) := by
  have h_fresh : ∀ old ∈ c.store.orders, old.id ≠ row.id := by
    intro old h_old h_id
    have h_drawn := h.keyed.drawn old h_old
    rw [h_id, h_inserted.id_eq] at h_drawn
    exact lt_irrefl _ h_drawn
  -- What an old order sees of the stakes is the same.
  have h_same : ∀ P : Stake → Prop, ¬ P .none → ¬ P (.owned row) → ¬ P (.holding row) →
      (Anyone (c.step config i) P ↔ Anyone c P) := by
    intro P h_none h_owned h_holding
    refine anyone_step_congr ?_
    rw [h_before]
    rcases h_stake with h_stake | h_stake | ⟨h_stake, -⟩
    · rw [h_stake]
    · rw [h_stake]
      exact iff_of_false h_owned h_none
    · rw [h_stake]
      exact iff_of_false h_holding h_none
  constructor
  case locked =>
    have h_total : total config (Function.update backed row.id false) c.store.orders
        = total config backed c.store.orders :=
      total_congr fun old h_old _ => Function.update_of_ne (h_fresh old h_old) ..
    rw [inserted_account h_inserted, inserted_orders h_inserted, total_append_singleton, h_total,
      Function.update_self, h_exact.locked]
    simp
  case accepted =>
    intro old h_row h_cash h_state
    rw [inserted_orders h_inserted] at h_row
    rcases List.mem_append.mp h_row with h_old | h_new
    · rw [Function.update_of_ne (h_fresh old h_old), h_same _ id id id]
      exact h_exact.accepted old h_old h_cash h_state
    · rw [List.mem_singleton.mp h_new, h_inserted.state_eq] at h_state
      cases h_state
  case created =>
    intro old h_row h_cash h_state
    rw [inserted_orders h_inserted] at h_row
    rcases List.mem_append.mp h_row with h_old | h_new
    · have h_ne := h_fresh old h_old
      rw [Function.update_of_ne h_ne, h_same _ id id fun h_id => h_ne h_id.symm]
      exact h_exact.created old h_old h_cash h_state
    · rw [List.mem_singleton.mp h_new] at h_cash ⊢
      rw [Function.update_self]
      refine iff_of_false nofun ?_
      rw [anyone_step_iff]
      rintro (h_i | ⟨j, -, h_j⟩)
      · rcases h_stake with h_stake | h_stake | ⟨-, h_zero⟩
        · rw [h_stake] at h_i
          exact h_i
        · rw [h_stake] at h_i
          exact h_i
        · exact h_cash h_zero
      · cases h_at : (c.calls j).stake with
        | holding order =>
          rw [h_at] at h_j
          have h_lt := ((h.knows j).known (show (c.calls j).stake.Places order from .inr h_at)).id_lt h.keyed
          rw [show order.id = row.id from h_j, h_inserted.id_eq] at h_lt
          exact lt_irrefl _ h_lt
        | none | owned order | releasing order | cancelled ids =>
          rw [h_at] at h_j
          exact h_j
  case ended =>
    intro old h_row h_cash h_state h_backed
    rw [inserted_orders h_inserted] at h_row
    rcases List.mem_append.mp h_row with h_old | h_new
    · rw [Function.update_of_ne (h_fresh old h_old)] at h_backed
      rw [h_same _ id id id]
      exact h_exact.ended old h_old h_cash h_state h_backed
    · rw [List.mem_singleton.mp h_new, h_inserted.state_eq] at h_state
      cases h_state

variable {payload : AccountUpdate}

theorem Exact.lock {row : AccountRow} {version : ℕ} (h_before : (c.calls i).stake = .owned order)
    (h_written : AccountWrittenAt version payload c.store row (c.step config i).store)
    (h_locked : 0 ≤ reservedFor config order → row.lockedBalance = c.store.account.lockedBalance + reservedFor config order)
    (h_stake : ((c.step config i).calls i).stake = .holding order) :
    Exact config (c.step config i) (Function.update backed order.id true) := by
  have h_places : (c.calls i).stake.Places order := .inl h_before
  obtain ⟨stored, h_stored, h_terms⟩ := (h.knows i).known h_places
  have h_id : stored.id = order.id := congrArg OrderTerms.id h_terms
  have h_cash_eq : reservedFor config stored = reservedFor config order := reservedFor_congr h_terms
  have h_created : stored.orderState = .created := h.created i order h_places stored h_stored h_id
  -- Nobody else holds the cash of the order, so it was not backed.
  have h_unheld : reservedFor config stored ≠ 0 → backed stored.id = false := by
    intro h_cash
    rw [← Bool.not_eq_true, h_exact.created stored h_stored h_cash h_created]
    rintro ⟨j, h_j⟩
    cases h_at : (c.calls j).stake with
    | holding other =>
      rw [h_at] at h_j
      have h_same : j = i := h.exclusive j i other order (.inr h_at) h_places
        ((show other.id = stored.id from h_j).trans h_id)
      rw [h_same, h_before] at h_at
      cases h_at
    | none | owned other | releasing other | cancelled ids =>
      rw [h_at] at h_j
      exact h_j
  have h_same : ∀ P : Stake → Prop, ¬ P (.owned order) → ¬ P (.holding order) →
      (Anyone (c.step config i) P ↔ Anyone c P) := by
    intro P h_owned h_holding
    refine anyone_step_congr ?_
    rw [h_before, h_stake]
    exact iff_of_false h_holding h_owned
  have h_row : ∀ row ∈ c.store.orders, row.id = order.id → row = stored := fun row h_row h_row_id =>
    List.inj_on_of_nodup_map h.keyed.nodup h_row h_stored (h_row_id.trans h_id.symm)
  constructor
  case locked =>
    have h_nonneg : 0 ≤ reservedFor config order := h_cash_eq ▸ h.nonneg stored h_stored
    have h_update := @total_update config backed _ _ h.keyed.nodup h_stored true
    rw [if_pos rfl] at h_update
    have h_zero : (if backed stored.id = true then reservedFor config stored else 0) = 0 := by
      by_cases h_cash : reservedFor config stored = 0
      · rw [h_cash, ite_self]
      · rw [h_unheld h_cash]
        rfl
    rw [h_written.account, h_written.orders, h_locked h_nonneg, h_exact.locked, ← h_id, ← h_cash_eq]
    linarith
  case accepted =>
    intro other h_other h_cash h_state
    rw [h_written.orders] at h_other
    have h_ne : other.id ≠ order.id := by
      intro h_eq
      rw [h_row other h_other h_eq, h_created] at h_state
      cases h_state
    rw [Function.update_of_ne h_ne, h_same _ id id]
    exact h_exact.accepted other h_other h_cash h_state
  case created =>
    intro other h_other h_cash h_state
    rw [h_written.orders] at h_other
    by_cases h_eq : other.id = order.id
    · rw [h_eq, Function.update_self]
      refine iff_of_true rfl ?_
      rw [anyone_step_iff, h_stake]
      exact .inl rfl
    · rw [Function.update_of_ne h_eq, h_same _ id fun h_id => h_eq h_id.symm]
      exact h_exact.created other h_other h_cash h_state
  case ended =>
    intro other h_other h_cash h_state h_backed
    rw [h_written.orders] at h_other
    have h_ne : other.id ≠ order.id := by
      intro h_eq
      rw [h_row other h_other h_eq, h_created] at h_state
      cases h_state
    rw [Function.update_of_ne h_ne] at h_backed
    rw [h_same _ id id]
    exact h_exact.ended other h_other h_cash h_state h_backed

theorem Exact.release {row : AccountRow} {version : ℕ}
    (h_careful : reservedFor config order ≠ 0 → c.store.account.lockedBalance = 0 ∨ Unreleased c order)
    (h_knows : ((c.step config i).calls i).Knows config (c.step config i).store)
    (h_before : (c.calls i).stake = .none)
    (h_written : AccountWrittenAt version payload c.store row (c.step config i).store)
    (h_locked : Releases config c.store order row)
    (h_stake : ((c.step config i).calls i).stake = .releasing order) :
    ∃ backed', Exact config (c.step config i) backed' := by
  have h_open : OpenRead (c.step config i).store order := h_knows.opened h_stake
  obtain ⟨stored, h_stored, h_terms⟩ := h_open.known
  rw [h_written.orders] at h_stored
  have h_id : stored.id = order.id := congrArg OrderTerms.id h_terms
  have h_cash_eq : reservedFor config stored = reservedFor config order := reservedFor_congr h_terms
  have h_nonneg : 0 ≤ reservedFor config order := h_cash_eq ▸ h.nonneg stored h_stored
  have h_row : ∀ row ∈ c.store.orders, row.id = order.id → row = stored := fun row h_row h_row_id =>
    List.inj_on_of_nodup_map h.keyed.nodup h_row h_stored (h_row_id.trans h_id.symm)
  have h_same : ∀ P : Stake → Prop, ¬ P .none → ¬ P (.releasing order) →
      (Anyone (c.step config i) P ↔ Anyone c P) := by
    intro P h_none h_releasing
    refine anyone_step_congr ?_
    rw [h_before, h_stake]
    exact iff_of_false h_releasing h_none
  have h_released : Anyone (c.step config i) (Stake.Released order.id) := by
    rw [anyone_step_iff, h_stake]
    exact .inl rfl
  -- The same orders are backed, but the one that was released.
  have h_after : ∀ backed', (∀ other ∈ c.store.orders, other.id ≠ order.id →
        backed' other.id = backed other.id) →
      (reservedFor config order ≠ 0 → stored.orderState = .accepted → backed' order.id = false) →
      (backed' order.id = true → backed order.id = true) →
      row.lockedBalance = total config backed' c.store.orders →
      Exact config (c.step config i) backed' := by
    intro backed' h_others h_order h_le h_total
    constructor
    case locked =>
      rw [h_written.account, h_written.orders]
      exact h_total
    case accepted =>
      intro other h_other h_cash h_state
      rw [h_written.orders] at h_other
      by_cases h_eq : other.id = order.id
      · obtain rfl := h_row other h_other h_eq
        rw [h_eq, h_order (h_cash_eq ▸ h_cash) h_state]
        exact iff_of_false nofun (not_not_intro h_released)
      · rw [h_others other h_other h_eq, h_same _ id fun h_id => h_eq h_id.symm]
        exact h_exact.accepted other h_other h_cash h_state
    case created =>
      intro other h_other h_cash h_state
      have h_ne : other.id ≠ order.id := fun h_eq =>
        h_open.not_created (Call.step_keyed h.keyed _) h_other h_eq h_state
      rw [h_written.orders] at h_other
      rw [h_others other h_other h_ne, h_same _ id id]
      exact h_exact.created other h_other h_cash h_state
    case ended =>
      intro other h_other h_cash h_state h_backed
      rw [h_written.orders] at h_other
      have h_old : backed other.id = true := by
        by_cases h_eq : other.id = order.id
        · rw [h_eq] at h_backed ⊢
          exact h_le h_backed
        · rw [← h_others other h_other h_eq]
          exact h_backed
      rw [h_same _ id id]
      exact h_exact.ended other h_other h_cash h_state h_old
  by_cases h_cash : reservedFor config order = 0
  · refine ⟨backed, h_after backed (fun _ _ _ => rfl) (fun h_ne => absurd h_cash h_ne) id ?_⟩
    have h_zero_le : reservedFor config order ≤ c.store.account.lockedBalance :=
      h_cash ▸ h.balanced.locked_nonneg
    rw [h_locked h_nonneg (.inl h_zero_le), min_eq_left h_zero_le, h_cash, sub_zero]
    exact h_exact.locked
  · rcases h_careful h_cash with h_empty | ⟨⟨stored', h_mem, h_mem_id, h_state⟩, h_unreleased⟩
    · -- Nothing is locked: what has cash is not backed.
      have h_total : total config backed c.store.orders = 0 := h_exact.locked.symm.trans h_empty
      have h_unbacked : backed stored.id = false := by
        rw [← Bool.not_eq_true]
        intro h_backed
        have h_le := le_total h.nonneg h_stored h_backed
        rw [h_total, h_cash_eq] at h_le
        exact h_cash (le_antisymm h_le h_nonneg)
      refine ⟨backed, h_after backed (fun _ _ _ => rfl) (fun _ _ => h_id ▸ h_unbacked) id ?_⟩
      rw [h_locked h_nonneg (.inr h_empty), h_empty, min_eq_right h_nonneg, sub_zero, h_total]
    · obtain rfl := h_row stored' h_mem h_mem_id
      have h_backed : backed stored'.id = true := by
        rw [h_exact.accepted stored' h_mem (h_cash_eq ▸ h_cash) h_state, h_mem_id]
        exact h_unreleased
      refine ⟨Function.update backed order.id false, h_after _
        (fun other _ h_ne => Function.update_of_ne h_ne ..) (fun _ _ => Function.update_self ..)
        (fun h_true => ?_) ?_⟩
      · rw [Function.update_self] at h_true
        cases h_true
      · have h_le : reservedFor config order ≤ c.store.account.lockedBalance := by
          rw [h_exact.locked, ← h_cash_eq]
          exact le_total h.nonneg h_mem h_backed
        have h_update := @total_update config backed _ _ h.keyed.nodup h_mem false
        rw [if_pos h_backed, if_neg nofun, h_mem_id] at h_update
        rw [h_locked h_nonneg (.inl h_le), min_eq_left h_le, h_exact.locked, ← h_cash_eq]
        linarith

omit h in
theorem Exact.of_moved {row : OrderRow} {expected : OrderState} (h_keyed : OrdersKeyed c.store)
    (h_moved : OrderMoved order.id target expected c.store row (c.step config i).store)
    (h_row : reservedFor config row ≠ 0 → (row.orderState = .accepted → (backed row.id = true ↔ ¬ Anyone (c.step config i) (Stake.Released row.id))) ∧ (row.orderState = .created → (backed row.id = true ↔ Anyone (c.step config i) (Stake.Held row.id))) ∧ (row.orderState.isTerminal = true → backed row.id = true → Anyone (c.step config i) (Stake.Cancelled row.id)))
    (h_released : ∀ id, id ≠ order.id → (Anyone (c.step config i) (Stake.Released id) ↔ Anyone c (Stake.Released id)))
    (h_held : ∀ id, id ≠ order.id → (Anyone (c.step config i) (Stake.Held id) ↔ Anyone c (Stake.Held id)))
    (h_cancelled : ∀ id, Anyone c (Stake.Cancelled id) → Anyone (c.step config i) (Stake.Cancelled id)) :
    Exact config (c.step config i) backed := by
  have h_id : row.id = order.id := h_moved.id
  constructor
  case locked =>
    rw [h_moved.account, h_moved.total_eq h_keyed]
    exact h_exact.locked
  case accepted =>
    intro other h_other h_cash h_state
    rcases h_moved.mem_cases h_other with rfl | ⟨h_old, h_ne⟩
    · exact (h_row h_cash).1 h_state
    · rw [h_released _ (h_id ▸ h_ne)]
      exact h_exact.accepted other h_old h_cash h_state
  case created =>
    intro other h_other h_cash h_state
    rcases h_moved.mem_cases h_other with rfl | ⟨h_old, h_ne⟩
    · exact (h_row h_cash).2.1 h_state
    · rw [h_held _ (h_id ▸ h_ne)]
      exact h_exact.created other h_old h_cash h_state
  case ended =>
    intro other h_other h_cash h_state h_backed
    rcases h_moved.mem_cases h_other with rfl | ⟨h_old, -⟩
    · exact (h_row h_cash).2.2 h_state h_backed
    · exact h_cancelled _ (h_exact.ended other h_old h_cash h_state h_backed)

theorem Exact.accept {row : OrderRow} (h_before : (c.calls i).stake = .holding order)
    (h_moved : OrderMoved order.id .accepted .created c.store row (c.step config i).store)
    (h_stake : ((c.step config i).calls i).stake = .none) :
    Exact config (c.step config i) backed := by
  have h_same : ∀ P : Stake → Prop, ¬ P .none → ¬ P (.holding order) →
      (Anyone (c.step config i) P ↔ Anyone c P) := by
    intro P h_none h_holding
    refine anyone_step_congr ?_
    rw [h_before, h_stake]
    exact iff_of_false h_none h_holding
  refine h_exact.of_moved h.keyed h_moved (fun h_cash => ⟨fun _ => ?_, fun h_created => ?_, fun h_end => ?_⟩)
    (fun id _ => h_same _ (fun h => h) fun h => h) (fun id h_ne => h_same _ (fun h => h) fun h_eq => h_ne h_eq.symm)
    fun id h_any => (h_same _ (fun h => h) fun h => h).mpr h_any
  · obtain ⟨old, h_old, h_id, h_state, h_terms⟩ := h_moved.old
    have h_old_cash : reservedFor config old ≠ 0 := reservedFor_congr h_terms ▸ h_cash
    have h_row_id : row.id = old.id := h_moved.id.trans h_id.symm
    refine iff_of_true ?_ ?_
    · rw [h_row_id, h_exact.created old h_old h_old_cash h_state, anyone_iff c i, h_before]
      exact .inl h_id.symm
    · -- An order at `CREATED` was not read on the book.
      rw [h_same _ (fun h => h) fun h => h]
      rintro ⟨j, h_j⟩
      cases h_at : (c.calls j).stake with
      | releasing other =>
        rw [h_at] at h_j
        have h_other : old.id = other.id := h_row_id.symm.trans (show other.id = row.id from h_j).symm
        exact ((h.knows j).opened h_at).not_created h.keyed h_old h_other h_state
      | none | owned other | holding other | cancelled ids =>
        rw [h_at] at h_j
        exact h_j
  · rw [h_moved.state] at h_created
    cases h_created
  · rw [h_moved.state] at h_end
    cases h_end

omit h in
theorem Exact.leave {row : OrderRow} (h_keyed : OrdersKeyed c.store)
    (h_before : (c.calls i).stake = .releasing order)
    (h_moved : OrderMoved order.id target .accepted c.store row (c.step config i).store)
    (h_target : target.isTerminal = true) (h_stake : ((c.step config i).calls i).stake = .none) :
    Exact config (c.step config i) backed := by
  have h_same : ∀ P : Stake → Prop, ¬ P .none → ¬ P (.releasing order) →
      (Anyone (c.step config i) P ↔ Anyone c P) := by
    intro P h_none h_releasing
    refine anyone_step_congr ?_
    rw [h_before, h_stake]
    exact iff_of_false h_none h_releasing
  have h_state : row.orderState.isTerminal = true := h_moved.state ▸ h_target
  refine h_exact.of_moved h_keyed h_moved
    (fun h_cash => ⟨fun h_accepted => ?_, fun h_created => ?_, fun _ h_backed => ?_⟩)
    (fun id h_ne => h_same _ (fun h => h) fun h_eq => h_ne h_eq.symm)
    (fun id _ => h_same _ (fun h => h) fun h => h)
    fun id h_any => (h_same _ (fun h => h) fun h => h).mpr h_any
  · rw [h_accepted] at h_state
    cases h_state
  · rw [h_created] at h_state
    cases h_state
  · obtain ⟨old, h_old, h_id, h_old_state, h_terms⟩ := h_moved.old
    have h_old_cash : reservedFor config old ≠ 0 := reservedFor_congr h_terms ▸ h_cash
    have h_row_id : row.id = old.id := h_moved.id.trans h_id.symm
    rw [h_row_id, h_exact.accepted old h_old h_old_cash h_old_state] at h_backed
    refine absurd ?_ h_backed
    rw [anyone_iff c i, h_before]
    exact .inl h_id.symm

omit h in
theorem Exact.cancel {row : OrderRow} {ids : List ℕ} (h_keyed : OrdersKeyed c.store)
    (h_before : (c.calls i).stake = .cancelled ids)
    (h_moved : OrderMoved order.id .cancelled .accepted c.store row (c.step config i).store)
    (h_stake : ((c.step config i).calls i).stake = .cancelled (order.id :: ids)) :
    Exact config (c.step config i) backed := by
  have h_same : ∀ P : Stake → Prop, (∀ ids, ¬ P (.cancelled ids)) →
      (Anyone (c.step config i) P ↔ Anyone c P) := by
    intro P h_none
    refine anyone_step_congr ?_
    rw [h_before, h_stake]
    exact iff_of_false (h_none _) (h_none _)
  refine h_exact.of_moved h_keyed h_moved
    (fun h_cash => ⟨fun h_accepted => ?_, fun h_created => ?_, fun _ _ => ?_⟩)
    (fun id _ => h_same _ fun _ h => h) (fun id _ => h_same _ fun _ h => h) fun id h_any => ?_
  · cases h_moved.state.symm.trans h_accepted
  · cases h_moved.state.symm.trans h_created
  · rw [anyone_step_iff, h_stake, h_moved.id]
    exact .inl List.mem_cons_self
  · rw [anyone_step_iff, h_stake]
    rw [anyone_iff c i, h_before] at h_any
    exact h_any.imp_left (List.mem_cons_of_mem _)

omit h_exact in
theorem Exact.returned {row : AccountRow} {version : ℕ} (h_careful : AllReleased config c)
    (h_before : ∃ ids, (c.calls i).stake = .cancelled ids)
    (h_written : AccountWrittenAt version payload c.store row (c.step config i).store)
    (h_locked : row.lockedBalance = 0) (h_stake : ((c.step config i).calls i).stake = .none) :
    Exact config (c.step config i) fun _ => false := by
  obtain ⟨ids, h_before⟩ := h_before
  have h_same : ∀ P : Stake → Prop, ¬ P .none → ¬ P (.cancelled ids) →
      (Anyone (c.step config i) P ↔ Anyone c P) := by
    intro P h_none h_cancelled
    refine anyone_step_congr ?_
    rw [h_before, h_stake]
    exact iff_of_false h_none h_cancelled
  constructor
  case locked =>
    rw [h_written.account, h_locked]
    simp [total]
  case accepted =>
    intro other h_other h_cash h_state
    rw [h_written.orders] at h_other
    refine iff_of_false nofun (not_not_intro ?_)
    rw [h_same _ id id]
    exact h_careful.accepted other h_other h_state h_cash
  case created =>
    intro other h_other h_cash h_state
    rw [h_written.orders] at h_other
    refine iff_of_false nofun ?_
    rw [h_same _ id id]
    rintro ⟨j, h_j⟩
    cases h_at : (c.calls j).stake with
    | holding order =>
      rw [h_at] at h_j
      have h_known := (h.knows j).known (show (c.calls j).stake.Places order from .inr h_at)
      rw [h_known.reservedFor_eq h.keyed h_other (show other.id = order.id from h_j.symm)] at h_cash
      exact h_cash (h_careful.held j order h_at)
    | none | owned order | releasing order | cancelled ids =>
      rw [h_at] at h_j
      exact h_j
  case ended =>
    intro other _ _ _ h_backed
    cases h_backed

include h_minor

theorem Exact.step (h_careful : Careful config c i) :
    ∃ backed', Exact config (c.step config i) backed' := by
  obtain ⟨h_turn, -⟩ := h.turn h_minor h_careful
  have h_knows := (h.step h_minor h_careful).knows i
  cases h_turn with
  | kept h_orders h_account h_stake => exact ⟨_, h_exact.kept h_orders h_account h_stake⟩
  | began h_orders h_account h_before h_stake =>
    exact ⟨_, h_exact.began h h_knows h_orders h_account h_before h_stake⟩
  | dropped h_orders h_account h_before h_stake =>
    refine ⟨_, h_exact.dropped h h_orders h_account ?_ h_stake⟩
    rcases h_before with ⟨order, h_owned⟩ | h_refused
    · rw [h_owned]
      exact trivial
    · exact h_careful.refused h_refused
  | inserted h_before h_inserted h_stake =>
    exact ⟨_, h_exact.inserted h h_inserted h_before h_stake⟩
  | locked h_before h_written h_locked h_stake =>
    exact ⟨_, h_exact.lock h h_before h_written h_locked h_stake⟩
  | accepted h_before h_moved h_stake => exact ⟨_, h_exact.accept h h_before h_moved h_stake⟩
  | released h_before h_releases h_answered h_written h_locked h_stake =>
    exact h_exact.release h (h_careful.released _ h_releases h_answered) h_knows h_before h_written
      h_locked h_stake
  | left h_before h_moved h_target h_stake =>
    exact ⟨_, h_exact.leave h.keyed h_before h_moved h_target h_stake⟩
  | cancelled h_before h_moved h_stake =>
    exact ⟨_, h_exact.cancel h.keyed h_before h_moved h_stake⟩
  | returned h_returns h_answered h_written h_locked h_stake =>
    exact ⟨_, Exact.returned h (h_careful.returned h_returns h_answered)
      (Call.stake_of_returns h_returns) h_written h_locked h_stake⟩

end Steps

/-- What holds in the runs of statements that do not go wrong. -/
structure Reserved (config : AccountingConfig) (c : System ι) : Prop where
  standing : Standing config c
  exact : ∃ backed, Exact config c backed

theorem Reserved.step (h_minor : config.minorUnitExponent ≤ numericScale) (h : Reserved config c)
    (h_careful : Careful config c i) : Reserved config (c.step config i) := by
  obtain ⟨h_standing, backed, h_exact⟩ := h
  exact ⟨h_standing.step h_minor h_careful, h_exact.step h_minor h_standing h_careful⟩

/-! ## Runs -/

/-- What the orders on the book have reserved. -/
def reservedTotal (config : AccountingConfig) (s : Store) : ℚ :=
  ((s.orders.filter fun order => order.orderState = .accepted).map (reservedFor config)).sum

def Idle (c : System ι) : Prop := ∀ i, (c.calls i).Fresh ∨ (c.calls i).Ended

/-- An account without orders, before calls that place limit orders only. -/
structure LimitOpening (c : System ι) : Prop extends Opening c where
  limit : ∀ i request, (c.calls i).request? = some request → request.orderType = .limit
  balanced : Balanced c.store.account
  locked : c.store.account.lockedBalance = 0

theorem Call.stake_of_fresh (h : call.Fresh) : call.stake = .none := by
  cases call with
  | place request phase =>
    obtain rfl : phase = .readAccount := h
    rfl
  | cancel orderId phase =>
    obtain rfl : phase = .readOrder := h
    rfl
  | sweep symbol price phase =>
    obtain rfl : phase = .readOrders := h
    rfl
  | reset capital startedAt phase =>
    obtain rfl : phase = .readOrders := h
    rfl

theorem Call.stake_of_ended (h : call.Ended) : call.stake = .none := by
  cases call with
  | place request phase =>
    obtain ⟨ending, rfl⟩ := h
    rfl
  | cancel orderId phase =>
    obtain ⟨ending, rfl⟩ := h
    rfl
  | sweep symbol price phase =>
    obtain ⟨ending, rfl⟩ := h
    rfl
  | reset capital startedAt phase =>
    obtain ⟨ending, rfl⟩ := h
    rfl

theorem Call.Fresh.knows (h : call.Fresh) : call.Knows config s := by
  cases call with
  | place request phase =>
    obtain rfl : phase = .readAccount := h
    exact trivial
  | cancel orderId phase =>
    obtain rfl : phase = .readOrder := h
    exact trivial
  | sweep symbol price phase =>
    obtain rfl : phase = .readOrders := h
    exact trivial
  | reset capital startedAt phase =>
    obtain rfl : phase = .readOrders := h
    exact trivial

omit [DecidableEq ι] in
theorem LimitOpening.standing (h : LimitOpening c) : Standing config c := by
  have h_none : ∀ order, order ∉ c.store.orders := by
    intro order
    rw [h.orders]
    exact List.not_mem_nil
  have h_places : ∀ {i : ι} {order : OrderRow}, ¬ (c.calls i).stake.Places order := by
    intro i order
    rw [Call.stake_of_fresh (h.fresh i)]
    rintro (h_owned | h_holding)
    · cases h_owned
    · cases h_holding
  exact {
    limit := h.limit
    keyed := ⟨by rw [h.orders]; exact List.nodup_nil, fun order h_order => absurd h_order (h_none order)⟩
    balanced := h.balanced
    whole := fun order h_order => absurd h_order (h_none order)
    nonneg := fun order h_order => absurd h_order (h_none order)
    knows := fun i => (h.fresh i).knows
    created := fun i order h_order => absurd h_order h_places
    exclusive := fun i j order other h_order => absurd h_order h_places }

omit [DecidableEq ι] in
theorem LimitOpening.exact (h : LimitOpening c) : Exact config c fun _ => false := by
  have h_none : ∀ order, order ∉ c.store.orders := by
    intro order
    rw [h.orders]
    exact List.not_mem_nil
  constructor
  · rw [h.locked, h.orders]
    rfl
  · exact fun row h_row => absurd h_row (h_none row)
  · exact fun row h_row => absurd h_row (h_none row)
  · exact fun row h_row => absurd h_row (h_none row)

omit [DecidableEq ι] in
/-- Where no call is in progress, the backed orders are those on the book. -/
theorem Exact.of_idle (h : Standing config c) (h_exact : Exact config c backed) (h_idle : Idle c) :
    c.store.account.lockedBalance = reservedTotal config c.store := by
  have h_stake : ∀ j, (c.calls j).stake = .none :=
    fun j => (h_idle j).elim Call.stake_of_fresh Call.stake_of_ended
  have h_nobody : ∀ P : Stake → Prop, ¬ P .none → ¬ Anyone c P := by
    rintro P h_none ⟨j, h_j⟩
    rw [h_stake j] at h_j
    exact h_none h_j
  have h_backed : ∀ row ∈ c.store.orders, (if backed row.id then reservedFor config row else 0)
      = if row.orderState = .accepted then reservedFor config row else 0 := by
    intro row h_row
    by_cases h_cash : reservedFor config row = 0
    · rw [h_cash, ite_self, ite_self]
    · by_cases h_accepted : row.orderState = .accepted
      · rw [if_pos h_accepted,
          if_pos ((h_exact.accepted row h_row h_cash h_accepted).mpr (h_nobody _ id))]
      · rw [if_neg h_accepted, if_neg]
        intro h_true
        by_cases h_created : row.orderState = .created
        · exact h_nobody _ id ((h_exact.created row h_row h_cash h_created).mp h_true)
        · have h_whole := h.whole row h_row
          have h_end : row.orderState.isTerminal = true := by
            revert h_accepted h_created h_whole
            cases row.orderState <;> decide
          exact h_nobody _ id (h_exact.ended row h_row h_cash h_end h_true)
  rw [h_exact.locked]
  unfold total reservedTotal
  rw [List.map_congr_left h_backed]
  generalize c.store.orders = orders
  induction orders with
  | nil => rfl
  | cons order rest ih =>
    rw [List.map_cons, List.sum_cons, ih, List.filter_cons]
    by_cases h_accepted : order.orderState = .accepted
    · rw [if_pos h_accepted, if_pos (decide_eq_true h_accepted), List.map_cons, List.sum_cons]
    · rw [if_neg h_accepted, if_neg (by rw [decide_eq_false h_accepted]; exact nofun), zero_add]

/-- In the runs of statements that do not go wrong, the locked balance is what the orders on
    the book have reserved, whenever no call is in progress. -/
theorem reservations_exact (feeRate slippageRate : ℚ) (h_fee : 0 ≤ feeRate)
    (h_slippage : 0 ≤ slippageRate) (c c' : System ι) (h_opening : LimitOpening c)
    (h_run : Reaches (serviceConfig feeRate slippageRate h_fee h_slippage)
      (Careful (serviceConfig feeRate slippageRate h_fee h_slippage)) c c') (h_idle : Idle c') :
    c'.store.account.lockedBalance
      = reservedTotal (serviceConfig feeRate slippageRate h_fee h_slippage) c'.store := by
  have h_minor : (serviceConfig feeRate slippageRate h_fee h_slippage).minorUnitExponent
      ≤ numericScale := by
    show (2 : ℕ) ≤ 10
    omega
  have h_reserved : Reserved (serviceConfig feeRate slippageRate h_fee h_slippage) c' :=
    h_run.invariant ⟨h_opening.standing, _, h_opening.exact⟩ fun _ i h h_careful =>
      h.step h_minor h_careful
  obtain ⟨h_standing, backed, h_exact⟩ := h_reserved
  exact h_exact.of_idle h_standing h_idle

/-! ## Two cancels of one order -/

def restingBuy (limit : ℚ) : Request where
  symbol := "BTC/USDT"
  side := .buy
  orderType := .limit
  quantity := 1
  price := some limit
  idempotencyKey := none
  gates := fun _ _ => .ok ()
  measured := none

/-- Two limit buys, and two cancels of the first. -/
def twoCancels : System (Fin 4) where
  store := .started 1000
  calls
    | 0 => .place (restingBuy 100) .readAccount
    | 1 => .place (restingBuy 200) .readAccount
    | 2 | 3 => .cancel 0 .readOrder

/-- Both cancels release the cash, and then one of them moves the order. -/
def bothRelease : List (Fin 4) :=
  List.replicate 7 0 ++ List.replicate 7 1 ++ [2, 2, 2, 2, 3, 3, 3, 3, 2, 2, 3]

theorem balanced_started {capital : ℚ} (h : IsNumeric capital) (h_nonneg : 0 ≤ capital) :
    Balanced (Store.started capital).account :=
  ⟨h, h_nonneg, .zero, le_rfl⟩

theorem balanced_thousand : Balanced (Store.started 1000).account :=
  balanced_started ⟨.intCast numericScale 1000, by norm_num⟩ (by norm_num)

theorem twoCancels_opening : LimitOpening twoCancels where
  orders := rfl
  fresh := by
    intro i
    match i with
    | 0 | 1 | 2 | 3 => rfl
  limit := by
    intro i request h_request
    match i with
    | 0 | 1 =>
      cases h_request
      rfl
    | 2 | 3 => cases h_request
  balanced := balanced_thousand
  locked := rfl

/-- Whether a call has returned or raised. -/
def Call.ended : Call → Bool
  | .place _ (.ended _) => true
  | .cancel _ (.ended _) => true
  | .sweep _ _ (.ended _) => true
  | .reset _ _ (.ended _) => true
  | _ => false

theorem Call.ended_of_eq (h : call.ended = true) : call.Ended := by
  unfold Call.ended at h
  split at h
  · exact ⟨_, rfl⟩
  · exact ⟨_, rfl⟩
  · exact ⟨_, rfl⟩
  · exact ⟨_, rfl⟩
  · cases h

/-- The second cancel releases what the other order has reserved. -/
theorem two_cancels_release_twice : ∃ c c' : System (Fin 4), LimitOpening c ∧
    Reaches defaultConfig (fun _ _ => True) c c' ∧ Idle c' ∧
    c'.store.account.lockedBalance ≠ reservedTotal defaultConfig c'.store := by
  have h_locked : (twoCancels.run defaultConfig bothRelease).store.account.lockedBalance
      = 1001 / 10 := by decide +kernel
  have h_reserved : reservedTotal defaultConfig (twoCancels.run defaultConfig bothRelease).store
      = 2002 / 10 := by decide +kernel
  have h_ended : ∀ i, ((twoCancels.run defaultConfig bothRelease).calls i).ended = true := by
    decide +kernel
  refine ⟨twoCancels, twoCancels.run defaultConfig bothRelease, twoCancels_opening,
    System.run_reaches _ bothRelease fun _ _ _ _ => trivial,
    fun i => .inr (Call.ended_of_eq (h_ended i)), ?_⟩
  rw [h_locked, h_reserved]
  norm_num

/-! ## A cancel of a resting buy -/

theorem storedAsAsked_of_isNumeric {request : Request} {price : ℚ}
    (h_quantity : IsNumeric request.quantity) (h_price : IsNumeric price) :
    request.StoredAsAsked config price := by
  intro quantity limit h_stored h_limit
  rw [numeric_of_isNumeric h_quantity] at h_stored
  rw [numeric_of_isNumeric h_price] at h_limit
  rw [ok.inj h_stored, ok.inj h_limit]

/-- A limit buy, and a cancel of it. -/
def placeAndCancel : System Bool where
  store := .started 1000
  calls
    | false => .place (restingBuy 100) .readAccount
    | true => .cancel 0 .readOrder

/-- The order is on the book before the cancel begins. -/
def cancelBehind : List Bool := List.replicate 7 false ++ List.replicate 6 true

theorem placeAndCancel_opening : LimitOpening placeAndCancel where
  orders := rfl
  fresh := by
    intro i
    cases i with
    | false => rfl
    | true => rfl
  limit := by
    intro i request h_request
    cases i with
    | false =>
      cases h_request
      rfl
    | true => cases h_request
  balanced := balanced_thousand
  locked := rfl

instance (id : ℕ) (stake : Stake) : Decidable (stake.Released id) :=
  match stake with
  | .releasing order => inferInstanceAs (Decidable (order.id = id))
  | .none | .owned _ | .holding _ | .cancelled _ => .isFalse fun h => h

/-- The system of the cancel after some statements. -/
def cancelSystem (k : ℕ) : System Bool :=
  placeAndCancel.run defaultConfig (cancelBehind.take k)

theorem cancelBehind_careful (pre : List Bool) (i : Bool) (post : List Bool)
    (h : cancelBehind = pre ++ i :: post) :
    Careful defaultConfig (placeAndCancel.run defaultConfig pre) i := by
  have h_answered : ∀ k < 13,
      ((cancelSystem k).calls (cancelBehind.getD k false)).refused defaultConfig (cancelSystem k).store
        = false := by decide +kernel
  have h_returns : ∀ k < 13, ((cancelSystem k).calls (cancelBehind.getD k false)).returns = false := by
    decide +kernel
  have h_released : ∀ k < 13, ∀ order ∈ ((cancelSystem k).calls (cancelBehind.getD k false)).releases,
      (∃ row ∈ (cancelSystem k).store.orders, row.id = order.id ∧ row.orderState = .accepted) ∧
        ∀ j, ¬ ((cancelSystem k).calls j).stake.Released order.id := by decide +kernel
  have h_length : pre.length < 13 := by
    have h_total := congrArg List.length h
    rw [List.length_append, List.length_cons] at h_total
    have h_thirteen : cancelBehind.length = 13 := rfl
    omega
  have h_pre : pre = cancelBehind.take pre.length := by rw [h, List.take_left]
  have h_i : cancelBehind.getD pre.length false = i := by
    rw [h, List.getD_eq_getElem?_getD, List.getElem?_append_right le_rfl, Nat.sub_self]
    rfl
  have h_system : placeAndCancel.run defaultConfig pre = cancelSystem pre.length :=
    congrArg (placeAndCancel.run defaultConfig) h_pre
  have h_keys : Keys defaultConfig (placeAndCancel.run defaultConfig pre) :=
    (System.run_reaches placeAndCancel pre fun _ _ _ _ => trivial).invariant
      placeAndCancel_opening.toOpening.keys fun _ j h_keys (_ : True) => h_keys.step j
  constructor
  case stored =>
    intro request available price h_call
    have h_request : ((placeAndCancel.run defaultConfig pre).calls i).request? = some request := by
      rw [h_call]
      rfl
    have h_price := h_keys.priced i request price h_request (by rw [h_call]; rfl)
    rw [System.run_request] at h_request
    cases i with
    | false =>
      cases h_request
      have h_hundred : (restingBuy 100).execPrice defaultConfig = .ok 100 := by decide +kernel
      obtain rfl := ok.inj (h_hundred.symm.trans h_price)
      exact storedAsAsked_of_isNumeric ⟨.intCast numericScale 1, by norm_num [restingBuy]⟩
        ⟨.intCast numericScale 100, by norm_num⟩
    | true => cases h_request
  case released =>
    intro order h_releases _ _
    rw [h_system, ← h_i] at h_releases
    obtain ⟨h_row, h_nobody⟩ := h_released pre.length h_length order h_releases
    rw [h_system]
    exact .inr ⟨h_row, fun ⟨j, h_j⟩ => h_nobody j h_j⟩
  case refused =>
    intro h_refused
    rw [h_system, ← h_i, h_answered pre.length h_length] at h_refused
    cases h_refused
  case returned =>
    intro h_return
    rw [h_system, ← h_i, h_returns pre.length h_length] at h_return
    cases h_return

/-- The order is cancelled, and nothing is locked. -/
theorem reservations_exact_cancel :
    (placeAndCancel.run defaultConfig cancelBehind).store.account.lockedBalance
      = reservedTotal defaultConfig (placeAndCancel.run defaultConfig cancelBehind).store := by
  have h_ended : ∀ i, ((placeAndCancel.run defaultConfig cancelBehind).calls i).ended = true := by
    decide +kernel
  exact reservations_exact (1 / 1000) (5 / 10000) (by norm_num) (by norm_num) placeAndCancel
    (placeAndCancel.run defaultConfig cancelBehind) placeAndCancel_opening
    (System.run_reaches _ _ cancelBehind_careful) fun i => .inr (Call.ended_of_eq (h_ended i))

end VyomQuant.Paper.Service
