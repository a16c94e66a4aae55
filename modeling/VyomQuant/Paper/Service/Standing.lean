/-
  VyomQuant.Paper.Service.Standing

  What holds of the orders, the account and the calls of the default account in every run of
  limit orders, whatever the locked balance.

  `Careful` says of a statement that it does not go wrong with the cash of a resting buy;
  `Standing` is what each call knows, and which placed order is whose.
-/

import VyomQuant.Paper.Service.Idempotency
import VyomQuant.Paper.Service.Stakes

namespace VyomQuant.Paper.Service

open Decimal Except
open Accounting (AccountingConfig Account Instant)

variable {config : AccountingConfig} {s s' : Store}

/-! ## What is later known -/

/-- What a call knows stays so. -/
structure Later (s s' : Store) : Prop where
  known : ∀ order, Known s order → Known s' order
  opened : ∀ order, OpenRead s order → OpenRead s' order
  read : ∀ row, AccountRead s row → AccountRead s' row

variable {order row : OrderRow}

theorem Moves.known (h : Moves s s') (h_known : Known s order) : Known s' order := by
  obtain ⟨-, f, h_orders, h_f⟩ := h
  obtain ⟨row, h_row, h_terms⟩ := h_known
  refine ⟨f row, ?_, (h_f row h_row).1.trans h_terms⟩
  rw [h_orders]
  exact List.mem_map_of_mem h_row

theorem Moves.opened (h : Moves s s') (h_open : OpenRead s order) : OpenRead s' order := by
  obtain ⟨-, f, h_orders, h_f⟩ := h
  obtain ⟨h_state, row, h_row, h_terms, h_created⟩ := h_open
  obtain ⟨h_same, -, h_kept, -⟩ := h_f row h_row
  refine ⟨h_state, f row, ?_, h_same.trans h_terms, h_kept h_created⟩
  rw [h_orders]
  exact List.mem_map_of_mem h_row

theorem AccountRead.of_account (h_account : s'.account = s.account) {row : AccountRow}
    (h : AccountRead s row) : AccountRead s' row := by
  unfold AccountRead
  rw [h_account]
  exact h

variable {version : ℕ} {payload : AccountUpdate}

theorem AccountRead.of_written {written row : AccountRow}
    (h_written : AccountWrittenAt version payload s written s') (h : AccountRead s row) :
    AccountRead s' row := by
  have h_account : s'.account = written := congrArg Store.account h_written.store
  have h_moved := h_written.moved
  have h_version := h_written.version_eq
  have h_le := h.1
  constructor
  · rw [h_account]
    omega
  · intro h_eq
    rw [h_account] at h_eq
    omega

theorem Later.of_moves (h_moves : Moves s s') (h_account : s'.account = s.account) : Later s s' :=
  ⟨fun _ h => h_moves.known h, fun _ h => h_moves.opened h, fun _ h => h.of_account h_account⟩

theorem Later.of_written {written : AccountRow}
    (h : AccountWrittenAt version payload s written s') : Later s s' := by
  have h_moves : Moves s s' := by
    rw [h.store]
    exact .of_orders rfl (Nat.le_succ _)
  exact ⟨fun _ h => h_moves.known h, fun _ h => h_moves.opened h, fun _ h_read => h_read.of_written h⟩

variable {new : NewOrder}

theorem Later.of_inserted (h : OrderInserted new s row s') : Later s s' := by
  have h_mem : ∀ old ∈ s.orders, old ∈ s'.orders := by
    intro old h_old
    rw [h.store]
    exact List.mem_append_left _ h_old
  refine ⟨?_, ?_, fun _ h_read => h_read.of_account (congrArg Store.account h.store)⟩
  · rintro order ⟨old, h_old, h_terms⟩
    exact ⟨old, h_mem old h_old, h_terms⟩
  · rintro order ⟨h_state, old, h_old, h_terms⟩
    exact ⟨h_state, old, h_mem old h_old, h_terms⟩

theorem FillPhase.Knows.later {job : FillJob} {phase : FillPhase} (h_later : Later s s')
    (h : phase.Knows config job s) : phase.Knows config job s' := by
  cases phase with
  | readPositions account => exact h_later.read _ h
  | unmoved plan | lookup plan | ledger plan existing | insert plan | money plan fill =>
    exact ⟨h_later.read _ h.1, h.2⟩
  | readAccount | event plan fill | closingRead plan fill existing
  | closingWrite plan fill existing current | positionRead plan fill
  | positionWrite plan fill current | trade plan fill closed | finish plan fill | reread
  | rereadFills order => trivial

theorem Call.Knows.later {call : Call} (h_later : Later s s') (h : call.Knows config s) :
    call.Knows config s' := by
  unfold Call.Knows at h ⊢
  split
  · exact ⟨h_later.known _ h.1, h.2⟩
  · exact ⟨h_later.known _ h.1, h_later.read _ h.2.1, h.2.2⟩
  · exact h_later.known _ h
  · exact h_later.known _ h
  · exact h
  · exact h
  · exact h_later.opened _ h
  · exact ⟨h_later.opened _ h.1, h_later.read _ h.2.1, h.2.2⟩
  · exact h_later.opened _ h
  · exact h_later.opened _ h
  · exact ⟨⟨h_later.opened _ h.1.order, h.1.release, h.1.phase.later h_later⟩,
      fun order h_order => h_later.opened _ (h.2 order h_order)⟩
  · exact ⟨h_later.opened _ h.1, fun order h_order => h_later.opened _ (h.2 order h_order)⟩
  · trivial

/-! ## Statements that do not go wrong -/

variable {ι : Type} [DecidableEq ι] {c c' : System ι} {i : ι}

/-- The call has released the cash of the order. -/
def Stake.Released (id : ℕ) : Stake → Prop
  | .releasing order => order.id = id
  | _ => False

/-- The call has locked the cash of the order. -/
def Stake.Held (id : ℕ) : Stake → Prop
  | .holding order => order.id = id
  | _ => False

/-- The call has cancelled the order, and not returned its cash. -/
def Stake.Cancelled (id : ℕ) : Stake → Prop
  | .cancelled ids => id ∈ ids
  | _ => False

/-- Some call has such a stake. -/
def Anyone (c : System ι) (P : Stake → Prop) : Prop := ∃ j, P (c.calls j).stake

/-- Some other call has such a stake. -/
def Others (c : System ι) (i : ι) (P : Stake → Prop) : Prop := ∃ j, j ≠ i ∧ P (c.calls j).stake

/-- The order is on the book, and no call has released its cash. -/
def Unreleased (c : System ι) (order : OrderRow) : Prop :=
  (∃ row ∈ c.store.orders, row.id = order.id ∧ row.orderState = .accepted) ∧
    ¬ Anyone c (Stake.Released order.id)

/-- A call that stops at its stake leaves no cash behind, locked or released. -/
def Settled (config : AccountingConfig) (c : System ι) (i : ι) : Stake → Prop
  | .none => True
  | .owned _ => True
  | .holding order => reservedFor config order = 0
  | .releasing order => reservedFor config order = 0 ∨
      (∃ row ∈ c.store.orders, row.id = order.id ∧ row.orderState ≠ .accepted) ∨
      Others c i (Stake.Released order.id)
  | .cancelled ids => c.store.account.lockedBalance = 0 ∨
      ∀ row ∈ c.store.orders, row.id ∈ ids → reservedFor config row = 0

/-- No cash is locked that an order has yet to release. -/
structure AllReleased (config : AccountingConfig) (c : System ι) : Prop where
  accepted : ∀ row ∈ c.store.orders, row.orderState = .accepted → reservedFor config row ≠ 0 →
    Anyone c (Stake.Released row.id)
  held : ∀ j order, (c.calls j).stake = .holding order → reservedFor config order = 0

/-- The next statement of a call does not go wrong: an order reserves as stored what it
    reserves as asked for; cash is released of an order that is on the book and whose cash was
    not released; no statement is refused behind an account write, or behind the cancels of a
    reset, that leaves cash behind; and a reset returns the capital when all cash is released. -/
structure Careful (config : AccountingConfig) (c : System ι) (i : ι) : Prop where
  stored : ∀ request available price, c.calls i = .place request (.insert available price) →
    request.StoredAsAsked config price
  released : ∀ order, (c.calls i).releases = some order → (c.calls i).refused config c.store = false →
    reservedFor config order ≠ 0 → c.store.account.lockedBalance = 0 ∨ Unreleased c order
  refused : (c.calls i).refused config c.store = true → Settled config c i (c.calls i).stake
  returned : (c.calls i).returns = true → (c.calls i).refused config c.store = false → AllReleased config c

/-! ## What stands in every run -/

/-- The order that a call has placed and not seen accepted. -/
def Stake.Places (stake : Stake) (order : OrderRow) : Prop :=
  stake = .owned order ∨ stake = .holding order

/-- What holds of the table, the account and the calls, apart from the locked balance. -/
structure Standing (config : AccountingConfig) (c : System ι) : Prop where
  limit : ∀ i request, (c.calls i).request? = some request → request.orderType = .limit
  keyed : OrdersKeyed c.store
  balanced : Balanced c.store.account
  whole : ∀ order ∈ c.store.orders, order.orderState ≠ .partiallyFilled
  nonneg : ∀ order ∈ c.store.orders, 0 ≤ reservedFor config order
  knows : ∀ i, (c.calls i).Knows config c.store
  created : ∀ i order, (c.calls i).stake.Places order → ∀ row ∈ c.store.orders,
    row.id = order.id → row.orderState = .created
  exclusive : ∀ i j order other, (c.calls i).stake.Places order → (c.calls j).stake.Places other →
    order.id = other.id → i = j

theorem Call.Knows.known {call : Call} (h : call.Knows config s)
    (h_stake : call.stake.Places order) : Known s order := by
  have h_fill : ∀ (job : FillJob) (phase : FillPhase), ¬ (phase.stake job).Places order := by
    intro job phase h_places
    cases phase with
    | _ => rcases h_places with h_owned | h_holding <;> contradiction
  unfold Call.stake at h_stake
  split at h_stake
  · rcases h_stake with h_owned | h_holding
    · cases h_owned
      exact h.1
    · cases h_holding
  · rcases h_stake with h_owned | h_holding
    · cases h_owned
      exact h.1
    · cases h_holding
  · rcases h_stake with h_owned | h_holding
    · cases h_owned
    · cases h_holding
      exact h
  · rcases h_stake with h_owned | h_holding
    · cases h_owned
    · cases h_holding
      exact h
  · exact absurd h_stake (h_fill _ _)
  · rcases h_stake with h_owned | h_holding <;> contradiction
  · rcases h_stake with h_owned | h_holding <;> contradiction
  · exact absurd h_stake (h_fill _ _)
  all_goals rcases h_stake with h_owned | h_holding <;> contradiction

theorem Call.Knows.opened {call : Call} (h : call.Knows config s)
    (h_stake : call.stake = .releasing order) : OpenRead s order := by
  have h_fill : ∀ (job : FillJob) (phase : FillPhase), phase.stake job = .releasing order →
      job.order = order := by
    intro job phase h_releasing
    cases phase with
    | event plan fill | closingRead plan fill existing | closingWrite plan fill existing current
    | positionRead plan fill | positionWrite plan fill current | trade plan fill closed
    | finish plan fill =>
      cases h_releasing
      rfl
    | _ => cases h_releasing
  unfold Call.stake at h_stake
  split at h_stake
  any_goals cases h_stake
  · exact h.elim
  · exact h
  · exact h
  · obtain rfl := h_fill _ _ h_stake
    exact h.1.order

theorem OrderMoved.account {orderId : ℕ} {target expected : OrderState}
    (h : OrderMoved orderId target expected s row s') : s'.account = s.account := by
  rw [h.store]
  rfl

theorem AccountWrittenAt.orders {row : AccountRow} (h : AccountWrittenAt version payload s row s') :
    s'.orders = s.orders := by
  rw [h.store]

theorem AccountWrittenAt.account {row : AccountRow}
    (h : AccountWrittenAt version payload s row s') : s'.account = row := by
  rw [h.store]

theorem inserted_orders (h : OrderInserted new s row s') : s'.orders = s.orders ++ [row] := by
  rw [h.store]

theorem inserted_account (h : OrderInserted new s row s') : s'.account = s.account := by
  rw [h.store]

theorem OrderMoved.mem_cases {orderId : ℕ} {target expected : OrderState} {other : OrderRow}
    (h : OrderMoved orderId target expected s row s') (h_other : other ∈ s'.orders) :
    other = row ∨ other ∈ s.orders ∧ other.id ≠ row.id := by
  rw [h.store] at h_other
  obtain ⟨old, h_old, h_row⟩ := List.mem_map.mp h_other
  split_ifs at h_row with h_id
  · exact .inl h_row.symm
  · rw [← h_row]
    exact .inr ⟨h_old, h_id⟩

theorem Known.id_lt (h_keyed : OrdersKeyed s) (h : Known s order) : order.id < s.clock := by
  obtain ⟨row, h_row, h_terms⟩ := h
  have h_id : row.id = order.id := congrArg OrderTerms.id h_terms
  have h_drawn := h_keyed.drawn row h_row
  omega

namespace Turn

variable {call call' : Call}

theorem later (h : Turn config s s' call call') (h_keyed : OrdersKeyed s)
    (h_clock : s.clock ≤ s'.clock) : Later s s' := by
  have h_moved : ∀ {orderId : ℕ} {target expected : OrderState} {row : OrderRow},
      OrderMoved orderId target expected s row s' → target ≠ .partiallyFilled → Later s s' :=
    fun h_moved h_target => .of_moves (h_moved.moves h_target h_keyed) h_moved.account
  cases h with
  | kept h_orders h_account h_stake => exact .of_moves (.of_orders h_orders h_clock) h_account
  | began h_orders h_account h_before h_stake =>
    exact .of_moves (.of_orders h_orders h_clock) h_account
  | dropped h_orders h_account h_before h_stake =>
    exact .of_moves (.of_orders h_orders h_clock) h_account
  | inserted h_before h h_stake => exact .of_inserted h
  | locked h_before h h_locked h_stake => exact .of_written h
  | accepted h_before h h_stake => exact h_moved h nofun
  | released h_before h_releases h_answered h h_locked h_stake => exact .of_written h
  | left h_before h h_target h_stake =>
    refine h_moved h fun h_part => ?_
    rw [h_part] at h_target
    cases h_target
  | cancelled h_before h h_stake => exact h_moved h nofun
  | returned h_returns h_answered h h_locked h_stake => exact .of_written h

theorem balanced (h : Turn config s s' call call') (h_balanced : Balanced s.account) :
    Balanced s'.account := by
  have h_same : s'.account = s.account → Balanced s'.account := fun h_account => h_account ▸ h_balanced
  have h_written : ∀ {version : ℕ} {payload : AccountUpdate} {row : AccountRow},
      AccountWrittenAt version payload s row s' → Balanced s'.account := by
    intro version payload row h_written
    rw [h_written.account]
    exact h_written.balanced
  cases h with
  | kept h_orders h_account h_stake => exact h_same h_account
  | began h_orders h_account h_before h_stake => exact h_same h_account
  | dropped h_orders h_account h_before h_stake => exact h_same h_account
  | inserted h_before h h_stake => exact h_same (inserted_account h)
  | locked h_before h h_locked h_stake => exact h_written h
  | accepted h_before h h_stake => exact h_same h.account
  | released h_before h_releases h_answered h h_locked h_stake => exact h_written h
  | left h_before h h_target h_stake => exact h_same h.account
  | cancelled h_before h h_stake => exact h_same h.account
  | returned h_returns h_answered h h_locked h_stake => exact h_written h

theorem places (h : Turn config s s' call call') (h_places : call'.stake.Places order) :
    call.stake.Places order ∧ s'.orders = s.orders ∨ ∃ new, OrderInserted new s order s' := by
  have h_none : ∀ {stake : Stake}, stake.Places order → stake ≠ .none := by
    rintro stake (h_owned | h_holding) h_none
    · cases h_owned.symm.trans h_none
    · cases h_holding.symm.trans h_none
  cases h with
  | kept h_orders h_account h_stake =>
    rw [h_stake] at h_places
    exact .inl ⟨h_places, h_orders⟩
  | began h_orders h_account h_before h_stake =>
    rcases h_stake with h_stake | ⟨_, h_stake, _⟩
    · rw [h_stake] at h_places
      rcases h_places with h_owned | h_holding <;> contradiction
    · rw [h_stake] at h_places
      rcases h_places with h_owned | h_holding <;> contradiction
  | dropped h_orders h_account h_before h_stake => exact absurd h_stake (h_none h_places)
  | inserted h_before h h_stake =>
    rcases h_stake with h_stake | h_stake | ⟨h_stake, -⟩
    · exact absurd h_stake (h_none h_places)
    · rw [h_stake] at h_places
      rcases h_places with h_owned | h_holding
      · cases h_owned
        exact .inr ⟨_, h⟩
      · cases h_holding
    · rw [h_stake] at h_places
      rcases h_places with h_owned | h_holding
      · cases h_owned
      · cases h_holding
        exact .inr ⟨_, h⟩
  | locked h_before h h_locked h_stake =>
    rw [h_stake] at h_places
    rcases h_places with h_owned | h_holding
    · cases h_owned
    · cases h_holding
      exact .inl ⟨.inl h_before, h.orders⟩
  | accepted h_before h h_stake => exact absurd h_stake (h_none h_places)
  | released h_before h_releases h_answered h h_locked h_stake =>
    rw [h_stake] at h_places
    rcases h_places with h_owned | h_holding <;> contradiction
  | left h_before h h_target h_stake => exact absurd h_stake (h_none h_places)
  | cancelled h_before h h_stake =>
    rw [h_stake] at h_places
    rcases h_places with h_owned | h_holding <;> contradiction
  | returned h_returns h_answered h h_locked h_stake => exact absurd h_stake (h_none h_places)

/-- An order that another call has placed is left at `CREATED`. -/
theorem created (h : Turn config s s' call call')
    (h_created : ∀ row ∈ s.orders, row.id = order.id → row.orderState = .created)
    (h_other : ∀ placed, call.stake = .holding placed → placed.id ≠ order.id) :
    ∀ row ∈ s'.orders, row.id = order.id → row.orderState = .created := by
  have h_same : s'.orders = s.orders →
      ∀ row ∈ s'.orders, row.id = order.id → row.orderState = .created := by
    intro h_orders
    rw [h_orders]
    exact h_created
  have h_moved : ∀ {orderId : ℕ} {target : OrderState} {moved : OrderRow},
      OrderMoved orderId target .accepted s moved s' →
      ∀ row ∈ s'.orders, row.id = order.id → row.orderState = .created := by
    intro orderId target moved h_moved row h_row h_id
    rcases h_moved.mem_cases h_row with rfl | ⟨h_old, -⟩
    · -- The order that was moved was accepted, and so is none that was just placed.
      obtain ⟨old, h_old, h_old_id, h_state, -⟩ := h_moved.old
      have h_old_created := h_created old h_old ((h_old_id.trans h_moved.id.symm).trans h_id)
      cases h_state.symm.trans h_old_created
    · exact h_created row h_old h_id
  cases h with
  | kept h_orders h_account h_stake => exact h_same h_orders
  | began h_orders h_account h_before h_stake => exact h_same h_orders
  | dropped h_orders h_account h_before h_stake => exact h_same h_orders
  | @inserted request price new h_before h h_stake =>
    intro row h_row h_id
    rw [h.store] at h_row
    rcases List.mem_append.mp h_row with h_old | h_new
    · exact h_created row h_old h_id
    · obtain rfl := List.mem_singleton.mp h_new
      exact h.state_eq
  | locked h_before h h_locked h_stake => exact h_same h.orders
  | @accepted placed moved h_before h h_stake =>
    intro row h_row h_id
    rcases h.mem_cases h_row with rfl | ⟨h_old, -⟩
    · exact absurd (h.id.symm.trans h_id) (h_other placed h_before)
    · exact h_created row h_old h_id
  | released h_before h_releases h_answered h h_locked h_stake =>
    exact h_same h.orders
  | left h_before h h_target h_stake => exact h_moved h
  | cancelled h_before h h_stake => exact h_moved h
  | returned h_returns h_answered h h_locked h_stake => exact h_same h.orders

end Turn

theorem Call.step_clock (h_keyed : OrdersKeyed s) (call : Call) :
    s.clock ≤ (call.step config s).2.clock := by
  rcases @Call.step_orders s config h_keyed call with h_moves | ⟨_, _, _, _, _, h_inserted, _⟩
  · exact h_moves.1
  · rw [h_inserted.store]
    exact Nat.le_succ _

theorem Standing.turn (h_minor : config.minorUnitExponent ≤ numericScale) (h : Standing config c)
    (h_careful : Careful config c i) :
    Turn config c.store (c.step config i).store (c.calls i) ((c.step config i).calls i) ∧
      (((c.step config i).calls i).Knows config c.store ∨
        ((c.step config i).calls i).Knows config (c.step config i).store) := by
  rw [System.step_self]
  refine Call.step_turn h_minor h.balanced h.whole (fun request phase h_call => ?_) h_careful.stored
    (h.knows i)
  refine h.limit i request ?_
  rw [h_call]
  rfl

theorem Standing.step (h_minor : config.minorUnitExponent ≤ numericScale) (h : Standing config c)
    (h_careful : Careful config c i) : Standing config (c.step config i) := by
  obtain ⟨h_turn, h_knows⟩ := h.turn h_minor h_careful
  have h_later : Later c.store (c.step config i).store :=
    h_turn.later h.keyed (Call.step_clock h.keyed _)
  have h_places : ∀ j order, ((c.step config i).calls j).stake.Places order →
      (c.calls j).stake.Places order ∧ (j = i → (c.step config i).store.orders = c.store.orders) ∨
        j = i ∧ ∃ new, OrderInserted new c.store order (c.step config i).store := by
    intro j order h_places
    by_cases h_j : j = i
    · subst h_j
      rcases h_turn.places h_places with ⟨h_old, h_orders⟩ | h_new
      · exact .inl ⟨h_old, fun _ => h_orders⟩
      · exact .inr ⟨rfl, h_new⟩
    · rw [System.step_other h_j] at h_places
      exact .inl ⟨h_places, fun h_eq => absurd h_eq h_j⟩
  have h_lt : ∀ j order, (c.calls j).stake.Places order → order.id < c.store.clock :=
    fun j order h_order => ((h.knows j).known h_order).id_lt h.keyed
  constructor
  case limit =>
    intro j request h_request
    rw [System.step_request] at h_request
    exact h.limit j request h_request
  case keyed => exact Call.step_keyed h.keyed _
  case balanced => exact h_turn.balanced h.balanced
  case whole =>
    rcases @Call.step_orders _ config h.keyed (c.calls i) with
      ⟨-, f, h_orders, h_f⟩ | ⟨_, _, _, row, -, h_inserted, -⟩
    · intro order h_order
      have h_mem : order ∈ c.store.orders.map f := h_orders ▸ h_order
      obtain ⟨old, h_old, rfl⟩ := List.mem_map.mp h_mem
      exact (h_f old h_old).2.2.2 (h.whole old h_old)
    · intro order h_order
      have h_mem : order ∈ c.store.orders ++ [row] := inserted_orders h_inserted ▸ h_order
      rcases List.mem_append.mp h_mem with h_old | h_new
      · exact h.whole order h_old
      · rw [List.mem_singleton.mp h_new, h_inserted.state_eq]
        exact nofun
  case nonneg =>
    rcases @Call.step_orders _ config h.keyed (c.calls i) with
      ⟨-, f, h_orders, h_f⟩ | ⟨_, _, _, row, -, h_inserted, -⟩
    · intro order h_order
      have h_mem : order ∈ c.store.orders.map f := h_orders ▸ h_order
      obtain ⟨old, h_old, rfl⟩ := List.mem_map.mp h_mem
      rw [reservedFor_congr (h_f old h_old).1]
      exact h.nonneg old h_old
    · intro order h_order
      have h_mem : order ∈ c.store.orders ++ [row] := inserted_orders h_inserted ▸ h_order
      rcases List.mem_append.mp h_mem with h_old | h_new
      · exact h.nonneg order h_old
      · rw [List.mem_singleton.mp h_new]
        exact inserted_nonneg h_inserted
  case knows =>
    intro j
    by_cases h_j : j = i
    · subst h_j
      rcases h_knows with h_before | h_after
      · exact h_before.later h_later
      · exact h_after
    · rw [System.step_other h_j]
      exact (h.knows j).later h_later
  case created =>
    intro j order h_order
    rcases h_places j order h_order with ⟨h_old, h_orders⟩ | ⟨rfl, new, h_new⟩
    · by_cases h_j : j = i
      · rw [h_orders h_j]
        exact h.created j order h_old
      · refine h_turn.created (h.created j order h_old) fun placed h_placed h_id => ?_
        exact h_j (h.exclusive j i order placed h_old (.inr h_placed) h_id.symm)
    · intro row h_row h_id
      rw [h_new.store] at h_row
      rcases List.mem_append.mp h_row with h_mem | h_row
      · have h_drawn := h.keyed.drawn row h_mem
        rw [h_id, h_new.id_eq] at h_drawn
        exact absurd h_drawn (lt_irrefl _)
      · rw [List.mem_singleton.mp h_row]
        exact h_new.state_eq
  case exclusive =>
    intro j k order other h_order h_other h_id
    rcases h_places j order h_order with ⟨h_old, -⟩ | ⟨rfl, new, h_new⟩
    · rcases h_places k other h_other with ⟨h_old', -⟩ | ⟨rfl, new, h_new⟩
      · exact h.exclusive j k order other h_old h_old' h_id
      · have h_drawn := h_lt j order h_old
        rw [h_id, h_new.id_eq] at h_drawn
        exact absurd h_drawn (lt_irrefl _)
    · rcases h_places k other h_other with ⟨h_old, -⟩ | ⟨rfl, -⟩
      · have h_drawn := h_lt k other h_old
        rw [← h_id, h_new.id_eq] at h_drawn
        exact absurd h_drawn (lt_irrefl _)
      · rfl

end VyomQuant.Paper.Service
