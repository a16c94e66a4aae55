/-
  VyomQuant.Paper.Service.Idempotency

  The idempotency key of `place_order` on the default account.

  At most one order is recorded under a key, whatever the calls and wherever they stop.  What
  a call is answered with is another matter: the service never compares the intent, and it
  returns the recorded order as it stands.  `one_finished_order` holds where the calls of a
  key have one intent and a key is probed when the call that placed its market order is
  through.
-/

import VyomQuant.Paper.Service.Effects

namespace VyomQuant.Paper.Service

open Except
open Accounting (AccountingConfig AccountingError Account Book Position OrderSide Instant FillResult
  ClosedTrade)

variable {config : AccountingConfig} {s s' : Store} {request other : Request} {order : OrderRow}
  {phase : PlacePhase}

/-! ## Intents -/

/-- The order was recorded for the request: its terms are those that the request inserts. -/
structure Records (config : AccountingConfig) (request : Request) (order : OrderRow) : Prop where
  symbol : order.symbol = request.symbol
  side : order.side = request.side
  orderType : order.orderType = request.orderType
  quantity : numeric request.quantity = .ok order.quantity
  limit : request.orderType = .limit → ∃ price, request.execPrice config = .ok price ∧
    optionalNumeric (some price) = .ok order.limitPrice
  market : request.orderType = .market → order.limitPrice = none

/-- Two requests for the same order, their quotes apart. -/
structure Request.SameIntent (request other : Request) : Prop where
  symbol : request.symbol = other.symbol
  side : request.side = other.side
  orderType : request.orderType = other.orderType
  quantity : request.quantity = other.quantity
  price : request.orderType = .limit → request.price = other.price

theorem Records.of_sameIntent (h : Records config request order) (h_same : request.SameIntent other) :
    Records config other order where
  symbol := h.symbol.trans h_same.symbol
  side := h.side.trans h_same.side
  orderType := h.orderType.trans h_same.orderType
  quantity := h_same.quantity ▸ h.quantity
  limit := by
    intro h_limit
    obtain ⟨price, h_price, h_stored⟩ := h.limit (h_same.orderType.trans h_limit)
    refine ⟨price, ?_, h_stored⟩
    unfold Request.execPrice at h_price ⊢
    rw [h_same.orderType, h_limit] at h_price
    rw [h_limit, ← h_same.price (h_same.orderType.trans h_limit)]
    exact h_price
  market := fun h_market => h.market (h_same.orderType.trans h_market)

theorem Records.congr {old : OrderRow} (h : Records config request old)
    (h_terms : termsOf order = termsOf old) : Records config request order where
  symbol := (congrArg OrderTerms.symbol h_terms).trans h.symbol
  side := (congrArg OrderTerms.side h_terms).trans h.side
  orderType := (congrArg OrderTerms.orderType h_terms).trans h.orderType
  quantity := h.quantity.trans (congrArg (fun terms => ok terms.quantity) h_terms).symm
  limit := by
    intro h_limit
    obtain ⟨price, h_price, h_stored⟩ := h.limit h_limit
    exact ⟨price, h_price, h_stored.trans (congrArg (fun terms => ok terms.limitPrice) h_terms).symm⟩
  market := fun h_market => (congrArg OrderTerms.limitPrice h_terms).trans (h.market h_market)

theorem Records.of_inserted {price : ℚ} (h_price : request.execPrice config = .ok price)
    (h : OrderInserted (request.newOrder price) s order s') : Records config request order where
  symbol := by rw [h.row_eq]; rfl
  side := by rw [h.row_eq]; rfl
  orderType := by rw [h.row_eq]; rfl
  quantity := h.quantity
  limit := by
    intro h_limit
    have h_stored := h.limitPrice
    unfold Request.newOrder at h_stored
    dsimp only at h_stored
    rw [if_pos h_limit] at h_stored
    exact ⟨price, h_price, h_stored⟩
  market := by
    intro h_market
    have h_stored := h.limitPrice
    unfold Request.newOrder at h_stored
    dsimp only at h_stored
    rw [if_neg (by rw [h_market]; exact nofun)] at h_stored
    exact (ok.inj h_stored).symm

/-! ## Where a call stands -/

/-- What the key's order, or the call's own, has come to. -/
def Finished (order : OrderRow) : Prop := order.orderState = .filled ∨ order.orderState = .rejected

theorem Finished.isTerminal (h : Finished order) : order.orderState.isTerminal = true := by
  rcases h with h_filled | h_rejected
  · rw [h_filled]
    rfl
  · rw [h_rejected]
    rfl

/-- What is known of a call: the price that it inserts at, the order that it is answered with,
    or the order that it has placed and seen through. -/
inductive Note where
  | plain
  | priced (price : ℚ)
  | answered (order : OrderRow)
  | placed (order : OrderRow)

def PlacePhase.note : PlacePhase → Note
  | .insert _ price => .priced price
  | .answer recorded => .answered recorded
  | .ended (.recorded recorded _) => .answered recorded
  | .ended (.filled order _) => .placed order
  | .ended (.insufficientFunds order) => .placed order
  | _ => .plain

/-- The call is about to look its key up. -/
def PlacePhase.Probes : PlacePhase → Prop
  | .probe _ _ => True
  | .reprobe => True
  | _ => False

def Call.request? : Call → Option Request
  | .place request _ => some request
  | _ => none

theorem Call.step_request (call : Call) (s : Store) :
    (call.step config s).1.request? = call.request? := by
  cases call with
  | place request phase => rfl
  | cancel orderId phase => rfl
  | sweep symbol price phase => rfl
  | reset capital startedAt phase => rfl

theorem Request.admission_note (account : AccountRow) (rows : List PositionRow) :
    (request.admission config account rows).note = .plain ∨
      ∃ price, request.execPrice config = .ok price ∧
        (request.admission config account rows).note = .priced price := by
  unfold Request.admission
  dsimp only
  split
  · rename_i price h_admitted
    obtain ⟨_, -, h_priced⟩ := bind_eq_ok.mp h_admitted
    obtain ⟨exec, h_exec, h_priced⟩ := bind_eq_ok.mp h_priced
    refine .inr ⟨price, ?_, rfl⟩
    have h_price : exec = price := by
      split_ifs at h_priced
      · obtain ⟨_, -, h_priced⟩ := bind_eq_ok.mp h_priced
        obtain ⟨_, -, h_priced⟩ := bind_eq_ok.mp h_priced
        exact pure_eq_ok.mp h_priced
      · exact pure_eq_ok.mp h_priced
    rw [h_exec, h_price]
  · exact .inl rfl

theorem Request.inserted_note (available price : ℚ) :
    (request.inserted config available price order).note = .plain := by
  unfold Request.inserted
  split
  · split
    · split_ifs
      · rfl
      · rfl
    · rfl
  · split
    · split_ifs
      · rfl
      · rfl
    · rfl
  · rfl

theorem OrderMoved.mem {orderId : ℕ} {target expected : OrderState}
    (h : OrderMoved orderId target expected s order s') : order ∈ s'.orders := by
  obtain ⟨old, h_old, h_id, -, -⟩ := h.old
  rw [h.store]
  refine List.mem_map.mpr ⟨old, h_old, if_pos ?_⟩
  rw [h_id, h.id]

theorem Filling.step_filled {filling : Filling} {fill : FillRow}
    (h : (filling.step config s).1 = .filled order fill) :
    order ∈ (filling.step config s).2.orders ∧ order.orderState = .filled := by
  have h_phase : (filling.phase.step config filling.job filling.attempt s).1 = .filled order fill := by
    unfold Filling.step at h
    split at h
    · cases h
    · rename_i h_step
      rw [h_step]
      cases h
      rfl
    · cases h
    · split_ifs at h
  rw [Filling.step_store]
  obtain ⟨plan, values, -, h_values, h_fill⟩ := FillPhase.step_filled h_phase
  have h_moved := fillOrderRow_eq_ok h_fill
  obtain ⟨_, -, h_values⟩ := bind_eq_ok.mp h_values
  obtain ⟨_, -, h_values⟩ := bind_eq_ok.mp h_values
  rw [pure_eq_ok] at h_values
  refine ⟨h_moved.mem, h_moved.state.trans ?_⟩
  rw [← h_values]

theorem PlacePhase.step_note (request : Request) (phase : PlacePhase) (s : Store) :
    (phase.step config request s).1.note = .plain ∨
    ((phase.step config request s).1.note = phase.note ∧ (phase.step config request s).2 = s) ∨
    (∃ price, request.execPrice config = .ok price ∧
      (phase.step config request s).1.note = .priced price) ∨
    (∃ key order, phase.Probes ∧ request.idempotencyKey = some key ∧
      recordedUnder key s = some order ∧ (phase.step config request s).1.note = .answered order) ∨
    ∃ order, (phase.step config request s).1.note = .placed order ∧
      order ∈ (phase.step config request s).2.orders ∧ Finished order := by
  have h_probe : ∀ {order : OrderRow}, phase.Probes →
      (request.idempotencyKey.bind fun key => recordedUnder key s) = some order →
      ∃ key order', phase.Probes ∧ request.idempotencyKey = some key ∧
        recordedUnder key s = some order' ∧ Note.answered order = .answered order' := by
    intro order h_probes h_bind
    obtain ⟨key, h_key, h_recorded⟩ := Option.bind_eq_some_iff.mp h_bind
    exact ⟨key, order, h_probes, h_key, h_recorded, rfl⟩
  cases phase with
  | readAccount =>
    unfold PlacePhase.step
    dsimp only
    split_ifs
    · exact .inl rfl
    · exact .inl rfl
  | readPositions account =>
    unfold PlacePhase.step
    dsimp only
    split
    · exact .inl rfl
    · exact (Request.admission_note _ _).imp_right fun h => .inr (.inl h)
  | probe account rows =>
    unfold PlacePhase.step
    dsimp only
    split
    · rename_i recorded h_recorded
      exact .inr (.inr (.inr (.inl (h_probe trivial h_recorded))))
    · exact (Request.admission_note _ _).imp_right fun h => .inr (.inl h)
  | insert available price =>
    refine .inl ?_
    rcases issue_eq (Eq.refl (PlacePhase.step config request s (.insert available price)).1) with
      ⟨row, s', h_ok, h_next, -⟩ | ⟨e, -, h_failed, -⟩
    · rw [← h_next]
      exact Request.inserted_note available price
    · rw [← h_failed]
      split_ifs
      · rfl
      · rfl
  | reprobe =>
    unfold PlacePhase.step
    dsimp only
    split
    · rename_i recorded h_recorded
      exact .inr (.inr (.inr (.inl (h_probe trivial h_recorded))))
    · exact .inl rfl
  | answer recorded => exact .inr (.inl ⟨rfl, rfl⟩)
  | lockRead order price cost =>
    unfold PlacePhase.step
    dsimp only
    split
    · exact .inl rfl
    · exact .inl rfl
  | lockMoney order price before locked occurredAt =>
    refine .inl ?_
    rcases issue_eq (Eq.refl (PlacePhase.step config request s
      (.lockMoney order price before locked occurredAt)).1) with
      ⟨row, s', h_ok, h_next, -⟩ | ⟨e, -, h_failed, -⟩
    · rw [← h_next]
      rfl
    · rw [← h_failed]
      rfl
  | lockEvent order price before locked occurredAt =>
    refine .inl ?_
    rcases issue_eq (Eq.refl (PlacePhase.step config request s
      (.lockEvent order price before locked occurredAt)).1) with
      ⟨row, s', h_ok, h_next, -⟩ | ⟨e, -, h_failed, -⟩
    · rw [← h_next]
      rfl
    · rw [← h_failed]
      rfl
  | accept order price =>
    refine .inl ?_
    rcases issue_eq (Eq.refl (PlacePhase.step config request s (.accept order price)).1) with
      ⟨row, s', h_ok, h_next, -⟩ | ⟨e, -, h_failed, -⟩
    · rw [← h_next]
      split
      · rfl
      · rfl
    · rw [← h_failed]
      rfl
  | reject order =>
    rcases issue_eq (Eq.refl (PlacePhase.step config request s (.reject order)).1) with
      ⟨row, s', h_ok, h_next, h_store⟩ | ⟨e, -, h_failed, -⟩
    · have h_moved := moveOrderRow_eq_ok h_ok
      refine .inr (.inr (.inr (.inr ⟨row, ?_, ?_, .inr h_moved.state⟩)))
      · rw [← h_next]
        rfl
      · exact h_store ▸ h_moved.mem
    · refine .inl ?_
      rw [← h_failed]
      rfl
  | filling fill =>
    unfold PlacePhase.step
    dsimp only
    split
    · exact .inl rfl
    · rename_i order anchor s' h_step
      have h_filled := Filling.step_filled (congrArg Prod.fst h_step)
      rw [h_step] at h_filled
      exact .inr (.inr (.inr (.inr ⟨order, rfl, h_filled.1, .inl h_filled.2⟩)))
    · exact .inl rfl
    · split_ifs
      · exact .inl rfl
      · exact .inl rfl
  | ended ending => exact .inr (.inl ⟨rfl, rfl⟩)

/-! ## Systems -/

variable {ι : Type} [DecidableEq ι] {c c' : System ι} {i : ι}

def Call.note : Call → Note
  | .place _ phase => phase.note
  | _ => .plain

/-- The call is about to look its key up. -/
def Call.Probes : Call → Prop
  | .place _ phase => phase.Probes
  | _ => False

/-- Calls with one key are for one order. -/
def SameIntents (c : System ι) : Prop :=
  ∀ i j request other key, (c.calls i).request? = some request → (c.calls j).request? = some other →
    request.idempotencyKey = some key → other.idempotencyKey = some key → request.SameIntent other

/-- A call has placed the order and seen it through: it filled it, or refused it for want of
    funds. -/
def SeenThrough (c : System ι) (orderId : ℕ) : Prop :=
  ∃ i order, (c.calls i).note = .placed order ∧ order.id = orderId

/-- A call that looks its key up finds no market order, or one that was seen through. -/
def FindsFinished (c : System ι) (i : ι) : Prop :=
  (c.calls i).Probes → ∀ request key order, (c.calls i).request? = some request →
    request.idempotencyKey = some key → recordedUnder key c.store = some order →
    order.orderType = .market → SeenThrough c order.id

/-- At most one order is recorded under each key. -/
def OneOrder (c : System ι) : Prop :=
  ∀ key, (c.store.orders.filter fun order => order.idempotencyKey = some key).length ≤ 1

/-- One key, one finished order of that intent. -/
structure OneFinishedOrder (config : AccountingConfig) (c : System ι) : Prop where
  one : OneOrder c
  intent : ∀ i request order, (c.calls i).request? = some request →
    (c.calls i).note = .answered order → Records config request order
  finished : ∀ i order, (c.calls i).note = .answered order → order.orderType = .market →
    Finished order

/-- The keys of the orders are distinct, as the index has it. -/
structure Keys (config : AccountingConfig) (c : System ι) : Prop where
  keyed : OrdersKeyed c.store
  unique : (c.store.orders.filterMap OrderRow.idempotencyKey).Nodup
  priced : ∀ i request price, (c.calls i).request? = some request →
    (c.calls i).note = .priced price → request.execPrice config = .ok price

theorem System.step_self (c : System ι) (i : ι) :
    (c.step config i).calls i = ((c.calls i).step config c.store).1 := Function.update_self ..

theorem System.step_other {j : ι} (h : j ≠ i) : (c.step config i).calls j = c.calls j :=
  Function.update_of_ne h ..

theorem System.step_request (c : System ι) (i j : ι) :
    ((c.step config i).calls j).request? = (c.calls j).request? := by
  by_cases h_j : j = i
  · subst h_j
    rw [System.step_self, Call.step_request]
  · rw [System.step_other h_j]

theorem System.run_request (c : System ι) (schedule : List ι) (i : ι) :
    ((c.run config schedule).calls i).request? = (c.calls i).request? := by
  induction schedule generalizing c with
  | nil => rfl
  | cons j rest ih =>
    show (((c.step config j).run config rest).calls i).request? = _
    rw [ih, System.step_request]

theorem SameIntents.step (h : SameIntents c) (i : ι) : SameIntents (c.step config i) := by
  intro j k request other key h_j h_k
  rw [System.step_request] at h_j h_k
  exact h j k request other key h_j h_k

theorem Call.step_note (call : Call) (s : Store) :
    (call.step config s).1.note = .plain ∨
    ((call.step config s).1.note = call.note ∧ (call.step config s).2 = s) ∨
    (∃ request price, call.request? = some request ∧ request.execPrice config = .ok price ∧
      (call.step config s).1.note = .priced price) ∨
    (∃ request key order, call.Probes ∧ call.request? = some request ∧
      request.idempotencyKey = some key ∧ recordedUnder key s = some order ∧
      (call.step config s).1.note = .answered order) ∨
    ∃ order, (call.step config s).1.note = .placed order ∧
      order ∈ (call.step config s).2.orders ∧ Finished order := by
  cases call with
  | place request phase =>
    rcases @PlacePhase.step_note config request phase s with h | h | ⟨price, h⟩ | ⟨key, order, h⟩ | h
    · exact .inl h
    · exact .inr (.inl h)
    · exact .inr (.inr (.inl ⟨request, price, rfl, h⟩))
    · exact .inr (.inr (.inr (.inl ⟨request, key, order, h.1, rfl, h.2⟩)))
    · exact .inr (.inr (.inr (.inr h)))
  | cancel orderId phase => exact .inl rfl
  | sweep symbol price phase => exact .inl rfl
  | reset capital startedAt phase => exact .inl rfl

theorem Moves.keys (h : Moves s s') :
    s'.orders.filterMap OrderRow.idempotencyKey = s.orders.filterMap OrderRow.idempotencyKey := by
  obtain ⟨-, f, h_orders, h_f⟩ := h
  rw [h_orders, List.filterMap_map]
  exact List.filterMap_congr fun order h_order =>
    congrArg OrderTerms.idempotencyKey (h_f order h_order).1

theorem Keys.step (h : Keys config c) (i : ι) : Keys config (c.step config i) := by
  refine ⟨Call.step_keyed h.keyed _, ?_, ?_⟩
  · rcases @Call.step_orders _ config h.keyed (c.calls i) with
      h_moves | ⟨request, available, price, order, -, h_inserted, -⟩
    · exact h_moves.keys ▸ h.unique
    · have h_orders : (c.step config i).store.orders = c.store.orders ++ [order] :=
        congrArg Store.orders h_inserted.store
      rw [h_orders, List.filterMap_append, List.nodup_append]
      refine ⟨h.unique, ?_, ?_⟩
      · cases h_key : order.idempotencyKey with
        | none => simp [h_key]
        | some key => simp [h_key]
      · -- The index refused a key that is there.
        intro key h_old key' h_new h_eq
        obtain ⟨old, h_mem, h_key⟩ := List.mem_filterMap.mp h_old
        have h_order : order.idempotencyKey = (request.newOrder price).idempotencyKey := by
          rw [h_inserted.row_eq]
        obtain ⟨row, h_row, h_key'⟩ := List.mem_filterMap.mp h_new
        obtain rfl := List.mem_singleton.mp h_row
        rw [h_order] at h_key'
        exact h_inserted.fresh_key key' h_key' old h_mem (h_eq ▸ h_key)
  · intro j request price h_request h_note
    by_cases h_j : j = i
    · subst h_j
      rw [System.step_request] at h_request
      rw [System.step_self] at h_note
      rcases @Call.step_note config (c.calls j) c.store with
        h_plain | ⟨h_same, -⟩ | ⟨request', price', h_request', h_price, h_priced⟩ |
          ⟨_, _, _, _, _, _, _, h_answered⟩ | ⟨_, h_placed, _⟩
      · rw [h_plain] at h_note
        cases h_note
      · exact h.priced j request price h_request (h_same ▸ h_note)
      · rw [h_priced] at h_note
        cases h_note
        cases h_request.symm.trans h_request'
        exact h_price
      · rw [h_answered] at h_note
        cases h_note
      · rw [h_placed] at h_note
        cases h_note
    · rw [System.step_request] at h_request
      rw [System.step_other h_j] at h_note
      exact h.priced j request price h_request h_note

omit [DecidableEq ι] in
theorem Keys.oneOrder (h : Keys config c) : OneOrder c := by
  intro key
  have h_nodup : ((c.store.orders.filter fun order => order.idempotencyKey = some key).filterMap
      OrderRow.idempotencyKey).Nodup := h.unique.sublist (List.filter_sublist.filterMap _)
  match h_list : c.store.orders.filter fun order => order.idempotencyKey = some key with
  | [] =>
    rw [h_list]
    exact Nat.zero_le 1
  | [_] =>
    rw [h_list]
    exact le_rfl
  | a :: b :: rest =>
    rw [h_list] at h_nodup
    have h_mem : ∀ order ∈ a :: b :: rest, order.idempotencyKey = some key := by
      intro order h_order
      rw [← h_list] at h_order
      exact of_decide_eq_true (List.mem_filter.mp h_order).2
    rw [List.filterMap_cons, h_mem a (by simp), List.filterMap_cons, h_mem b (by simp)] at h_nodup
    simp at h_nodup

/-! ## What calls are answered with -/

/-- The orders were recorded for calls, and what is known of a call is so. -/
structure Answers (config : AccountingConfig) (c : System ι) : Prop where
  keys : Keys config c
  same : SameIntents c
  recorded : ∀ order ∈ c.store.orders, ∀ key ∈ order.idempotencyKey, ∃ i request,
    (c.calls i).request? = some request ∧ request.idempotencyKey = some key ∧
      Records config request order
  placed : ∀ i order, (c.calls i).note = .placed order →
    ∃ row ∈ c.store.orders, row.id = order.id ∧ Finished row
  intent : ∀ i request order, (c.calls i).request? = some request →
    (c.calls i).note = .answered order → Records config request order
  finished : ∀ i order, (c.calls i).note = .answered order → order.orderType = .market →
    Finished order

/-- An order that is there after a statement was there before, or was inserted for the call. -/
theorem Answers.step_recorded (h : Answers config c) (i : ι) :
    ∀ order ∈ (c.step config i).store.orders, ∀ key ∈ order.idempotencyKey, ∃ j request,
      ((c.step config i).calls j).request? = some request ∧ request.idempotencyKey = some key ∧
        Records config request order := by
  intro order h_order key h_key
  have h_old : ∀ old ∈ c.store.orders, termsOf order = termsOf old → ∃ j request,
      ((c.step config i).calls j).request? = some request ∧ request.idempotencyKey = some key ∧
        Records config request order := by
    intro old h_old h_terms
    have h_old_key : old.idempotencyKey = some key :=
      (congrArg OrderTerms.idempotencyKey h_terms).symm.trans h_key
    obtain ⟨j, request, h_request, h_request_key, h_records⟩ := h.recorded old h_old key h_old_key
    refine ⟨j, request, ?_, h_request_key, h_records.congr h_terms⟩
    rw [System.step_request]
    exact h_request
  rcases @Call.step_orders _ config h.keys.keyed (c.calls i) with
    ⟨-, f, h_orders, h_f⟩ | ⟨request, available, price, row, h_call, h_inserted, -⟩
  · have h_mem : order ∈ c.store.orders.map f := h_orders ▸ h_order
    obtain ⟨old, h_mem_old, rfl⟩ := List.mem_map.mp h_mem
    exact h_old old h_mem_old (h_f old h_mem_old).1
  · have h_orders : (c.step config i).store.orders = c.store.orders ++ [row] :=
      congrArg Store.orders h_inserted.store
    rw [h_orders] at h_order
    rcases List.mem_append.mp h_order with h_mem_old | h_new
    · exact h_old order h_mem_old rfl
    · obtain rfl := List.mem_singleton.mp h_new
      have h_price : request.execPrice config = .ok price := by
        refine h.keys.priced i request price ?_ ?_
        · rw [h_call]
          rfl
        · rw [h_call]
          rfl
      refine ⟨i, request, ?_, ?_, .of_inserted h_price h_inserted⟩
      · rw [System.step_request, h_call]
        rfl
      · rw [← h_key, h_inserted.row_eq]
        rfl

theorem Answers.step_finished (h : Answers config c) (i : ι) {orderId : ℕ}
    (h_row : ∃ row ∈ c.store.orders, row.id = orderId ∧ Finished row) :
    ∃ row ∈ (c.step config i).store.orders, row.id = orderId ∧ Finished row := by
  obtain ⟨row, h_mem, rfl, h_finished⟩ := h_row
  rcases @Call.step_orders _ config h.keys.keyed (c.calls i) with
    ⟨-, f, h_orders, h_f⟩ | ⟨_, _, _, new, -, h_inserted, -⟩
  · obtain ⟨h_terms, h_state, -, -⟩ := h_f row h_mem
    refine ⟨f row, ?_, congrArg OrderTerms.id h_terms, ?_⟩
    · have h_map : f row ∈ c.store.orders.map f := List.mem_map_of_mem h_mem
      exact h_orders ▸ h_map
    · unfold Finished
      rw [h_state h_finished.isTerminal]
      exact h_finished
  · refine ⟨row, ?_, rfl, h_finished⟩
    have h_orders : (c.step config i).store.orders = c.store.orders ++ [new] :=
      congrArg Store.orders h_inserted.store
    rw [h_orders]
    exact List.mem_append_left _ h_mem

theorem Answers.step (h : Answers config c) (h_meets : FindsFinished c i) :
    Answers config (c.step config i) := by
  have h_cases := @Call.step_note config (c.calls i) c.store
  refine ⟨h.keys.step i, h.same.step i, h.step_recorded i, ?_, ?_, ?_⟩
  · intro j order h_note
    by_cases h_j : j = i
    · subst h_j
      rw [System.step_self] at h_note
      rcases h_cases with h_plain | ⟨h_same, -⟩ | ⟨_, _, _, _, h_priced⟩ |
        ⟨_, _, _, _, _, _, _, h_answered⟩ | ⟨row, h_placed, h_mem, h_finished⟩
      · rw [h_plain] at h_note
        cases h_note
      · exact h.step_finished j (h.placed j order (h_same ▸ h_note))
      · rw [h_priced] at h_note
        cases h_note
      · rw [h_answered] at h_note
        cases h_note
      · rw [h_placed] at h_note
        cases h_note
        exact ⟨order, h_mem, rfl, h_finished⟩
    · rw [System.step_other h_j] at h_note
      exact h.step_finished i (h.placed j order h_note)
  · intro j request order h_request h_note
    rw [System.step_request] at h_request
    by_cases h_j : j = i
    · subst h_j
      rw [System.step_self] at h_note
      rcases h_cases with h_plain | ⟨h_same, -⟩ | ⟨_, _, _, _, h_priced⟩ |
        ⟨request', key, row, _, h_request', h_key, h_row, h_answered⟩ | ⟨_, h_placed, _⟩
      · rw [h_plain] at h_note
        cases h_note
      · exact h.intent j request order h_request (h_same ▸ h_note)
      · rw [h_priced] at h_note
        cases h_note
      · rw [h_answered] at h_note
        cases h_note
        cases h_request.symm.trans h_request'
        -- The order was recorded for a call of the same key, and so of the same intent.
        have h_row_key : order.idempotencyKey = some key := by
          have h_found := List.find?_some h_row
          rw [decide_eq_true_eq] at h_found
          exact h_found
        obtain ⟨k, other, h_other, h_other_key, h_records⟩ :=
          h.recorded order (List.mem_of_find?_eq_some h_row) key h_row_key
        exact h_records.of_sameIntent (h.same k j other request key h_other h_request h_other_key h_key)
      · rw [h_placed] at h_note
        cases h_note
    · rw [System.step_other h_j] at h_note
      exact h.intent j request order h_request h_note
  · intro j order h_note h_market
    by_cases h_j : j = i
    · subst h_j
      rw [System.step_self] at h_note
      rcases h_cases with h_plain | ⟨h_same, -⟩ | ⟨_, _, _, _, h_priced⟩ |
        ⟨request, key, row, h_probes, h_request, h_key, h_row, h_answered⟩ | ⟨_, h_placed, _⟩
      · rw [h_plain] at h_note
        cases h_note
      · exact h.finished j order (h_same ▸ h_note) h_market
      · rw [h_priced] at h_note
        cases h_note
      · rw [h_answered] at h_note
        cases h_note
        obtain ⟨k, placed, h_placed, h_id⟩ :=
          h_meets h_probes request key order h_request h_key h_row h_market
        obtain ⟨stored, h_stored, h_stored_id, h_finished⟩ := h.placed k placed h_placed
        obtain rfl : stored = order := List.inj_on_of_nodup_map h.keys.keyed.nodup h_stored
          (List.mem_of_find?_eq_some h_row) (h_stored_id.trans h_id)
        exact h_finished
      · rw [h_placed] at h_note
        cases h_note
    · rw [System.step_other h_j] at h_note
      exact h.finished j order h_note h_market

theorem Reaches.invariant {Meets : System ι → ι → Prop} {I : System ι → Prop}
    (h_run : Reaches config Meets c c') (h_init : I c)
    (h_step : ∀ c i, I c → Meets c i → I (c.step config i)) : I c' := by
  induction h_run with
  | refl => exact h_init
  | step _ i h_meets ih => exact h_step _ i ih h_meets

/-- An account without orders and calls that have not begun. -/
structure Opening (c : System ι) : Prop where
  orders : c.store.orders = []
  fresh : ∀ i, (c.calls i).Fresh

theorem Call.Fresh.note {call : Call} (h : call.Fresh) : call.note = .plain := by
  cases call with
  | place request phase =>
    obtain rfl : phase = .readAccount := h
    rfl
  | cancel orderId phase => rfl
  | sweep symbol price phase => rfl
  | reset capital startedAt phase => rfl

omit [DecidableEq ι] in
theorem Opening.keys (h : Opening c) : Keys config c := by
  refine ⟨⟨?_, ?_⟩, ?_, fun i request price _ h_note => ?_⟩
  · rw [h.orders]
    exact List.nodup_nil
  · rw [h.orders]
    exact List.forall_mem_nil _
  · rw [h.orders]
    exact List.nodup_nil
  · rw [(h.fresh i).note] at h_note
    cases h_note

omit [DecidableEq ι] in
theorem Opening.answers (h : Opening c) (h_same : SameIntents c) : Answers config c := by
  have h_plain : ∀ {i note}, (c.calls i).note = note → note = .plain :=
    fun {i note} h_note => h_note.symm.trans (h.fresh i).note
  refine ⟨h.keys, h_same, ?_, ?_, ?_, ?_⟩
  · rw [h.orders]
    exact List.forall_mem_nil _
  · intro i order h_note
    cases h_plain h_note
  · intro i request order _ h_note
    cases h_plain h_note
  · intro i order h_note
    cases h_plain h_note

/-- A market order for one unit at a quote of a hundred. -/
def keyedBuy : Request where
  symbol := "BTC/USDT"
  side := .buy
  orderType := .market
  quantity := 1
  price := none
  idempotencyKey := some "k1"
  gates := fun _ _ => .ok ()
  measured := some 100

/-- The other side under the same key. -/
def keyedSell : Request := { keyedBuy with side := .sell, quantity := 2 }

/-- Two calls on an account with a capital of a thousand. -/
def twoCalls (first second : Request) : System Bool where
  store := .started 1000
  calls := fun later => .place (if later then second else first) .readAccount

theorem twoCalls_opening (first second : Request) : Opening (twoCalls first second) :=
  ⟨rfl, fun _ => rfl⟩

/-- The schedule in which the first call crashes when its order is accepted, and the second is
    answered. -/
def crashAndRetry : List Bool :=
  [false, false, false, false, false, true, true, true, true]

/-- The schedule in which the first call is through before the second begins. -/
def oneAfterTheOther : List Bool := List.replicate 14 false ++ List.replicate 4 true

theorem System.run_reaches {Meets : System ι → ι → Prop} (c : System ι) (schedule : List ι)
    (h : ∀ pre i post, schedule = pre ++ i :: post → Meets (c.run config pre) i) :
    Reaches config Meets c (c.run config schedule) := by
  induction schedule using List.reverseRecOn with
  | nil => exact .refl c
  | append_singleton schedule i ih =>
    have h_before := ih fun pre j post h_split => h pre j (post ++ [i]) (by simp [h_split])
    rw [System.run, List.foldl_append]
    exact h_before.step i (h schedule i [] rfl)

/-- What a call was answered with: the side, the quantity and the state of the order. -/
def Call.answer : Call → Option (OrderSide × ℚ × OrderState)
  | .place _ (.ended (.recorded order _)) => some (order.side, order.quantity, order.orderState)
  | _ => none

theorem crashAndRetry_answer : ∀ second ∈ [keyedBuy, keyedSell],
    (((twoCalls keyedBuy second).run defaultConfig crashAndRetry).calls true).answer
      = some (.buy, 1, .accepted) := by
  refine List.forall_mem_cons.mpr ⟨?_, List.forall_mem_singleton.mpr ?_⟩
  · decide +kernel
  · decide +kernel

theorem Call.answer_note {call : Call} {side : OrderSide} {quantity : ℚ} {state : OrderState}
    (h : call.answer = some (side, quantity, state)) :
    ∃ order, call.note = .answered order ∧ order.side = side ∧ order.orderState = state ∧
      ∃ request, call.request? = some request := by
  unfold Call.answer at h
  split at h
  · cases h
    exact ⟨_, rfl, rfl, rfl, _, rfl⟩
  · cases h

theorem twoCalls_sameIntents (request : Request) : SameIntents (twoCalls request request) := by
  have h_request : ∀ i, ((twoCalls request request).calls i).request? = some request := by
    intro i
    cases i with
    | true => rfl
    | false => rfl
  intro i j first second key h_first h_second _ _
  cases (h_request i).symm.trans h_first
  cases (h_request j).symm.trans h_second
  exact ⟨rfl, rfl, rfl, rfl, fun _ => rfl⟩

/-- The order that a call has seen through. -/
def Call.placedId (call : Call) : Option ℕ :=
  match call.note with
  | .placed order => some order.id
  | _ => none

instance (call : Call) : Decidable call.Probes :=
  match call with
  | .place _ (.probe _ _) => .isTrue trivial
  | .place _ .reprobe => .isTrue trivial
  | .place _ .readAccount | .place _ (.readPositions _) | .place _ (.insert _ _)
  | .place _ (.answer _) | .place _ (.lockRead ..) | .place _ (.lockMoney ..)
  | .place _ (.lockEvent ..) | .place _ (.accept ..) | .place _ (.reject _) | .place _ (.filling _)
  | .place _ (.ended _) | .cancel _ _ | .sweep .. | .reset .. => .isFalse id

/-- The system of the retry that comes in time, after some statements. -/
def retrySystem (k : ℕ) : System Bool :=
  (twoCalls keyedBuy keyedBuy).run defaultConfig (oneAfterTheOther.take k)

/-- The first call probes before there is an order, and the second when it is filled. -/
theorem oneAfterTheOther_finds (pre : List Bool) (i : Bool) (post : List Bool)
    (h : oneAfterTheOther = pre ++ i :: post) :
    FindsFinished ((twoCalls keyedBuy keyedBuy).run defaultConfig pre) i := by
  have h_quiet : ∀ k < 18, k ≠ 2 → k ≠ 16 →
      ¬ ((retrySystem k).calls (oneAfterTheOther.getD k false)).Probes := by decide +kernel
  have h_none : recordedUnder "k1" (retrySystem 2).store = none := by decide +kernel
  have h_placed : ((retrySystem 16).calls false).placedId = some 0 := by decide +kernel
  have h_recorded : (recordedUnder "k1" (retrySystem 16).store).map OrderRow.id = some 0 := by
    decide +kernel
  have h_length : pre.length < 18 := by
    have h_total := congrArg List.length h
    rw [List.length_append, List.length_cons] at h_total
    have h_eighteen : oneAfterTheOther.length = 18 := rfl
    omega
  have h_pre : pre = oneAfterTheOther.take pre.length := by rw [h, List.take_left]
  have h_i : oneAfterTheOther.getD pre.length false = i := by
    rw [h, List.getD_eq_getElem?_getD, List.getElem?_append_right le_rfl, Nat.sub_self]
    rfl
  intro h_probes request key order h_request h_key h_order h_market
  rw [h_pre] at h_probes h_order ⊢
  rw [System.run_request] at h_request
  obtain rfl : keyedBuy = request := by
    cases i with
    | true => exact Option.some.inj h_request
    | false => exact Option.some.inj h_request
  cases h_key
  by_cases h_two : pre.length = 2
  · rw [h_two] at h_order
    cases h_none.symm.trans h_order
  · by_cases h_sixteen : pre.length = 16
    · rw [h_sixteen] at h_order ⊢
      rw [show recordedUnder "k1" (retrySystem 16).store = some order from h_order] at h_recorded
      unfold Call.placedId at h_placed
      split at h_placed
      · rename_i placed h_note
        exact ⟨false, placed, h_note, (Option.some.inj h_placed).trans (Option.some.inj h_recorded).symm⟩
      · cases h_placed
    · refine absurd ?_ (h_quiet pre.length h_length h_two h_sixteen)
      rw [h_i]
      exact h_probes

end VyomQuant.Paper.Service
