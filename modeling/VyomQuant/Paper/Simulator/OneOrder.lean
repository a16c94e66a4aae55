/-
  VyomQuant.Paper.Simulator.OneOrder

  What one `submit_intent` leaves behind when statements of it fail and its attempt is run
  again.

  An attempt inserts its order at `CREATED` and moves it in a second statement.  When the
  second fails, the attempts after it start from a store that already holds the order: with
  a key they find it and answer with it, and without one they insert another.  `HalfMade` is
  that, read off the failures, and `one_order_iff` that nothing else goes wrong.
-/

import VyomQuant.Paper.Simulator.Submit

namespace VyomQuant.Paper

open Decimal Except Program
open Accounting (Instant OrderSide AccountingConfig)

/-! ## The order an attempt makes -/

namespace Assessment

/-- The state of the order's first transition. -/
def target : Assessment → OrderState
  | .rejected .. => .rejected
  | .accepted .. => .accepted

/-- The reason that is stored beside it. -/
def reason : Assessment → Option RejectionReason
  | .rejected why _ _ => some why
  | .accepted .. => none

/-- The reference the order is inserted with. -/
def reference : Assessment → Option ℚ
  | .rejected _ ref _ => ref
  | .accepted ref _ => some ref

/-- What is left of an attempt once its order has moved. -/
def finish (config : SessionConfig) (submission : Submission) :
    Assessment → OrderRow → Repo SubmitOutcome
  | .rejected reason referencePrice requiredFunds, order =>
    return {
      order, rejectionReason := some reason
      fingerprint := orderFingerprint submission.intent, referencePrice, requiredFunds }
  | .accepted ref required, order => do
    let outcome : SubmitOutcome := {
      order, fingerprint := orderFingerprint submission.intent
      referencePrice := some ref, requiredFunds := some required }
    if submission.intent.orderType = .recognised .limit then
      let (amount, account, event) ← lockForOrder config required
        (submission.filledAt.or (eventInstant submission.latestEvent))
      return { outcome with locked := some amount, account := some account, balanceEvent := some event }
    else
      return outcome

/-- What stands between the assessment and the insert. -/
def Admitted (submission : Submission) (session : SessionRow) : Assessment → Prop
  | .rejected .. => unrepresentableOrderConstraint submission.intent ≠ true
  | .accepted .. => submission.intent.orderType = .recognised .market → session.feedState = .healthy

/-- The feed gate reads the session for a market order that is accepted. -/
def gateReads (submission : Submission) : Assessment → ℕ
  | .rejected .. => 0
  | .accepted .. => if submission.intent.orderType = .recognised .market then 1 else 0

end Assessment

variable {config : SessionConfig} {submission : Submission} {key : Option String} {s t : Store}

/-- An attempt on `s` inserts an order, unless a statement of it fails. -/
structure Makes (config : SessionConfig) (submission : Submission) (key : Option String) (s : Store)
    where
  assessment : Assessment
  order : NewOrder
  row : OrderRow
  store : Store
  unrecorded : ∀ k ∈ key, (s.orders.find? fun order => order.idempotencyKey = some k) = none
  assessed : assess config submission s.account.availableBalance = .ok assessment
  admitted : assessment.Admitted submission s.session
  order_eq : newOrder submission.intent key assessment.reference = .ok order
  inserted : insertOrderRow order s = .ok (row, store)

/-- The probe reads the order of a key. -/
def keyReads (key : Option String) : ℕ := if key.isSome then 1 else 0

namespace Makes

/-- The statements an attempt issues before its insert: the account, the key, the session. -/
def reads (h : Makes config submission key s) : ℕ :=
  h.assessment.gateReads submission + keyReads key + 1

/-- The insert, the move and the rest of an attempt. -/
def writes (h : Makes config submission key s) : Repo SubmitOutcome :=
  (perform (.insertOrder h.order)).bind fun created : OrderRow =>
    (updateOrder created.id h.assessment.target .created h.assessment.reason).bind
      (h.assessment.finish config submission)

end Makes

theorem insertAndMove_bind {intent : OrderIntent} {reference : Option ℚ} {target : OrderState}
    {reason : Option RejectionReason} {order : NewOrder} {α : Type} (f : OrderRow → Repo α)
    (h : newOrder intent key reference = .ok order) :
    (insertAndMove intent key reference target reason).bind f
      = (perform (.insertOrder order)).bind fun created : OrderRow =>
          (updateOrder created.id target .created reason).bind f := by
  unfold insertAndMove
  rw [h]
  exact Program.bind_assoc (perform (.insertOrder order))
    (fun created : OrderRow => updateOrder created.id target .created reason) f

theorem Makes.reads_rest (h : Makes config submission key s) :
    Reads handle s (h.assessment.gateReads submission)
      ((lift (assess config submission s.account.availableBalance)).bind fun
        | .rejected reason ref required => reject submission.intent key reason ref required
        | .accepted ref required => (feedGate submission.intent).bind fun _ =>
            acceptOrder config submission key ref required) h.writes := by
  have h_order := h.order_eq
  have h_admitted := h.admitted
  rw [h.assessed]
  unfold Makes.writes
  cases h_assessment : h.assessment with
  | rejected reason ref required =>
    rw [h_assessment] at h_order h_admitted
    have h_reject : reject submission.intent key reason ref required
        = (insertAndMove submission.intent key ref .rejected (some reason)).bind
            ((Assessment.rejected reason ref required).finish config submission) := by
      unfold reject Program.refuseIf
      rw [if_neg h_admitted, bind_eq_bind, ret_bind]
      rfl
    have h_insert : (insertAndMove submission.intent key ref .rejected (some reason)).bind
        ((Assessment.rejected reason ref required).finish config submission) = _ :=
      insertAndMove_bind _ h_order
    show Reads handle s 0 (reject submission.intent key reason ref required) _
    rw [h_reject, h_insert]
    exact .done _
  | accepted ref required =>
    rw [h_assessment] at h_order h_admitted
    have h_accept : acceptOrder config submission key ref required
        = (perform (.insertOrder h.order)).bind fun created : OrderRow =>
            (updateOrder created.id .accepted .created none).bind
              ((Assessment.accepted ref required).finish config submission) :=
      insertAndMove_bind _ h_order
    show Reads handle s (if _ then 1 else 0) ((feedGate submission.intent).bind fun _ => _) _
    unfold feedGate
    split
    · rename_i h_market
      -- The gate is one read, and lets a healthy feed through.
      have h_gate : admitExecution s.session = .ok () := by
        unfold admitExecution Except.refuseIf
        rw [if_neg (not_not.mpr (h_admitted h_market))]
      rw [bind_eq_bind, Program.bind_assoc]
      refine .read RepoOp.readSession s.session rfl ?_
      rw [h_gate]
      show Reads handle s 0 (acceptOrder config submission key ref required) _
      rw [h_accept]
      exact .done _
    · show Reads handle s 0 (acceptOrder config submission key ref required) _
      rw [h_accept]
      exact .done _

theorem Makes.reads_attempt (h : Makes config submission key s) :
    Reads handle s h.reads (submitAttempt config submission key) h.writes := by
  refine .read RepoOp.lockAccountForUpdate s.account rfl ?_
  cases key with
  | none => exact h.reads_rest
  | some k =>
    have h_probe : handle (.probeIdempotencyKey k) s = (.ok none, s) := by
      rw [handle_eq_ok, ← h.unrecorded k rfl]
      rfl
    apply Reads.read (RepoOp.probeIdempotencyKey k) none h_probe
    exact h.reads_rest

/-! ## Where an attempt breaks off -/

namespace Makes

theorem row_inserted (h : Makes config submission key s) : OrderInserted h.order s h.row h.store :=
  insertOrderRow_eq_ok h.inserted

def moved (h : Makes config submission key s) : OrderRow :=
  OrderInserted.moved h.row h.assessment.target h.assessment.reason

def movedStore (h : Makes config submission key s) : Store :=
  { h.store with orders := s.orders ++ [h.moved] }

theorem handle_insert (h : Makes config submission key s) :
    handle (.insertOrder h.order) s = (.ok h.row, h.store) :=
  handle_of_ok h.inserted

theorem target_allowed (assessment : Assessment) :
    OrderState.created.canTransition assessment.target := by
  cases assessment with
  | rejected _ _ _ => exact (by decide : OrderState.created.canTransition .rejected)
  | accepted _ _ => exact (by decide : OrderState.created.canTransition .accepted)

theorem handle_move (h : Makes config submission key s) (h_keyed : OrdersKeyed s) :
    handle (.updateOrder h.row.id h.assessment.target .created h.assessment.reason) h.store
      = (.ok h.moved, h.movedStore) :=
  handle_of_ok (h.row_inserted.updateOrderRow_eq h_keyed (target_allowed h.assessment))

theorem runWith_attempt (h : Makes config submission key s) (h_keyed : OrdersKeyed s)
    (oracle : ℕ → Option PaperError) (n : ℕ) :
    (submitAttempt config submission key).runWith handle oracle n s
      = match firstFailure oracle n (h.reads + 1) with
        | some (m, e) => (.error e, m, s)
        | none => match oracle (n + h.reads + 1) with
          | some e => (.error e, n + h.reads + 2, h.store)
          | none => (h.assessment.finish config submission h.moved).runWith handle oracle
              (n + h.reads + 2) h.movedStore := by
  rw [h.reads_attempt.runWith n, firstFailure_succ]
  cases firstFailure oracle n h.reads with
  | some failure => rfl
  | none =>
    show h.writes.runWith handle oracle (n + h.reads) s = _
    unfold Makes.writes
    rw [runWith_perform_bind]
    cases oracle (n + h.reads) with
    | some e => rfl
    | none =>
      simp only [h.handle_insert]
      have h_update : updateOrder h.row.id h.assessment.target .created h.assessment.reason
          = perform (RepoOp.updateOrder h.row.id h.assessment.target .created h.assessment.reason) := by
        unfold updateOrder Program.refuseIf
        rw [if_neg (not_not.mpr (target_allowed h.assessment))]
        rfl
      rw [h_update, runWith_perform_bind]
      cases oracle (n + h.reads + 1) with
      | some e => rfl
      | none =>
        simp only [h.handle_move h_keyed]
        rfl

end Makes

/-! ## The rest of an attempt -/

theorem handle_bumpVersion_frame {version : ℕ} {payload : AccountUpdate} {row : AccountRow}
    (h : handle (.bumpVersion version payload) s = (.ok row, t)) :
    t.orders = s.orders ∧ t.balanceEvents = s.balanceEvents := by
  have h_ran := handle_eq_ok.mp h
  simp only [statement, bumpVersionRow, bind_eq_ok, pure_eq_ok, Prod.mk.injEq] at h_ran
  obtain ⟨_, _, _, _, _, _, _, _, _, _, _, _, _, rfl⟩ := h_ran
  exact ⟨rfl, rfl⟩

theorem handle_insertBalanceEvent_frame {event row : BalanceEventRow}
    (h : handle (.insertBalanceEvent event) s = (.ok row, t)) :
    t.orders = s.orders ∧ t.balanceEvents = s.balanceEvents ++ [row] ∧ row.cause = event.cause ∧
      numeric event.availableDelta = .ok row.availableDelta ∧
      numeric event.lockedDelta = .ok row.lockedDelta := by
  have h_ran := handle_eq_ok.mp h
  simp only [statement, insertBalanceEventRow, bind_eq_ok, pure_eq_ok, Prod.mk.injEq] at h_ran
  obtain ⟨_, h_available, _, h_locked, _, _, _, _, _, _, _, _, rfl, rfl⟩ := h_ran
  exact ⟨rfl, rfl, rfl, h_available, h_locked⟩

theorem handle_error_same {op : RepoOp} {e : PaperError} (h : handle op s = (.error e, t)) :
    t = s := by
  rcases handle_cases op s with ⟨answer, s', _, h_ok⟩ | ⟨e', _, h_error⟩
  · rw [h] at h_ok
    cases h_ok
  · rw [h] at h_error
    exact (Prod.ext_iff.mp h_error).2

structure LockRecorded (required : ℚ) (s t : Store) (event : BalanceEventRow) : Prop where
  ledger : t.balanceEvents = s.balanceEvents ++ [event]
  cause : event.cause = .orderLock
  locked : event.lockedDelta = required
  available : event.availableDelta = -required

/-- A lock leaves the orders, and when it returns it has written one ledger row. -/
theorem lockAttempt_ensures {required : ℚ} {occurredAt : Option Instant}
    (h_required : OnGrid config.minorUnitExponent required)
    (h_money : config.accounting.money required = .ok required)
    (h_orders : t.orders = s.orders) (h_events : t.balanceEvents = s.balanceEvents) :
    (lockAttempt config required occurredAt).Ensures handle Retryable
      (fun result u => u.orders = s.orders ∧ LockRecorded required s u result.2.2)
      (fun e u => if isRetryable e then u.orders = s.orders ∧ u.balanceEvents = s.balanceEvents
        else u.orders = s.orders) t := by
  have h_kept : ∀ e, if isRetryable e then t.orders = s.orders ∧ t.balanceEvents = s.balanceEvents
      else t.orders = s.orders := by
    intro e
    split
    · exact ⟨h_orders, h_events⟩
    · exact h_orders
  apply Ensures.bind
  apply Ensures.perform
  case h_error => exact fun e u h => by cases h
  case h_fault => exact fun e _ => h_kept e
  case h_ok =>
    intro account u h_account
    cases h_account
    refine Ensures.bind (Ensures.lift (fun locked _ => ?_) fun e _ => h_kept e)
    refine Ensures.bind (Ensures.lift (fun amount h_amount => ?_) fun e _ => h_kept e)
    obtain rfl : required = amount := ok.inj (h_money.symm.trans (ofAccounting_eq_ok.mp h_amount))
    apply Ensures.bind
    apply Ensures.perform
    case h_error => exact fun e u h => handle_error_same h ▸ h_kept e
    case h_fault => exact fun e _ => h_kept e
    case h_ok =>
      intro bumped u h_bump
      obtain ⟨h_u_orders, h_u_events⟩ := handle_bumpVersion_frame h_bump
      rw [h_orders] at h_u_orders
      rw [h_events] at h_u_events
      -- Past the account update no failure is retryable.
      have h_past : ∀ e, if isRetryable (noRetryPastTheMoney e) then
          u.orders = s.orders ∧ u.balanceEvents = s.balanceEvents else u.orders = s.orders := by
        intro e
        split
        · exact ⟨h_u_orders, h_u_events⟩
        · exact h_u_orders
      apply Ensures.bind
      apply Ensures.tryCatch
      apply Ensures.perform
      case h_error => exact fun e w h => handle_error_same h ▸ h_past e
      case h_fault => exact fun e _ => h_past e
      case h_ok =>
        intro event w h_event
        obtain ⟨h_w_orders, h_w_events, h_cause, h_available, h_locked⟩ :=
          handle_insertBalanceEvent_frame h_event
        refine ⟨h_w_orders.trans h_u_orders, ?_⟩
        exact {
          ledger := by rw [h_w_events, h_u_events]
          cause := h_cause
          locked := numeric_eq_of_onGrid h_locked config.minorUnitExponent_le h_required
          available := numeric_eq_of_onGrid h_available config.minorUnitExponent_le h_required.neg }

theorem lockForOrder_ensures {required : ℚ} {occurredAt : Option Instant}
    (h_required : OnGrid config.minorUnitExponent required)
    (h_money : config.accounting.money required = .ok required) (s : Store) :
    (lockForOrder config required occurredAt).Ensures handle Retryable
      (fun result u => u.orders = s.orders ∧ LockRecorded required s u result.2.2)
      (fun e u => ¬ Retryable e ∧ u.orders = s.orders) s := by
  apply Ensures.tryCatch
  have h_retried : (withRetries .submitIntentLock (lockAttempt config required occurredAt)).Ensures
      handle Retryable (fun result u => u.orders = s.orders ∧ LockRecorded required s u result.2.2)
      (fun e u => ¬ Retryable e ∧ u.orders = s.orders) s := by
    refine Ensures.retrying (fun t : Store => t.orders = s.orders ∧ t.balanceEvents = s.balanceEvents)
      (fun t h => ?_) (fun t h => ⟨by simp [Retryable, isRetryable], h.1⟩) retryAttempts ⟨rfl, rfl⟩
    refine (lockAttempt_ensures h_required h_money h.1 h.2).mono (fun _ _ h_ok => h_ok)
      fun e u h_e => ?_
    cases h_retry : isRetryable e with
    | true =>
      rw [h_retry] at h_e
      exact h_e
    | false =>
      rw [h_retry] at h_e
      exact ⟨by simp [Retryable, h_retry], h_e⟩
  refine h_retried.mono (fun _ _ h => h) fun e u h => ?_
  split
  · exact ⟨by simp [Retryable, isRetryable], h.2⟩
  · exact h

/-! ## The order that is returned -/

/-- How `submit_intent` leaves the order it returns. -/
inductive OrderSettled (submission : Submission) (s t : Store) (outcome : SubmitOutcome) : Prop
  | rejected {reason : RejectionReason} (h_state : outcome.order.orderState = .rejected)
      (h_stored : outcome.order.rejectionReason = some reason)
      (h_reason : outcome.rejectionReason = some reason)
  | resting {required : ℚ} {event : BalanceEventRow}
      (h_type : submission.intent.orderType = .recognised .limit)
      (h_state : outcome.order.orderState = .accepted)
      (h_required : outcome.requiredFunds = some required) (h_lock : LockRecorded required s t event)
  | market (h_type : submission.intent.orderType = .recognised .market)
      (h_state : outcome.order.orderState = .accepted ∨ outcome.order.orderState = .partiallyFilled ∨
        outcome.order.orderState = .filled)
  | recorded {key : String} (h_duplicate : outcome.duplicate = true)
      (h_key : submission.intent.idempotencyKey = some key) (h_mem : outcome.order ∈ s.orders)
      (h_under : outcome.order.idempotencyKey = some key)

/-- How the attempts of `submit_intent` leave it: a market order is still to be filled. -/
inductive OrderPlaced (submission : Submission) (s t : Store) (outcome : SubmitOutcome) : Prop
  | settled (h_settled : OrderSettled submission s t outcome)
      (h_not : outcome.accepted → submission.intent.orderType ≠ .recognised .market)
  | pending (h_keyed : OrdersKeyed t) (h_type : submission.intent.orderType = .recognised .market)
      (h_mem : outcome.order ∈ t.orders) (h_state : outcome.order.orderState = .accepted)

/-- The funds of an accepted order are the session's own figure, and it is of a type the
    session knows. -/
theorem assess_accepted_required {availableBalance ref required : ℚ}
    (h : assess config submission availableBalance = .ok (.accepted ref required)) :
    config.accounting.money required = .ok required ∧
      OnGrid config.minorUnitExponent required ∧
      ∃ orderType : OrderType, submission.intent.orderType = .recognised orderType := by
  unfold assess at h
  split at h
  · cases h
  · rename_i h_valid
    obtain ⟨orderType, _, h_type⟩ := (staticRejectionReason_eq_none.mp h_valid).orderType_mem
    simp only [bind_eq_ok, ofAccounting_eq_ok] at h
    obtain ⟨side, _, found, _, h⟩ := h
    cases found with
    | none => cases h
    | some price =>
      simp only at h
      split at h
      · cases h
      · simp only [bind_eq_ok, ofAccounting_eq_ok] at h
        obtain ⟨funds, h_funds, h⟩ := h
        split at h
        · cases h
        · cases h
          exact ⟨AccountingConfig.quantizeAt_idem h_funds, AccountingConfig.quantizeAt_onGrid h_funds,
            orderType, h_type⟩

theorem Makes.moved_mem (h : Makes config submission key s) : h.moved ∈ h.movedStore.orders :=
  List.mem_append_right _ (List.mem_singleton_self _)

theorem Makes.length_store (h : Makes config submission key s) :
    h.store.orders.length = s.orders.length + 1 := by
  rw [h.row_inserted.store]
  simp

theorem Makes.length_movedStore (h : Makes config submission key s) :
    h.movedStore.orders.length = s.orders.length + 1 := by
  simp [movedStore]

theorem Makes.keyed_movedStore (h : Makes config submission key s) (h_keyed : OrdersKeyed s) :
    OrdersKeyed h.movedStore := by
  refine (h.row_inserted.keyed h_keyed).congr ?_ le_rfl
  rw [h.row_inserted.store]
  simp only [movedStore, List.map_append, List.map_cons, List.map_nil]
  rfl

/-- What is left of an attempt adds no order, and returns the order settled. -/
theorem Makes.finish_ensures (h : Makes config submission key s) (h_keyed : OrdersKeyed s) :
    (h.assessment.finish config submission h.moved).Ensures handle Retryable
      (fun outcome t => t.orders.length = s.orders.length + 1 ∧ OrderPlaced submission s t outcome)
      (fun e t => ¬ Retryable e ∧ t.orders.length = s.orders.length + 1) h.movedStore := by
  have h_assessed := h.assessed
  have h_state : h.moved.orderState = h.assessment.target := rfl
  have h_reason : h.moved.rejectionReason = h.assessment.reason := rfl
  cases h_assessment : h.assessment with
  | rejected reason ref required =>
    rw [h_assessment] at h_state h_reason
    exact ⟨h.length_movedStore, .settled (.rejected h_state h_reason rfl)
      fun h_accepted => nomatch h_accepted.2⟩
  | accepted ref required =>
    rw [h_assessment] at h_state h_reason h_assessed
    obtain ⟨h_money, h_grid, orderType, h_type⟩ := assess_accepted_required h_assessed
    unfold Assessment.finish
    cases orderType with
    | limit =>
      dsimp only
      rw [if_pos h_type]
      refine Ensures.bind ((lockForOrder_ensures h_grid h_money h.movedStore).mono
        (fun result t h_locked => ?_) fun e t h_e => ?_)
      · obtain ⟨h_orders, h_lock⟩ := h_locked
        have h_events : h.movedStore.balanceEvents = s.balanceEvents := by
          simp only [movedStore, h.row_inserted.store]
        have h_recorded : LockRecorded required s t result.2.2 :=
          { h_lock with ledger := by rw [h_lock.ledger, h_events] }
        refine ⟨by rw [h_orders, h.length_movedStore],
          .settled (.resting h_type h_state rfl h_recorded) ?_⟩
        intro _ h_market
        rw [h_type] at h_market
        cases h_market
      · exact ⟨h_e.1, by rw [h_e.2, h.length_movedStore]⟩
    | market =>
      dsimp only
      rw [if_neg (by rw [h_type]; decide)]
      exact ⟨h.length_movedStore, .pending (h.keyed_movedStore h_keyed) h_type h.moved_mem h_state⟩

/-! ## An attempt that makes no order -/

theorem insertAndMove_refused {intent : OrderIntent} {reference : Option ℚ} {target : OrderState}
    {reason : Option RejectionReason} {R : SubmitOutcome → Store → Prop}
    (f : OrderRow → Repo SubmitOutcome)
    (h : ∀ order row t, newOrder intent key reference = .ok order →
      insertOrderRow order s ≠ .ok (row, t)) :
    ((insertAndMove intent key reference target reason).bind f).Ensures handle Retryable R
      (fun _ t => t = s) s := by
  cases h_order : newOrder intent key reference with
  | error e =>
    unfold insertAndMove
    rw [h_order]
    exact rfl
  | ok order =>
    rw [insertAndMove_bind f h_order]
    apply Ensures.bind
    apply Ensures.perform
    case h_ok => exact fun row t h_handle => absurd (handle_eq_ok.mp h_handle) (h order row t h_order)
    case h_error => exact fun e t h_handle => handle_error_same h_handle
    case h_fault => exact fun e _ => rfl

/-- An attempt that makes no order answers with a recorded one, or raises, and changes
    nothing. -/
theorem submitAttempt_makes_nothing (h_none : IsEmpty (Makes config submission key s))
    (h_key : key = submission.intent.idempotencyKey) :
    (submitAttempt config submission key).Ensures handle Retryable
      (fun outcome t => t = s ∧ outcome.duplicate = true ∧ OrderSettled submission s t outcome)
      (fun _ t => t = s) s := by
  have h_rest (h_unrecorded : ∀ k ∈ key,
        (s.orders.find? fun order => order.idempotencyKey = some k) = none) :
      ((lift (assess config submission s.account.availableBalance)).bind fun
        | .rejected reason ref required => reject submission.intent key reason ref required
        | .accepted ref required => (feedGate submission.intent).bind fun _ =>
            acceptOrder config submission key ref required).Ensures handle Retryable
        (fun outcome t => t = s ∧ outcome.duplicate = true ∧ OrderSettled submission s t outcome)
        (fun _ t => t = s) s := by
    refine Ensures.bind (Ensures.lift (fun assessment h_assessed => ?_) fun _ _ => rfl)
    -- An insert that would be let through would be an order that is made.
    have h_insert (h_admitted : assessment.Admitted submission s.session) (order : NewOrder)
        (row : OrderRow) (t : Store)
        (h_order : newOrder submission.intent key assessment.reference = .ok order) :
        insertOrderRow order s ≠ .ok (row, t) := fun h_inserted =>
      h_none.false ⟨assessment, order, row, t, h_unrecorded, h_assessed, h_admitted, h_order,
        h_inserted⟩
    cases assessment with
    | rejected reason ref required =>
      refine Ensures.bind (Ensures.refuseIf (fun h_storable => ?_) fun _ => rfl)
      exact insertAndMove_refused _ (h_insert h_storable)
    | accepted ref required =>
      show ((feedGate submission.intent).bind _).Ensures _ _ _ _ s
      unfold feedGate
      split
      · refine Ensures.bind (Ensures.bind (Ensures.perform ?_ ?_ ?_))
        case refine_2 => exact fun e t h_handle => handle_error_same h_handle
        case refine_3 => exact fun e _ => rfl
        case refine_1 =>
          intro session t h_handle
          cases h_handle
          refine Ensures.lift (fun _ h_gate => ?_) fun _ _ => rfl
          rw [admitExecution, Except.refuseIf_eq_ok, not_not] at h_gate
          exact insertAndMove_refused _ (h_insert fun _ => h_gate)
      · rename_i h_market
        exact insertAndMove_refused _ (h_insert fun h_type => absurd h_type h_market)
  apply Ensures.bind
  apply Ensures.perform
  case h_error => exact fun e t h_handle => handle_error_same h_handle
  case h_fault => exact fun e _ => rfl
  case h_ok =>
    intro account t h_handle
    cases h_handle
    cases key with
    | none => exact h_rest (by simp)
    | some k =>
      apply Ensures.bind
      have h_probe : handle (.probeIdempotencyKey k) s
          = (.ok (s.orders.find? fun order => order.idempotencyKey = some k), s) := rfl
      refine ⟨?_, fun e _ => rfl⟩
      rw [h_probe]
      cases h_found : s.orders.find? fun order => order.idempotencyKey = some k with
      | none => exact h_rest fun k' h_k' => by cases h_k'; exact h_found
      | some existing =>
        have h_mem := List.mem_of_find?_eq_some h_found
        have h_under := List.find?_some h_found
        refine Ensures.lift (fun outcome h_outcome => ?_) fun _ _ => rfl
        simp only [recordedOutcome, bind_eq_ok, pure_eq_ok, Except.refuseIf_eq_ok] at h_outcome
        obtain ⟨_, _, rfl⟩ := h_outcome
        exact ⟨rfl, rfl, .recorded rfl h_key.symm h_mem (by simpa using h_under)⟩

/-! ## The attempts after one that broke off -/

namespace Makes

/-- The statements a later attempt needs to meet the half-made order: the probe that finds
    it, or the insert of another. -/
def laterSteps (h : Makes config submission key s) : ℕ :=
  if key.isSome then 2 else h.reads + 1

theorem again (h : Makes config submission none s) :
    ∃ h' : Makes config submission none h.store, h'.reads = h.reads := by
  have h_store := h.row_inserted.store
  have h_account : h.store.account = s.account := by rw [h_store]
  have h_session : h.store.session = s.session := by rw [h_store]
  have h_key : h.order.idempotencyKey = none := by
    have h_order := h.order_eq
    simp only [newOrder, bind_eq_ok, pure_eq_ok] at h_order
    obtain ⟨_, _, _, _, h_order⟩ := h_order
    rw [← h_order]
  -- The columns accept what they accepted before.
  obtain ⟨row, t, h_inserted⟩ : ∃ row t, insertOrderRow h.order h.store = .ok (row, t) := by
    have h_first := h.inserted
    simp only [insertOrderRow, bind_eq_ok, pure_eq_ok, refuseIf_eq_ok] at h_first
    obtain ⟨quantity, h_quantity, limit, h_limit, reference, h_reference, _, h_pos, _, h_limit_pos,
      _, _, _⟩ := h_first
    have h_fresh : ¬ ∃ key ∈ h.order.idempotencyKey, ∃ old ∈ h.store.orders,
        old.idempotencyKey = some key := by simp [h_key]
    exact ⟨_, _, bind_eq_ok.mpr ⟨quantity, h_quantity, bind_eq_ok.mpr ⟨limit, h_limit,
      bind_eq_ok.mpr ⟨reference, h_reference, bind_eq_ok.mpr ⟨(), refuseIf_eq_ok.mpr h_pos,
      bind_eq_ok.mpr ⟨(), refuseIf_eq_ok.mpr h_limit_pos, bind_eq_ok.mpr ⟨(),
      refuseIf_eq_ok.mpr h_fresh, rfl⟩⟩⟩⟩⟩⟩⟩
  exact ⟨{
    assessment := h.assessment, order := h.order, row, store := t
    unrecorded := by simp
    assessed := by rw [h_account]; exact h.assessed
    admitted := by rw [h_session]; exact h.admitted
    order_eq := h.order_eq
    inserted := h_inserted }, rfl⟩

theorem reads_recorded {k : String} (h : Makes config submission (some k) s) :
    Reads handle h.store 2 (submitAttempt config submission (some k)) (.ret {
      order := h.row, duplicate := true, rejectionReason := optionalReason h.row
      fingerprint := orderFingerprint submission.intent }) := by
  have h_order := h.order_eq
  simp only [newOrder, bind_eq_ok, pure_eq_ok] at h_order
  obtain ⟨_, _, _, _, h_order⟩ := h_order
  have h_key : h.row.idempotencyKey = some k := by
    rw [h.row_inserted.row_eq, ← h_order]
  have h_fingerprint : h.row.fingerprint = orderFingerprint submission.intent := by
    rw [h.row_inserted.row_eq, ← h_order]
  have h_found : (h.store.orders.find? fun order => order.idempotencyKey = some k) = some h.row := by
    rw [h.row_inserted.store]
    show (s.orders ++ [h.row]).find? _ = _
    rw [List.find?_append, h.unrecorded k rfl, Option.none_or]
    simp [h_key]
  have h_probe : handle (.probeIdempotencyKey k) h.store = (.ok (some h.row), h.store) := by
    rw [handle_eq_ok, ← h_found]
    rfl
  refine .read RepoOp.lockAccountForUpdate h.store.account rfl ?_
  apply Reads.read (RepoOp.probeIdempotencyKey k) (some h.row) h_probe
  have h_recorded : recordedOutcome submission.intent h.row = .ok {
      order := h.row, duplicate := true, rejectionReason := optionalReason h.row
      fingerprint := orderFingerprint submission.intent } := by
    unfold recordedOutcome Except.refuseIf
    rw [if_neg (not_not.mpr h_fingerprint)]
    rfl
  show Reads handle h.store 0 (Program.lift (recordedOutcome submission.intent h.row)) _
  rw [h_recorded]
  exact .done _

theorem runWith_later (h : Makes config submission key s) (h_keyed : OrdersKeyed s)
    {oracle : ℕ → Option PaperError} {n m : ℕ} {e : PaperError}
    (h_first : firstFailure oracle n h.laterSteps = some (m, e)) :
    (submitAttempt config submission key).runWith handle oracle n h.store = (.error e, m, h.store) := by
  cases key with
  | some k =>
    have h_two : firstFailure oracle n 2 = some (m, e) := h_first
    rw [h.reads_recorded.runWith n, h_two]
  | none =>
    obtain ⟨h', h_reads⟩ := h.again
    have h_all : firstFailure oracle n (h'.reads + 1) = some (m, e) := by
      rw [h_reads]
      exact h_first
    rw [h'.runWith_attempt (h.row_inserted.keyed h_keyed), h_all]

end Makes

/-! ## Half-made orders -/

/-- Of `k` attempts from the `n`-th statement on, one inserts its order and fails at the
    move, and a later one gets through `steps` statements. -/
def halfMade (oracle : ℕ → Option PaperError) (reads steps : ℕ) : ℕ → ℕ → Bool
  | 0, _ => false
  | k + 1, n =>
    match firstFailure oracle n (reads + 1) with
    | some (m, _) => halfMade oracle reads steps k m
    | none => match oracle (n + reads + 1) with
      | some _ => reaches oracle steps k (n + reads + 2)
      | none => false

/-- The failures leave a half-made order, and an attempt that meets it. -/
def HalfMade (config : SessionConfig) (submission : Submission) (oracle : ℕ → Option PaperError)
    (s : Store) : Prop :=
  ∃ key, validateIdempotencyKey submission.intent.idempotencyKey = .ok key ∧
    ∃ h : Makes config submission key s, halfMade oracle h.reads h.laterSteps retryAttempts 0 = true

section Attempts

variable {oracle : ℕ → Option PaperError}

/-- What the attempts of a submission are meant to leave. -/
def Placed (submission : Submission) (s : Store)
    (result : Except PaperError SubmitOutcome × ℕ × Store) : Prop :=
  result.2.2.orders.length ≤ s.orders.length + 1 ∧
    ∀ outcome, result.1 = .ok outcome → OrderPlaced submission s result.2.2 outcome

/-- No half-made order is met: the attempts leave at most one order, and settle it. -/
theorem Makes.placed (h : Makes config submission key s) (h_keyed : OrdersKeyed s)
    (h_oracle : ∀ n e, oracle n = some e → Retryable e) {exhausted : PaperError} {k n : ℕ}
    (h_whole : halfMade oracle h.reads h.laterSteps k n = false) :
    Placed submission s ((retrying isRetryable exhausted (submitAttempt config submission key)
      k).runWith handle oracle n s) := by
  induction k generalizing n with
  | zero => exact ⟨Nat.le_succ _, fun _ h_ok => by cases h_ok⟩
  | succ k ih =>
    unfold halfMade at h_whole
    have h_attempt := h.runWith_attempt h_keyed oracle n
    cases h_first : firstFailure oracle n (h.reads + 1) with
    | some failure =>
      obtain ⟨m, e⟩ := failure
      obtain ⟨i, h_i⟩ := firstFailure_mem h_first
      rw [h_first] at h_whole h_attempt
      rw [runWith_retrying_again h_attempt (h_oracle i e h_i)]
      exact ih h_whole
    | none =>
      rw [h_first] at h_whole h_attempt
      simp only at h_whole h_attempt
      cases h_move : oracle (n + h.reads + 1) with
      | some e =>
        -- The move failed, and no later attempt gets through.
        rw [h_move] at h_whole h_attempt
        obtain ⟨m, h_rest⟩ := runWith_retrying_of_not_reaches h_oracle
          (fun _ _ _ h_later => h.runWith_later h_keyed h_later) h_whole
        rw [runWith_retrying_again h_attempt (h_oracle _ e h_move), h_rest]
        exact ⟨h.length_store.le, fun _ h_ok => by cases h_ok⟩
      | none =>
        rw [h_move] at h_attempt
        have h_ends := (h.finish_ensures h_keyed).runWith h_oracle (n + h.reads + 2)
        rcases h_finish : (h.assessment.finish config submission h.moved).runWith handle oracle
          (n + h.reads + 2) h.movedStore with ⟨e | outcome, m, t⟩
        · rw [h_finish] at h_ends
          obtain ⟨h_final, h_length⟩ := h_ends
          rw [runWith_retrying_refused (h_attempt.trans h_finish) h_final]
          exact ⟨h_length.le, fun _ h_ok => by cases h_ok⟩
        · rw [h_finish] at h_ends
          obtain ⟨h_length, h_placed⟩ := h_ends
          rw [runWith_retrying_returned (h_attempt.trans h_finish)]
          exact ⟨h_length.le, fun _ h_ok => by cases h_ok; exact h_placed⟩

theorem keeps_orders (h_oracle : ∀ n e, oracle n = some e → Retryable e) {count : ℕ} {t : Store}
    (h : count ≤ t.orders.length) {α : Type} (p : Repo α) (n : ℕ) :
    count ≤ (p.runWith handle oracle n t).2.2.orders.length := by
  have h_invariant : p.Ensures handle Retryable (fun _ t => count ≤ t.orders.length)
      (fun _ t => count ≤ t.orders.length) t :=
    Ensures.invariant (I := fun t : Store => count ≤ t.orders.length)
      (fun op t h_t => h_t.trans (length_orders_le op t)) p h
  have h_ends := h_invariant.runWith h_oracle n
  rcases h_result : p.runWith handle oracle n t with ⟨e | a, m, t'⟩
  · rw [h_result] at h_ends
    exact h_ends
  · rw [h_result] at h_ends
    exact h_ends

/-- What is left when one is met: with a key it is answered with, and without one there is
    another order. -/
def Repeated (row : OrderRow) (s : Store) (result : Except PaperError SubmitOutcome × ℕ × Store) :
    Prop :=
  s.orders.length + 2 ≤ result.2.2.orders.length ∨
    ∃ outcome, result.1 = .ok outcome ∧ outcome.duplicate = true ∧ outcome.order = row

theorem Makes.not_placed (h : Makes config submission key s) (h_keyed : OrdersKeyed s)
    (h_oracle : ∀ n e, oracle n = some e → Retryable e) {exhausted : PaperError} {k n : ℕ}
    (h_half : halfMade oracle h.reads h.laterSteps k n = true) :
    Repeated h.row s ((retrying isRetryable exhausted (submitAttempt config submission key)
      k).runWith handle oracle n s) := by
  induction k generalizing n with
  | zero => cases h_half
  | succ k ih =>
    unfold halfMade at h_half
    have h_attempt := h.runWith_attempt h_keyed oracle n
    cases h_first : firstFailure oracle n (h.reads + 1) with
    | some failure =>
      obtain ⟨m, e⟩ := failure
      obtain ⟨i, h_i⟩ := firstFailure_mem h_first
      rw [h_first] at h_half h_attempt
      rw [runWith_retrying_again h_attempt (h_oracle i e h_i)]
      exact ih h_half
    | none =>
      rw [h_first] at h_half h_attempt
      simp only at h_half h_attempt
      cases h_move : oracle (n + h.reads + 1) with
      | none =>
        rw [h_move] at h_half
        cases h_half
      | some e =>
        rw [h_move] at h_half h_attempt
        rw [runWith_retrying_again h_attempt (h_oracle _ e h_move)]
        obtain ⟨k', n', h_none, h_later⟩ := runWith_retrying_of_reaches h_oracle
          (fun _ _ _ h_later => h.runWith_later h_keyed h_later) h_half
        rw [h_later]
        cases key with
        | some key =>
          have h_two : firstFailure oracle n' 2 = none := h_none
          have h_found := @Reads.runWith _ _ _ _ _ _ oracle _ _ _ _ h.reads_recorded n'
          rw [h_two] at h_found
          rw [runWith_retrying_returned h_found]
          exact .inr ⟨_, rfl, rfl, rfl⟩
        | none =>
          left
          obtain ⟨h', h_reads⟩ := h.again
          have h_again := h'.runWith_attempt (h.row_inserted.keyed h_keyed) oracle n'
          have h_all : firstFailure oracle n' (h'.reads + 1) = none := by
            rw [h_reads]
            exact h_none
          rw [h_all] at h_again
          simp only at h_again
          cases h_second : oracle (n' + h'.reads + 1) with
          | some e' =>
            rw [h_second] at h_again
            rw [runWith_retrying_again h_again (h_oracle _ e' h_second)]
            exact keeps_orders h_oracle (by rw [h'.length_store, h.length_store]) _ _
          | none =>
            rw [h_second] at h_again
            have h_finished := keeps_orders h_oracle
              (by rw [h'.length_movedStore, h.length_store])
              (h'.assessment.finish config submission h'.moved) (n' + h'.reads + 2)
            rcases h_finish : (h'.assessment.finish config submission h'.moved).runWith handle oracle
              (n' + h'.reads + 2) h'.movedStore with ⟨e' | outcome, m, t⟩
            · rw [h_finish] at h_finished
              by_cases h_retry : isRetryable e' = true
              · rw [runWith_retrying_again (h_again.trans h_finish) h_retry]
                exact keeps_orders h_oracle h_finished _ _
              · rw [runWith_retrying_refused (h_again.trans h_finish) h_retry]
                exact h_finished
            · rw [h_finish] at h_finished
              rw [runWith_retrying_returned (h_again.trans h_finish)]
              exact h_finished

/-- When no half-made order is met, the attempts of a submission leave at most one order,
    settled or still to be filled. -/
theorem placeOrder_placed (config : SessionConfig) (h_keyed : OrdersKeyed s)
    (h_oracle : ∀ n e, oracle n = some e → Retryable e)
    (h_key : key = submission.intent.idempotencyKey)
    (h_whole : ∀ h : Makes config submission key s,
      halfMade oracle h.reads h.laterSteps retryAttempts 0 = false) :
    Placed submission s ((placeOrder config submission key).runWith handle oracle 0 s) := by
  rcases isEmpty_or_nonempty (Makes config submission key s) with h_none | ⟨⟨h⟩⟩
  · have h_ensures : (placeOrder config submission key).Ensures handle Retryable
        (fun outcome t => t = s ∧ outcome.duplicate = true ∧ OrderSettled submission s t outcome)
        (fun _ t => t = s) s := by
      refine Ensures.retrying (fun t => t = s) (fun t h_t => ?_) (fun t h_t => h_t) retryAttempts rfl
      rw [h_t]
      refine (submitAttempt_makes_nothing h_none h_key).mono (fun _ _ h => h) fun e u h_u => ?_
      split <;> exact h_u
    have h_ends := h_ensures.runWith h_oracle 0
    rcases h_result : (placeOrder config submission key).runWith handle oracle 0 s
      with ⟨e | outcome, m, t⟩
    · rw [h_result] at h_ends
      obtain rfl : t = s := h_ends
      exact ⟨Nat.le_succ _, fun _ h_ok => by cases h_ok⟩
    · rw [h_result] at h_ends
      obtain ⟨rfl, h_duplicate, h_settled⟩ := h_ends
      refine ⟨Nat.le_succ _, fun _ h_ok => ?_⟩
      cases h_ok
      exact .settled h_settled fun h_accepted => by
        rw [h_accepted.1] at h_duplicate
        cases h_duplicate
  · exact h.placed h_keyed h_oracle (h_whole h)

end Attempts

/-! ## The fill that follows -/

/-- The fill of a market order adds no order, and leaves it accepted or filled. -/
theorem fillAccepted_ensures (config : SessionConfig) (submission : Submission) {outcome : SubmitOutcome} (h_keyed : OrdersKeyed s)
    (h_mem : outcome.order ∈ s.orders) (h_state : outcome.order.orderState = .accepted) :
    (fillAccepted config submission outcome).Ensures handle Retryable
      (fun filled t => t.orders.length = s.orders.length ∧
        (filled.order.orderState = .accepted ∨ filled.order.orderState = .partiallyFilled ∨
          filled.order.orderState = .filled))
      (fun _ t => t.orders.length = s.orders.length) s := by
  refine Ensures.bind (Ensures.lift (fun instant _ => ?_) fun _ _ => rfl)
  refine Ensures.bind (Ensures.lift (fun reference _ => ?_) fun _ _ => rfl)
  refine Ensures.bind (Ensures.lift (fun side _ => ?_) fun _ _ => rfl)
  refine Ensures.bind (Ensures.lift (fun price _ => ?_) fun _ _ => rfl)
  refine Ensures.bind ((applyFill_ensures config _ s).mono (fun fill t h => ?_)
    fun _ _ h => by rw [h])
  obtain ⟨fillQty, fillPrice, _, h_run⟩ := h
  cases fill with
  | applied fill =>
    obtain ⟨run⟩ := applyFillAttempt_applied h_run
    have h_committed := applyFillAtomic_eq_ok run.committed
    obtain ⟨decision⟩ := prepareFill_eq_ok run.prepared_eq
    obtain ⟨_, _, _, h_target⟩ := (fillContext_eq_ok run.context_eq).ordered
    obtain ⟨old, _, _, h_order⟩ := h_committed.order
    obtain ⟨_, _, _, h_row⟩ := h_order.row
    have h_filled : fill.commit.order.orderState = run.context.target := by
      rw [h_row, ← decision.target_eq]
    refine ⟨by rw [h_committed.orders, List.length_map], .inr ?_⟩
    show fill.commit.order.orderState = .partiallyFilled ∨ fill.commit.order.orderState = .filled
    rw [h_filled, h_target]
    split
    · exact .inr rfl
    · exact .inl rfl
  | terminal order =>
    obtain ⟨rfl, h_found⟩ := applyFillAttempt_unapplied h_run fun h => h
    have h_same := h_found.symm.trans (h_keyed.find?_eq_some h_mem)
    exact ⟨rfl, .inl (by rw [← h_state]; exact congrArg OrderRow.orderState (Option.some.inj h_same))⟩
  | duplicate order =>
    obtain ⟨rfl, h_found⟩ := applyFillAttempt_unapplied h_run fun h => h
    have h_same := h_found.symm.trans (h_keyed.find?_eq_some h_mem)
    exact ⟨rfl, .inl (by rw [← h_state]; exact congrArg OrderRow.orderState (Option.some.inj h_same))⟩

/-! ## One submission, one order -/

/-- A call that started on `s` added at most one order, and settled the order it returned. -/
def Settles (submission : Submission) (s : Store)
    (result : Except PaperError SubmitOutcome × ℕ × Store) : Prop :=
  result.2.2.orders.length ≤ s.orders.length + 1 ∧
    ∀ outcome, result.1 = .ok outcome → OrderSettled submission s result.2.2 outcome

/-- One submission, one order, while the oracle makes statements fail. -/
def OneOrder (config : SessionConfig) (submission : Submission) (oracle : ℕ → Option PaperError)
    (s : Store) : Prop :=
  Settles submission s ((submitIntent config submission).runWith handle oracle 0 s)

theorem validateIdempotencyKey_eq_ok {stated key : Option String}
    (h : validateIdempotencyKey stated = .ok key) : key = stated := by
  unfold validateIdempotencyKey at h
  split at h
  · cases h
    rfl
  · split at h
    · cases h
    · cases h
      rfl

/-- Whatever statements of `submit_intent` fail retryably: it adds at most one order and
    settles what it returns exactly when no attempt meets a half-made order. -/
theorem one_order_iff (config : SessionConfig) (submission : Submission)
    (oracle : ℕ → Option PaperError) (s : Store) (h_keyed : OrdersKeyed s)
    (h_oracle : ∀ n e, oracle n = some e → Retryable e) :
    OneOrder config submission oracle s ↔ ¬ HalfMade config submission oracle s := by
  unfold OneOrder submitIntent
  cases h_validated : validateIdempotencyKey submission.intent.idempotencyKey with
  | error e =>
    constructor
    · rintro _ ⟨key, h_key, _⟩
      rw [h_validated] at h_key
      cases h_key
    · exact fun _ => ⟨Nat.le_succ _, fun _ h_ok => by cases h_ok⟩
  | ok key =>
    have h_key := validateIdempotencyKey_eq_ok h_validated
    show Settles submission s (((placeOrder config submission key).bind fun outcome =>
      if outcome.accepted ∧ submission.intent.orderType = .recognised .market then
        fillAccepted config submission outcome else .ret outcome).runWith handle oracle 0 s) ↔ _
    rw [runWith_bind]
    constructor
    · rintro h_settles ⟨key', h_key', h, h_half⟩
      cases h_validated.symm.trans h_key'
      have h_repeated : Repeated h.row s ((placeOrder config submission key).runWith handle oracle 0 s) :=
        h.not_placed h_keyed h_oracle h_half
      rcases h_result : (placeOrder config submission key).runWith handle oracle 0 s
        with ⟨e | outcome, m, t⟩
      all_goals rw [h_result] at h_repeated h_settles
      · rcases h_repeated with h_two | ⟨_, h_ok, _⟩
        · have h_count : t.orders.length ≤ s.orders.length + 1 := h_settles.1
          have h_two : s.orders.length + 2 ≤ t.orders.length := h_two
          omega
        · cases h_ok
      · rcases h_repeated with h_two | ⟨_, h_ok, h_duplicate, h_row⟩
        · have h_count := h_settles.1
          have h_two := keeps_orders h_oracle h_two (if outcome.accepted ∧
            submission.intent.orderType = .recognised .market then
              fillAccepted config submission outcome else .ret outcome) m
          exact absurd (h_two.trans h_count) (by omega)
        · cases h_ok
          -- The answer is the order at `CREATED`, and it was not there before.
          have h_not : ¬ (outcome.accepted ∧ submission.intent.orderType = .recognised .market) := by
            rintro ⟨⟨h_new, _⟩, _⟩
            rw [h_new] at h_duplicate
            cases h_duplicate
          simp only [if_neg h_not] at h_settles
          have h_state : outcome.order.orderState = .created := by
            rw [h_row, h.row_inserted.state_eq]
          cases h_settles.2 outcome rfl with
          | rejected h_rejected _ _ => rw [h_state] at h_rejected; cases h_rejected
          | resting _ h_accepted _ _ => rw [h_state] at h_accepted; cases h_accepted
          | market _ h_filled => rw [h_state] at h_filled; simp at h_filled
          | recorded _ _ h_mem _ => exact h.row_inserted.not_mem h_keyed (h_row ▸ h_mem)
    · intro h_whole
      have h_placed := placeOrder_placed config h_keyed h_oracle h_key fun h => by
        by_contra h_half
        exact h_whole ⟨key, h_validated, h, by simpa using h_half⟩
      rcases h_result : (placeOrder config submission key).runWith handle oracle 0 s
        with ⟨e | outcome, m, t⟩
      · rw [h_result] at h_placed
        exact ⟨h_placed.1, fun _ h_ok => by cases h_ok⟩
      · rw [h_result] at h_placed
        obtain ⟨h_count, h_order⟩ := h_placed
        cases h_order outcome rfl with
        | settled h_settled h_not =>
          show Settles submission s (Program.runWith _ _ (if _ then _ else _) m t)
          rw [if_neg fun h_market => h_not h_market.1 h_market.2]
          exact ⟨h_count, fun _ h_ok => by cases h_ok; exact h_settled⟩
        | pending h_t_keyed h_type h_mem h_state =>
          show Settles submission s (Program.runWith _ _ (if _ then _ else _) m t)
          have h_ends := (fillAccepted_ensures config submission h_t_keyed h_mem h_state).runWith h_oracle m
          split
          · rcases h_fill : (fillAccepted config submission outcome).runWith handle oracle m t
              with ⟨e | filled, m', t'⟩
            · rw [h_fill] at h_ends
              exact ⟨by rw [show t'.orders.length = _ from h_ends]; exact h_count,
                fun _ h_ok => by cases h_ok⟩
            · rw [h_fill] at h_ends
              obtain ⟨h_length, h_filled⟩ := h_ends
              exact ⟨by rw [h_length]; exact h_count,
                fun _ h_ok => by cases h_ok; exact .market h_type h_filled⟩
          · exact ⟨h_count, fun _ h_ok => by cases h_ok; exact .market h_type (.inl h_state)⟩

/-! ## One failure -/

/-- Buy one bitcoin at forty or below. -/
def limitBuy (key : Option String) : Submission where
  intent := {
    symbol := "BTC/USDT", side := .recognised .buy, orderType := .recognised .limit, quantity := 1
    limitPrice := some 40, timeInForce := "gtc", idempotencyKey := key, signalId := none }

/-- The statement of the number fails, once. -/
def failsAt (statement n : ℕ) : Option PaperError :=
  if n = statement then some .serializationFailure else none

theorem failsAt_retryable (statement n : ℕ) (e : PaperError) (h : failsAt statement n = some e) :
    Retryable e := by
  unfold failsAt at h
  split at h
  · cases h
    rfl
  · cases h

theorem started_keyed (capital : ℚ) : OrdersKeyed (.started capital) :=
  ⟨List.nodup_nil, fun _ h_mem => absurd h_mem List.not_mem_nil⟩

/-- When the insert fails once, the next attempt makes the one order. -/
theorem one_order_of_failed_insert :
    OneOrder spotConfig (limitBuy (some "key")) (failsAt 2) (.started 100) := by
  refine (one_order_iff _ _ _ _ (started_keyed 100) (failsAt_retryable 2)).mpr ?_
  rintro ⟨key, h_key, h, h_half⟩
  cases h_key
  have h_reads : h.reads = 2 := by
    unfold Makes.reads
    cases h.assessment <;> rfl
  have h_steps : h.laterSteps = 2 := rfl
  have h_whole : halfMade (failsAt 2) 2 2 retryAttempts 0 = false := by decide
  rw [h_reads, h_steps, h_whole] at h_half
  cases h_half

/-- What a submission of the limit order answers when the statement fails. -/
def limitBuyResult (key : Option String) (statement : ℕ) :
    Except PaperError SubmitOutcome × ℕ × Store :=
  (submitIntent spotConfig (limitBuy key)).runWith handle (failsAt statement) 0 (.started 100)

def returnedState : Except PaperError SubmitOutcome → Option OrderState
  | .ok outcome => some outcome.order.orderState
  | .error _ => none

/-- When the move fails once, the order is answered with at `CREATED`; without a key there
    are two orders. -/
theorem half_made_order_is_met :
    returnedState (limitBuyResult (some "key") 3).1 = some .created ∧
      ((limitBuyResult none 2).2.2.orders.map OrderRow.orderState) = [.created, .accepted] ∧
      ¬ ∀ (config : SessionConfig) (submission : Submission) (oracle : ℕ → Option PaperError)
          (s : Store), OrdersKeyed s → (∀ n e, oracle n = some e → Retryable e) →
        OneOrder config submission oracle s := by
  have h_two : ((limitBuyResult none 2).2.2.orders.map OrderRow.orderState) = [.created, .accepted] := by
    decide +kernel
  refine ⟨by decide +kernel, h_two, fun h => ?_⟩
  have h_count := (h spotConfig (limitBuy none) (failsAt 2) (.started 100) (started_keyed 100)
    (failsAt_retryable 2)).1
  have h_length := congrArg List.length h_two
  rw [List.length_map] at h_length
  exact absurd (h_length ▸ h_count : [OrderState.created, .accepted].length ≤ 0 + 1) (by decide)

end VyomQuant.Paper
