/-
  VyomQuant.Marketplace.Refunds

  Whether money that was refunded entitles, over every sequence of requests, each run to
  its end.

  A refund moves an active subscription to `refunded`, and a payment brings its own ledger
  row.  A refund of a suspended subscription is recorded without a transition, and both
  paid-for checks of the reinstatement look at payments only.  `Backed` is kept by every
  request but that reinstatement, which `ReinstatesPaid` excludes.
-/

import VyomQuant.Marketplace.ExactlyOnce

namespace VyomQuant.Marketplace

open Except Program

/-! ## Refunded payments -/

/-- The ledger holds a reversal of the payment. -/
def Reversed (s : MarketStore) (payment : SettlementRow) : Prop :=
  ∃ row ∈ s.settlements, row.isReversal = true ∧
    row.reversesReference = some payment.providerReference

instance (s : MarketStore) (payment : SettlementRow) : Decidable (Reversed s payment) :=
  inferInstanceAs (Decidable (∃ row ∈ s.settlements, _))

/-- Some payment of the subscription was not refunded. -/
def Unreversed (s : MarketStore) (subscriptionId : String) : Prop :=
  ∃ payment ∈ payments s subscriptionId, ¬ Reversed s payment

instance (s : MarketStore) (subscriptionId : String) : Decidable (Unreversed s subscriptionId) :=
  inferInstanceAs (Decidable (∃ payment ∈ payments s subscriptionId, _))

/-- No subscription is active with every payment refunded. -/
def NoRefundEntitles (s : MarketStore) : Prop :=
  ∀ id row, s.subscriptions.get? id = some row → row.status = .active → Unreversed s id

/-- What the requests keep. -/
structure Backed (s : MarketStore) : Prop where
  funded : Funded s
  reversals : ∀ row ∈ s.settlements, row.isReversal = true →
    ∃ payment ∈ s.settlements, payment.isReversal = false ∧
      row.reversesReference = some payment.providerReference
  active : NoRefundEntitles s

theorem Backed.of_unsettled {s : MarketStore} (h_settlements : s.settlements = [])
    (h_transitions : s.transitions = [])
    (h_inactive : ∀ id row, s.subscriptions.get? id = some row → row.status ≠ .active) :
    Backed s := by
  refine ⟨.of_unsettled h_settlements h_transitions, fun row h_mem => ?_, ?_⟩
  · rw [h_settlements] at h_mem
    cases h_mem
  · intro id row h_row h_active
    exact absurd h_active (h_inactive id row h_row)

/-- Reversals are settled by the refund webhook only. -/
def Request.FromProvider : Request → Prop
  | .settle settlement => settlement.isReversal = false
  | _ => True

/-- A suspended subscription that is reinstated has a payment that was not refunded. -/
def Request.ReinstatesPaid (request : Request) (s : MarketStore) : Prop :=
  ∀ id row, request.Reinstates id → s.subscriptions.get? id = some row →
    row.status = .suspended → Unreversed s id

/-! ## Status writes -/

section Quiet

variable {s t : MarketStore} {id : String}

theorem Unreversed.congr (h : Unreversed s id) (h_same : t.settlements = s.settlements) :
    Unreversed t id := by
  unfold Unreversed Reversed payments at *
  rw [h_same]
  exact h

theorem Backed.congr (h : Backed s) (h_funded : Funded t) (h_same : t.settlements = s.settlements)
    (h_active : NoRefundEntitles t) : Backed t :=
  ⟨h_funded, h_same ▸ h.reversals, h_active⟩

/-- A status write that does not activate, or activates a subscription whose payments were
    not all refunded. -/
theorem NoRefundEntitles.statusWritten {old new : SubscriptionRow} (h : NoRefundEntitles s)
    (h_written : StatusWritten s old new t)
    (h_new : new.status = .active → Unreversed s old.id) : NoRefundEntitles t := by
  obtain ⟨h_updated, -, rfl⟩ := h_written
  intro id row h_row h_active
  rw [KeyedList.get?_put, h_updated.id_eq] at h_row
  split at h_row
  · rename_i h_id
    cases h_row
    subst h_id
    exact (h_new h_active).congr rfl
  · exact (h id row h_row h_active).congr rfl

/-- The hold is the only way into `suspended`. -/
theorem unreversed_of_suspended {old new : SubscriptionRow} {ledger : List SettlementRow}
    (h : NoRefundEntitles s) (h_updated : RowUpdated s ledger old new)
    (h_new : new.status = .suspended) (h_old : old.status = .suspended → Unreversed s old.id) :
    Unreversed s old.id := by
  rcases h_updated.status with h_same | h_move
  · exact h_old (h_same ▸ h_new)
  · refine h old.id old h_updated.found ?_
    rw [h_new] at h_move
    revert h_move
    cases old.status <;> decide

end Quiet

/-! ## The database function -/

section Record

variable {s t : MarketStore} {request : Request} {call : SettleCall} {args : RecordArgs}
  {result : RecordResult} {decision : Decision} {old : SubscriptionRow} {id : String}

/-- What is known of a row when nothing else runs: it is the stored one. -/
def Current (row : SubscriptionRow) (s : MarketStore) : Prop :=
  s.subscriptions.get? row.id = some row

theorem current_known : Known (fun _ => False) Eq Current where
  refl := fun _ => rfl
  trans := fun _ _ _ h h' => h.trans h'
  advances := fun s _ h => h ▸ .refl s
  read := fun _ _ h => h
  stable := fun _ _ _ h h_eq => h_eq ▸ h
  quiet := fun _ _ _ h h_same => by rw [Current, h_same]; exact h
  lost := fun _ _ _ _ _ h => h.elim
  present := fun row _ h => ⟨row, h, .refl row⟩

theorem reversed_payment (h_from : request.FromProvider) (h_settles : request.Settles call s)
    (h_decided : DecidedFrom Current call args s) (h_kind : args.row.isReversal = true) :
    ∃ payment ∈ s.settlements, payment.isReversal = false ∧
      args.row.reversesReference = some payment.providerReference ∧
      args.row.subscriptionId = payment.subscriptionId := by
  obtain ⟨⟨shares, cached, h_row⟩, -⟩ := h_decided
  rw [h_row] at h_kind ⊢
  cases request with
  | settle settlement =>
    have h_payment : settlement.isReversal = false := h_from
    have h_reversal : settlement.isReversal = true := by
      rw [← show call = settlement from h_settles]
      exact h_kind
    rw [h_payment] at h_reversal
    cases h_reversal
  | refund event =>
    obtain ⟨payment, h_mem, h_key, rfl⟩ := h_settles
    obtain ⟨h_reference, h_payment⟩ := Prod.mk.inj h_key
    exact ⟨payment, h_mem, h_payment, congrArg some h_reference.symm, rfl⟩
  | _ => exact h_settles.elim

theorem mem_ledgerWith {row other : SettlementRow} (h : other ∈ ledgerWith s row) :
    other ∈ s.settlements ∨ other = row := by
  unfold ledgerWith at h
  split at h
  · exact Or.inl h
  · simpa using h

theorem Unreversed.ledgerWith {row : SettlementRow} (h : Unreversed s id)
    (h_ledger : t.settlements = Marketplace.ledgerWith s row)
    (h_other : row.isReversal = true → ∀ payment ∈ payments s id,
      row.reversesReference ≠ some payment.providerReference) : Unreversed t id := by
  obtain ⟨payment, h_mem, h_not⟩ := h
  have h_grows : s.settlements <+: t.settlements := h_ledger ▸ ledgerWith_extends s row
  refine ⟨payment, (payments_sublist h_grows id).subset h_mem, ?_⟩
  rintro ⟨reversal, h_reversal, h_kind, h_reference⟩
  rw [h_ledger] at h_reversal
  rcases mem_ledgerWith h_reversal with h_old | rfl
  · exact h_not ⟨reversal, h_old, h_kind, h_reference⟩
  · exact h_other h_kind payment h_mem h_reference

theorem Backed.reverses_own (h : Backed s) {target : SettlementRow} (h_target : target ∈ s.settlements)
    (h_payment : target.isReversal = false) (h_id : target.subscriptionId ≠ id) :
    ∀ payment ∈ payments s id, some target.providerReference ≠ some payment.providerReference := by
  intro payment h_mem h_eq
  obtain ⟨h_there, h_of, h_kind⟩ := mem_payments.mp h_mem
  have h_key : target.key = payment.key := by
    rw [SettlementRow.key, SettlementRow.key, Option.some.inj h_eq, h_payment, h_kind]
  have h_same := List.inj_on_of_nodup_map h.funded.once.ledger h_target h_there h_key
  exact h_id (h_same ▸ h_of)

theorem Backed.reversals_ledgerWith (h : Backed s) {row : SettlementRow}
    (h_row : row.isReversal = true → ∃ payment ∈ s.settlements, payment.isReversal = false ∧
      row.reversesReference = some payment.providerReference) :
    ∀ other ∈ ledgerWith s row, other.isReversal = true →
      ∃ payment ∈ ledgerWith s row, payment.isReversal = false ∧
        other.reversesReference = some payment.providerReference := by
  intro other h_mem h_kind
  have h_old : ∃ payment ∈ s.settlements, payment.isReversal = false ∧
      other.reversesReference = some payment.providerReference := by
    rcases mem_ledgerWith h_mem with h_there | rfl
    · exact h.reversals other h_there h_kind
    · exact h_row h_kind
  obtain ⟨payment, h_payment, h_of⟩ := h_old
  exact ⟨payment, (ledgerWith_extends s row).subset h_payment, h_of⟩

theorem Backed.recordOnly (h : Backed s) (h_from : request.FromProvider)
    (h_settles : request.Settles call s) (h_decided : DecidedFrom Current call args s)
    (h_none : args.transition = none) :
    NoRefundEntitles { s with settlements := ledgerWith s args.row } := by
  intro id row h_row h_active
  refine (h.active id row h_row h_active).ledgerWith rfl fun h_kind => ?_
  obtain ⟨target, h_target, h_payment, h_reference, h_id⟩ :=
    reversed_payment h_from h_settles h_decided h_kind
  rw [h_reference]
  refine h.reverses_own h_target h_payment fun h_same => ?_
  obtain ⟨read, h_current, h_read, h_decision, -⟩ := h_decided.decided
  have h_stored : s.subscriptions.get? id = some read := by
    rw [← h_same, ← h_id, ← h_read]
    exact h_current
  rw [show s.subscriptions.get? id = some row from h_row] at h_stored
  cases h_stored
  rw [h_kind, h_none, decideTransition, if_pos rfl,
    if_pos ((canTransition_refunded_iff _).mpr h_active)] at h_decision
  cases h_decision

/-- A reversal's transition takes its subscription out of `active`. -/
theorem Backed.reversal (h : Backed s) (h_from : request.FromProvider)
    (h_settles : request.Settles call s) (h_decided : DecidedFrom Current call args s)
    (h_kind : args.row.isReversal = true) (h_some : args.transition = some decision)
    (h_applied : TransitionApplied s args decision old t) : NoRefundEntitles t := by
  obtain ⟨target, h_target, h_payment, h_reference, h_id⟩ :=
    reversed_payment h_from h_settles h_decided h_kind
  obtain ⟨read, -, -, h_decision, -⟩ := h_decided.decided
  rw [h_kind, h_some] at h_decision
  obtain ⟨-, h_to, -⟩ := decideTransition_reversal h_decision
  intro id row h_row h_active
  rw [h_applied.store, KeyedList.get?_put, h_applied.updated.id_eq] at h_row
  split at h_row
  · cases h_row
    rw [show (decision.apply old).status = .refunded from h_to] at h_active
    cases h_active
  · rename_i h_other
    have h_ledger : t.settlements = ledgerWith s args.row := by rw [h_applied.store]
    refine (h.active id row h_row h_active).ledgerWith h_ledger fun _ => ?_
    rw [h_reference]
    refine h.reverses_own h_target h_payment fun h_same => h_other ?_
    rw [← h_same, ← h_id, h_applied.id_eq]

theorem Backed.payment (h : Backed s) (h_fresh : ¬ recorded s args.row.key)
    (h_kind : args.row.isReversal = false) (h_applied : TransitionApplied s args decision old t) :
    NoRefundEntitles t := by
  have h_ledger : t.settlements = ledgerWith s args.row := by rw [h_applied.store]
  intro id row h_row h_active
  rw [h_applied.store, KeyedList.get?_put, h_applied.updated.id_eq] at h_row
  split at h_row
  · rename_i h_id
    have h_of : args.row.PaymentOf id := ⟨by rw [h_id, h_applied.id_eq], h_kind⟩
    refine ⟨args.row, ?_, ?_⟩
    · rw [payments_ledgerWith h_ledger h_fresh h_of]
      exact List.mem_append_right _ (List.mem_singleton_self _)
    · rintro ⟨reversal, h_mem, h_reversal, h_reference⟩
      rw [h_ledger] at h_mem
      rcases mem_ledgerWith h_mem with h_old | rfl
      · -- A reversal is preceded by its payment, so the reference would be taken.
        obtain ⟨payment, h_payment, h_not, h_of'⟩ := h.reversals reversal h_old h_reversal
        rw [h_reference] at h_of'
        refine h_fresh ⟨payment, h_payment, ?_⟩
        rw [SettlementRow.key, SettlementRow.key, h_not, h_kind, Option.some.inj h_of']
      · rw [h_kind] at h_reversal
        cases h_reversal
  · refine (h.active id row h_row h_active).ledgerWith h_ledger fun h_reversal => ?_
    rw [h_kind] at h_reversal
    cases h_reversal

theorem keepsPeriods_of_decided (h_decided : DecidedFrom Current call args s) :
    KeepsPeriods (.recordAndTransition args) s := by
  obtain ⟨read, h_current, h_id, h_decision, -⟩ := h_decided.decided
  refine keepsPeriods_of_current fun row h_row => ?_
  rw [Option.mem_def, ← h_id, show s.subscriptions.get? read.id = some read from h_current] at h_row
  cases h_row
  exact h_decision

theorem Backed.record (h : Backed s) (h_from : request.FromProvider)
    (h_settles : request.Settles call s) (h_decided : DecidedFrom Current call args s)
    (h_record : recordAndTransitionSettlement s args = .ok (result, t)) : Backed t := by
  have h_present : DecidedFrom Present call args s :=
    h_decided.mono fun row h_current => ⟨row, h_current, .refl row⟩
  have h_keeps := keepsPeriods_of_decided h_decided
  have h_funded : Funded t := h.funded.record h_present h_keeps h_record
  have h_reversals := h.reversals_ledgerWith fun h_kind => by
    obtain ⟨target, h_target, h_payment, h_reference, -⟩ :=
      reversed_payment h_from h_settles h_decided h_kind
    exact ⟨target, h_target, h_payment, h_reference⟩
  rcases recordAndTransition_cases h_record with ⟨-, -, -, rfl⟩ | ⟨-, h_done⟩
  · exact h
  · rcases h_done with ⟨h_none, rfl⟩ | ⟨decision, old, h_some, h_applied⟩
    · exact ⟨h_funded, h_reversals, h.recordOnly h_from h_settles h_decided h_none⟩
    · have h_ledger : t.settlements = ledgerWith s args.row := by rw [h_applied.store]
      refine ⟨h_funded, h_ledger ▸ h_reversals, ?_⟩
      cases h_kind : args.row.isReversal with
      | true => exact h.reversal h_from h_settles h_decided h_kind h_some h_applied
      | false =>
        exact h.payment (h.funded.not_resumed h_present h_keeps h_kind h_some h_applied) h_kind
          h_applied

end Record

/-! ## Every run -/

theorem not_reinstates_of_settles {request : Request} {call : SettleCall} {s : MarketStore}
    (h : request.Settles call s) (id : String) : ¬ request.Reinstates id := by
  cases request with
  | reinstate adminId id reason now => exact h.elim
  | _ => exact fun h_reinstates => h_reinstates

theorem Backed.handle {request : Request} {op : MarketOp} {s : MarketStore}
    (h_from : request.FromProvider) (h : Backed s ∧ request.ReinstatesPaid s)
    (h_may : request.MayIssue Current op s) :
    Backed (Marketplace.handle op s).2 ∧ request.ReinstatesPaid (Marketplace.handle op s).2 := by
  refine handle_cases (I := fun t => Backed t ∧ request.ReinstatesPaid t) h ?_ ?_ ?_ ?_
  · intro permissions
    have h_funded : Funded { s with permissions } :=
      ⟨⟨h.1.funded.once.ledger, h.1.funded.once.funded⟩, h.1.funded.ahead⟩
    exact ⟨h.1.congr h_funded rfl h.1.active, h.2⟩
  · rintro row rfl
    have h_quiet : SettlesNothing request.Reinstates (.insertTransition row) := h_may
    exact ⟨h.1.congr (h.1.funded.insertTransition h_quiet) rfl h.1.active, h.2⟩
  · intro s₁ old new s₂ h_I h_written h_new
    have h_same : s₂.settlements = s₁.settlements := by rw [h_written.store]
    refine ⟨h_I.1.congr (h_I.1.funded.statusWritten h_written) h_same
      (h_I.1.active.statusWritten h_written fun h_active => ?_), ?_⟩
    · rcases h_new with h_not | ⟨rfl, rfl⟩
      · exact absurd h_active h_not
      · obtain ⟨h_reinstates, h_suspended⟩ := h_may
        exact h_I.2 old.id old h_reinstates h_written.updated.found h_suspended
    · intro id row h_reinstates h_row h_suspended
      refine Unreversed.congr ?_ h_same
      rw [h_written.store, KeyedList.get?_put, h_written.updated.id_eq] at h_row
      split at h_row
      · rename_i h_id
        cases h_row
        subst h_id
        exact unreversed_of_suspended h_I.1.active h_written.updated h_suspended
          (h_I.2 old.id old h_reinstates h_written.updated.found)
      · exact h_I.2 id row h_reinstates h_row h_suspended
  · rintro args result t rfl h_record
    obtain ⟨call, h_settles, h_decided⟩ := h_may
    exact ⟨h.1.record h_from h_settles h_decided h_record, fun id _ h_reinstates =>
      absurd h_reinstates (not_reinstates_of_settles h_settles id)⟩

/-- A request runs to its end, where `P` allows it. -/
inductive Serves (P : Request → MarketStore → Prop) : MarketStore → MarketStore → Prop
  | request {s : MarketStore} (request : Request) (h_from : request.FromProvider)
      (h : P request s) : Serves P s (request.program.run Marketplace.handle s).2

theorem Backed.served {s t : MarketStore} (h : Backed s)
    (h_served : Serves Request.ReinstatesPaid s t) : Backed t := by
  obtain ⟨request, h_from, h_paid⟩ := h_served
  have h_step : ∀ op u, Backed u ∧ request.ReinstatesPaid u → request.MayIssue Current op u →
      Backed (Marketplace.handle op u).2 ∧ request.ReinstatesPaid (Marketplace.handle op u).2 :=
    fun _ _ h_I h_may => Backed.handle h_from h_I h_may
  exact (Relies.run (fun _ => rfl) h_step (request.relies current_known s) ⟨h, h_paid⟩).1.1

/-- After any sequence of payments, refunds, cancellations, holds, sweeps, and reinstatements
    of subscriptions that have a payment left, no subscription is active with every payment
    refunded. -/
theorem refunded_money_never_entitles {s₀ s : MarketStore} (h_start : Backed s₀)
    (h_run : Relation.ReflTransGen (Serves Request.ReinstatesPaid) s₀ s) : NoRefundEntitles s := by
  have h_backed : Backed s := by
    induction h_run with
    | refl => exact h_start
    | tail _ h_served ih => exact ih.served h_served
  exact h_backed.active

/-- The refund of a payment of ten dollars, settled in one attempt. -/
def refundOf (reference : String) (instant : Instant) : RefundEvent where
  paymentReference := reference
  provider := .stripe
  refundedAmount := 1000
  instant
  attempts := 1
  attempts_pos := Nat.one_pos

def serve (s : MarketStore) (requests : List Request) : MarketStore :=
  requests.foldl (fun s request => (request.program.run Marketplace.handle s).2) s

theorem reinstatesPaid_of_not {request : Request} {s : MarketStore}
    (h : ∀ id, ¬ request.Reinstates id) : request.ReinstatesPaid s :=
  fun id _ h_reinstates => absurd h_reinstates (h id)

def firstPayment : Request := .settle (paymentFor "first" january5)

theorem firstPayment_fromProvider : firstPayment.FromProvider := rfl

def paidAndHeld : MarketStore :=
  serve (unsettled checkedOut) [firstPayment, .suspend "subscription"]

def reinstatement : Request :=
  .reinstate none "subscription" "hold lifted" january12

/-- A hold that is lifted while the payment stands: the subscription is active again. -/
theorem refunded_money_never_entitles_of_lifted_hold :
    NoRefundEntitles (serve paidAndHeld [reinstatement]) ∧
      ((serve paidAndHeld [reinstatement]).subscriptions.get? "subscription").map (·.status)
        = some .active := by
  have h_start : Backed (unsettled checkedOut) := by
    refine .of_unsettled rfl rfl fun id row h_row => ?_
    rw [List.mem_singleton.mp (KeyedList.mem_of_get? h_row).1]
    decide
  have h_paid : reinstatement.ReinstatesPaid paidAndHeld := by
    rintro id row rfl - -
    decide +kernel
  have h_run : Relation.ReflTransGen (Serves Request.ReinstatesPaid) (unsettled checkedOut)
      (serve paidAndHeld [reinstatement]) := by
    refine .tail (.tail (.tail .refl (.request firstPayment firstPayment_fromProvider ?_))
      (.request (.suspend _) trivial ?_)) (.request reinstatement trivial h_paid)
    · exact reinstatesPaid_of_not fun _ h => h
    · exact reinstatesPaid_of_not fun _ h => h
  have h_active : ((serve paidAndHeld [reinstatement]).subscriptions.get? "subscription").map
      (·.status) = some .active := by decide +kernel
  exact ⟨refunded_money_never_entitles h_start h_run, h_active⟩

/-! ## A refund during a hold -/

def refundedWhileHeld : MarketStore :=
  serve paidAndHeld [.refund (refundOf "first" january10), reinstatement]

/-- A payment, a hold, its refund, and the reinstatement: the subscription is active and its
    only payment is refunded. -/
theorem refund_of_held_entitles :
    Relation.ReflTransGen (Serves fun _ _ => True) (unsettled checkedOut) refundedWhileHeld ∧
      (refundedWhileHeld.subscriptions.get? "subscription").map (·.status) = some .active ∧
      (payments refundedWhileHeld "subscription").length = 1 ∧
      ¬ Unreversed refundedWhileHeld "subscription" ∧ ¬ NoRefundEntitles refundedWhileHeld := by
  have h_run : Relation.ReflTransGen (Serves fun _ _ => True) (unsettled checkedOut)
      refundedWhileHeld :=
    .tail (.tail (.tail (.tail .refl (.request firstPayment firstPayment_fromProvider trivial))
      (.request (.suspend _) trivial trivial)) (.request (.refund _) trivial trivial))
      (.request reinstatement trivial trivial)
  have h_status : (refundedWhileHeld.subscriptions.get? "subscription").map (·.status)
      = some .active := by decide +kernel
  have h_payments : (payments refundedWhileHeld "subscription").length = 1 := by decide +kernel
  have h_refunded : ¬ Unreversed refundedWhileHeld "subscription" := by decide +kernel
  refine ⟨h_run, h_status, h_payments, h_refunded, fun h_none => ?_⟩
  obtain ⟨row, h_row, h_active⟩ := Option.map_eq_some_iff.mp h_status
  exact h_refunded (h_none "subscription" row h_row h_active)

end VyomQuant.Marketplace
