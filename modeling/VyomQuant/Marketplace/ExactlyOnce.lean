/-
  VyomQuant.Marketplace.ExactlyOnce

  How often a confirmed payment buys a period, over every interleaving of settle
  deliveries, refunds, cancellations, holds, sweeps and reinstatements, with statements
  that may fail or lose their answer.

  A redelivered payment is resumed, and past its ledger row the only thing that stops it
  from buying a second period is arm 3b of the guard.  `Funded` is the invariant that makes
  the guard refuse: the stored period ends after every payment of the subscription.

  The period is decided from a row that was read earlier, so a stale renewal can move the
  stored expiry back, behind a payment that is already in the ledger.  `KeepsPeriods`
  excludes that step, and `settlement_exactly_once` is the invariant over all runs without
  it; `redelivery_buys_again` is a run with it.
-/

import VyomQuant.Marketplace.Settling

namespace VyomQuant.Marketplace

open Except Program
open Optimistic (Config)

/-! ## What was paid and what was bought -/

def payments (s : MarketStore) (subscriptionId : String) : List SettlementRow :=
  s.settlements.filter fun row => decide (row.PaymentOf subscriptionId)

/-- The history row moves the end of the period on, or sets a first one. -/
def TransitionRow.Extends (row : TransitionRow) : Prop :=
  ∃ expiry ∈ row.newPeriodExpiry, ∀ prior ∈ row.priorPeriodExpiry, prior < expiry

instance (row : TransitionRow) : Decidable row.Extends :=
  inferInstanceAs (Decidable (∃ expiry ∈ row.newPeriodExpiry, _))

/-- A settlement's move into `active`, or an extension of the period. -/
def TransitionRow.Buys (row : TransitionRow) : Prop :=
  (row.cause = .settlement ∧ row.toState = .active) ∨ row.Extends

instance (row : TransitionRow) : Decidable row.Buys := inferInstanceAs (Decidable (_ ∨ _))

/-- The periods bought for a subscription. -/
def purchases (s : MarketStore) (subscriptionId : String) : List TransitionRow :=
  s.transitions.filter fun row => decide (row.subscriptionId = subscriptionId ∧ row.Buys)

def FundedBy (purchase : TransitionRow) (payment : SettlementRow) : Prop :=
  payment.PaymentOf purchase.subscriptionId ∧ payment.settledAt = purchase.transitionedAt

/-- One ledger row for a reference and its reversal, and each purchase has a payment of its
    own. -/
structure ExactlyOnce (s : MarketStore) : Prop where
  ledger : (s.settlements.map SettlementRow.key).Nodup
  funded : ∀ id, ∃ used, used.Subperm (payments s id) ∧ List.Forall₂ FundedBy (purchases s id) used

/-- `k` payments buy at most `k` periods. -/
theorem ExactlyOnce.purchases_le {s : MarketStore} (h : ExactlyOnce s) (id : String) :
    (purchases s id).length ≤ (payments s id).length := by
  obtain ⟨used, h_used, h_funded⟩ := h.funded id
  calc (purchases s id).length = used.length := h_funded.length_eq
    _ ≤ (payments s id).length := h_used.length_le

/-! ## The invariant -/

/-- Each purchase has its payment, and the period of a subscription that was not refunded
    ends after every payment. -/
structure Funded (s : MarketStore) : Prop where
  once : ExactlyOnce s
  ahead : ∀ id row, s.subscriptions.get? id = some row → row.status ≠ .refunded →
    ∀ payment ∈ payments s id, ∃ expiry ∈ row.periodExpiry, payment.settledAt < expiry

theorem Funded.of_unsettled {s : MarketStore} (h_settlements : s.settlements = [])
    (h_transitions : s.transitions = []) : Funded s := by
  have h_payments : ∀ id, payments s id = [] := fun id => by rw [payments, h_settlements]; rfl
  have h_purchases : ∀ id, purchases s id = [] := fun id => by rw [purchases, h_transitions]; rfl
  refine ⟨⟨by rw [h_settlements]; exact List.nodup_nil, fun id => ⟨[], ?_, ?_⟩⟩, ?_⟩
  · exact List.nil_subperm
  · rw [h_purchases]
    exact .nil
  · intro id row _ _ payment h_mem
    rw [h_payments] at h_mem
    cases h_mem

/-- A payment's transition that takes effect ends no earlier than the stored period, and
    later unless the subscription is active. -/
def KeepsPeriods : MarketOp → MarketStore → Prop
  | .recordAndTransition args, s =>
    args.row.isReversal = false →
    (recorded s args.row.key → args.proceedIfDuplicate = true) →
    ∀ decision ∈ args.transition, ∀ row ∈ s.subscriptions.get? args.row.subscriptionId,
      row.status = args.expectedFromStatus →
      ∀ stored ∈ row.periodExpiry, ∀ expiry ∈ decision.periodExpiry,
        stored ≤ expiry ∧ (row.status ≠ .active → stored < expiry)
  | _, _ => True

instance (op : MarketOp) (s : MarketStore) : Decidable (KeepsPeriods op s) := by
  letI (p q : Prop) [Decidable p] [Decidable q] : Decidable (p → q) := instDecidableForall
  unfold KeepsPeriods
  refine op.casesOn ?_ ?_ ?_ ?_ ?_ ?_ ?_ ?_ ?_ ?_ ?_ ?_ <;> intros <;> infer_instance

theorem keepsPeriods_of_current {args : RecordArgs} {s : MarketStore}
    (h : ∀ row ∈ s.subscriptions.get? args.row.subscriptionId,
      decideTransition row args.row.isReversal args.row.settledAt = .ok args.transition) :
    KeepsPeriods (.recordAndTransition args) s := by
  intro h_payment _ decision h_decision row h_row _ stored h_stored expiry h_expiry
  have h_decides := h row h_row
  rw [h_payment, Option.mem_def.mp h_decision] at h_decides
  obtain ⟨expiry', h_some, -, h_later⟩ := (decideTransition_payment h_decides).expiry
  rw [Option.mem_def, h_some] at h_expiry
  cases h_expiry
  exact ⟨(h_later stored h_stored).le, fun _ => h_later stored h_stored⟩

/-! ## What one step does to payments and purchases -/

section Steps

variable {s t : MarketStore} {row : SettlementRow} {history : TransitionRow} {id : String}

theorem mem_payments {payment : SettlementRow} :
    payment ∈ payments s id ↔ payment ∈ s.settlements ∧ payment.PaymentOf id := by
  simp [payments]

theorem payments_sublist (h : s.settlements <+: t.settlements) (id : String) :
    (payments s id).Sublist (payments t id) := h.sublist.filter _

theorem payments_ledgerWith_of_not (h : t.settlements = ledgerWith s row)
    (h_not : recorded s row.key ∨ ¬ row.PaymentOf id) : payments t id = payments s id := by
  unfold payments
  rw [h, ledgerWith]
  split
  · rfl
  · rename_i h_fresh
    have h_other : ¬ row.PaymentOf id := h_not.resolve_left h_fresh
    simp [List.filter_append, h_other]

theorem payments_ledgerWith (h : t.settlements = ledgerWith s row) (h_fresh : ¬ recorded s row.key)
    (h_of : row.PaymentOf id) : payments t id = payments s id ++ [row] := by
  unfold payments
  rw [h, ledgerWith, if_neg h_fresh]
  simp [List.filter_append, h_of]

theorem purchases_append (h : t.transitions = s.transitions ++ [history]) :
    purchases t id = if history.subscriptionId = id ∧ history.Buys then purchases s id ++ [history]
      else purchases s id := by
  unfold purchases
  rw [h, List.filter_append]
  split
  · rename_i h_buys
    simp [h_buys]
  · rename_i h_not
    rw [List.filter_cons_of_neg (by simpa using h_not)]
    simp

theorem nodup_ledgerWith (h : (s.settlements.map SettlementRow.key).Nodup) (row : SettlementRow) :
    ((ledgerWith s row).map SettlementRow.key).Nodup := by
  unfold ledgerWith
  split
  · exact h
  · rename_i h_fresh
    rw [List.map_append, List.nodup_append]
    refine ⟨h, List.nodup_singleton _, fun key h_key other h_other h_eq => h_fresh ?_⟩
    obtain ⟨old, h_old, rfl⟩ := List.mem_map.mp h_key
    rw [List.map_singleton, List.mem_singleton] at h_other
    exact ⟨old, h_old, h_eq.trans h_other⟩

theorem ExactlyOnce.of_bought_nothing (h : ExactlyOnce s) (h_ledger : s.settlements <+: t.settlements)
    (h_nodup : (t.settlements.map SettlementRow.key).Nodup)
    (h_purchases : ∀ id, purchases t id = purchases s id) : ExactlyOnce t := by
  refine ⟨h_nodup, fun id => ?_⟩
  obtain ⟨used, h_used, h_funded⟩ := h.funded id
  exact ⟨used, h_used.trans (payments_sublist h_ledger id).subperm, h_purchases id ▸ h_funded⟩

theorem ExactlyOnce.transition (h : ExactlyOnce s) (h_ledger : t.settlements = ledgerWith s row)
    (h_history : t.transitions = s.transitions ++ [history])
    (h_buys : history.Buys → ¬ recorded s row.key ∧ FundedBy history row) : ExactlyOnce t := by
  have h_nodup : (t.settlements.map SettlementRow.key).Nodup :=
    h_ledger ▸ nodup_ledgerWith h.ledger row
  have h_grows : s.settlements <+: t.settlements := h_ledger ▸ ledgerWith_extends s row
  refine ⟨h_nodup, fun id => ?_⟩
  obtain ⟨used, h_used, h_funded⟩ := h.funded id
  rw [purchases_append h_history]
  split
  · rename_i h_bought
    obtain ⟨rfl, h_buy⟩ := h_bought
    obtain ⟨h_fresh, h_by⟩ := h_buys h_buy
    refine ⟨used ++ [row], ?_, List.rel_append h_funded (.cons h_by .nil)⟩
    rw [payments_ledgerWith h_ledger h_fresh h_by.1, List.subperm_append_right]
    exact h_used
  · exact ⟨used, h_used.trans (payments_sublist h_grows id).subperm, h_funded⟩

end Steps

/-! ## The other writers -/

section Quiet

variable {s t : MarketStore}

theorem not_buys_of_settlesNothing {reinstates : String → Prop} {row : TransitionRow}
    (h : SettlesNothing reinstates (.insertTransition row)) : ¬ row.Buys := by
  rintro (⟨h_cause, -⟩ | ⟨expiry, h_expiry, h_later⟩)
  · exact h.1 h_cause
  · rw [h.2] at h_expiry
    exact lt_irrefl _ (h_later expiry h_expiry)

theorem Funded.insertTransition (h : Funded s) {reinstates : String → Prop} {row : TransitionRow}
    (h_row : SettlesNothing reinstates (.insertTransition row)) :
    Funded { s with transitions := s.transitions ++ [row] } := by
  refine ⟨h.once.of_bought_nothing List.prefix_rfl h.once.ledger fun id => ?_, h.ahead⟩
  rw [purchases_append rfl, if_neg fun h_bought => not_buys_of_settlesNothing h_row h_bought.2]

/-- A status write leaves the periods where they are, and nothing leaves `refunded`. -/
theorem Funded.statusWritten {old new : SubscriptionRow} (h : Funded s)
    (h_written : StatusWritten s old new t) : Funded t := by
  obtain ⟨h_updated, h_status, rfl⟩ := h_written
  refine ⟨h.once.of_bought_nothing List.prefix_rfl h.once.ledger fun _ => rfl, ?_⟩
  intro id row h_row h_refunded payment h_payment
  rw [KeyedList.get?_put, h_updated.id_eq] at h_row
  split at h_row
  · rename_i h_id
    cases h_row
    subst h_id
    have h_old : old.status ≠ .refunded := fun h_old => h_refunded (h_updated.refunded h_old)
    obtain ⟨expiry, h_expiry, h_lt⟩ := h.ahead old.id old h_updated.found h_old payment h_payment
    refine ⟨expiry, ?_, h_lt⟩
    rw [h_status]
    exact h_expiry
  · exact h.ahead id row h_row h_refunded payment h_payment

end Quiet

/-! ## The database function -/

/-- The subscription is where a row that was read had it, or further on. -/
def Present (row : SubscriptionRow) (s : MarketStore) : Prop :=
  ∃ later, s.subscriptions.get? row.id = some later ∧ later.Continues row

theorem present_known (faults : MarketError → Prop) : Known faults Advances Present where
  refl := Advances.refl
  trans := fun _ _ _ h h' => h.trans h'
  advances := fun _ _ h => h
  read := fun _ row h => ⟨row, h, .refl row⟩
  stable := by
    rintro row s s' ⟨later, h_later, h_continues⟩ h_advances
    obtain ⟨last, h_last, h_continues'⟩ := h_advances.row row.id later h_later
    exact ⟨last, h_last, h_continues.trans h_continues'⟩
  quiet := fun _ _ _ h h_same => by rw [Present, h_same]; exact h
  lost := by
    rintro row s op _ ⟨later, h_later, h_continues⟩ _
    obtain ⟨last, h_last, h_continues'⟩ := (handle_advances op s).row row.id later h_later
    exact ⟨last, h_last, h_continues.trans h_continues'⟩
  present := fun _ _ h => h

section Record

variable {s t : MarketStore} {call : SettleCall} {args : RecordArgs} {result : RecordResult}
  {decision : Decision} {old : SubscriptionRow}

theorem refunded_of_decides_nothing {row : SubscriptionRow} {instant : Instant}
    (h : decideTransition row false instant = .ok none) : row.status = .refunded := by
  unfold decideTransition at h
  rw [if_neg Bool.false_ne_true] at h
  split at h
  · obtain ⟨_, -, h_decision⟩ := bind_eq_ok.mp h
    cases h_decision
  · rename_i h_not
    rw [eligible_iff] at h_not
    by_contra h_refunded
    by_cases h_active : row.status = .active
    · exact h_not (Or.inr h_active)
    · exact h_not (Or.inl ⟨h_active, h_refunded⟩)

theorem Funded.recordOnly (h : Funded s) (h_decided : DecidedFrom Present call args s)
    (h_none : args.transition = none) : Funded { s with settlements := ledgerWith s args.row } := by
  refine ⟨h.once.of_bought_nothing (ledgerWith_extends s args.row)
    (nodup_ledgerWith h.once.ledger args.row) fun _ => rfl, ?_⟩
  intro id row h_row h_refunded payment h_payment
  by_cases h_new : recorded s args.row.key ∨ ¬ args.row.PaymentOf id
  · rw [payments_ledgerWith_of_not rfl h_new] at h_payment
    exact h.ahead id row h_row h_refunded payment h_payment
  · rw [not_or, not_not] at h_new
    obtain ⟨-, rfl, h_kind⟩ := h_new
    obtain ⟨read, ⟨later, h_later, h_continues⟩, h_id, h_decision, -⟩ := h_decided.decided
    rw [h_kind, h_none] at h_decision
    have h_read : read.status = .refunded := refunded_of_decides_nothing h_decision
    rw [h_id, show s.subscriptions.get? args.row.subscriptionId = some row from h_row] at h_later
    cases h_later
    exact absurd (h_continues.refunded h_read) h_refunded

/-- A reversal moves the subscription to `refunded` and buys nothing. -/
theorem Funded.reversal (h : Funded s) (h_decided : DecidedFrom Present call args s)
    (h_kind : args.row.isReversal = true) (h_some : args.transition = some decision)
    (h_applied : TransitionApplied s args decision old t) : Funded t := by
  obtain ⟨read, -, -, h_decision, -⟩ := h_decided.decided
  rw [h_kind, h_some] at h_decision
  obtain ⟨-, h_to, h_expiry, h_prior⟩ := decideTransition_reversal h_decision
  have h_not_of : ∀ id, ¬ args.row.PaymentOf id := by
    rintro id ⟨-, h_payment⟩
    rw [h_kind] at h_payment
    cases h_payment
  have h_ledger : t.settlements = ledgerWith s args.row := by rw [h_applied.store]
  refine ⟨h.once.transition h_ledger (by rw [h_applied.store]) ?_, ?_⟩
  · rintro (⟨h_cause, -⟩ | ⟨expiry, h_new, h_later⟩)
    · rw [historyRow, h_kind] at h_cause
      cases h_cause
    · refine absurd (h_later expiry ?_) (lt_irrefl expiry)
      show expiry ∈ decision.priorPeriodExpiry
      rw [h_prior, ← h_expiry]
      exact h_new
  · intro id row h_row h_refunded payment h_payment
    rw [payments_ledgerWith_of_not h_ledger (Or.inr (h_not_of id))] at h_payment
    rw [h_applied.store, KeyedList.get?_put] at h_row
    split at h_row
    · cases h_row
      exact absurd h_to h_refunded
    · exact h.ahead id row h_row h_refunded payment h_payment

/-- A payment's transition is never a resumption: the stored period ends after every payment
    in the ledger, and the guard asks for one at or after its end. -/
theorem Funded.not_resumed (h : Funded s) (h_decided : DecidedFrom Present call args s)
    (h_keeps : KeepsPeriods (.recordAndTransition args) s) (h_kind : args.row.isReversal = false)
    (h_some : args.transition = some decision) (h_applied : TransitionApplied s args decision old t) :
    ¬ recorded s args.row.key := by
  intro h_recorded
  obtain ⟨read, -, -, h_decision, h_expected, h_resumes⟩ := h_decided.decided
  rw [h_kind, h_some] at h_decision
  have h_decides := decideTransition_payment h_decision
  obtain ⟨expiry, h_expiry, -, -⟩ := h_decides.expiry
  have h_pending := (h_resumes (h_applied.proceeds h_recorded)).1
  rw [transitionPending, h_kind, if_neg Bool.false_ne_true, eligible_iff] at h_pending
  have h_status : old.status = read.status := h_applied.expected.trans h_expected
  have h_active : old.status ≠ .active := h_status ▸ h_pending.1
  have h_found : s.subscriptions.get? args.row.subscriptionId = some old := by
    rw [← h_applied.id_eq, h_applied.updated.found]
  have h_moved : (decision.apply old).periodExpiry ≠ old.periodExpiry := by
    intro h_same
    have h_stored : old.periodExpiry = some expiry := by rw [← h_same]; exact h_expiry
    exact lt_irrefl expiry ((h_keeps h_kind h_applied.proceeds decision h_some old h_found
      h_applied.expected expiry h_stored expiry h_expiry).2 h_active)
  obtain ⟨payment, h_mem, h_of, h_after⟩ :=
    guard_paid h_applied.updated.guard h_active h_decides.toStatus h_moved
  rw [ledgerWith, if_pos h_recorded] at h_mem
  rw [h_applied.updated.id_eq] at h_of
  obtain ⟨stored, h_stored, h_lt⟩ := h.ahead old.id old h_applied.updated.found
    (h_status ▸ h_pending.2) payment (mem_payments.mpr ⟨h_mem, h_of⟩)
  exact absurd (h_after stored h_stored) (not_le.mpr h_lt)

/-- A payment's transition buys one period with the ledger row it comes with. -/
theorem Funded.payment (h : Funded s) (h_decided : DecidedFrom Present call args s)
    (h_keeps : KeepsPeriods (.recordAndTransition args) s) (h_kind : args.row.isReversal = false)
    (h_some : args.transition = some decision) (h_applied : TransitionApplied s args decision old t) :
    Funded t := by
  have h_fresh := h.not_resumed h_decided h_keeps h_kind h_some h_applied
  obtain ⟨read, -, -, h_decision, h_expected, -⟩ := h_decided.decided
  rw [h_kind, h_some] at h_decision
  have h_decides := decideTransition_payment h_decision
  obtain ⟨expiry, h_expiry, h_instant, -⟩ := h_decides.expiry
  have h_refunded : old.status ≠ .refunded :=
    h_applied.expected.trans h_expected ▸ h_decides.status_ne
  have h_found : s.subscriptions.get? args.row.subscriptionId = some old := by
    rw [← h_applied.id_eq, h_applied.updated.found]
  have h_ledger : t.settlements = ledgerWith s args.row := by rw [h_applied.store]
  have h_of : args.row.PaymentOf old.id := ⟨h_applied.id_eq.symm, h_kind⟩
  refine ⟨h.once.transition h_ledger (by rw [h_applied.store]) fun _ =>
    ⟨h_fresh, ⟨rfl, h_kind⟩, rfl⟩, ?_⟩
  intro id row h_row h_row_refunded payment h_payment
  rw [h_applied.store, KeyedList.get?_put, h_applied.updated.id_eq] at h_row
  split at h_row
  · rename_i h_id
    cases h_row
    subst h_id
    refine ⟨expiry, h_expiry, ?_⟩
    rw [payments_ledgerWith h_ledger h_fresh h_of, List.mem_append, List.mem_singleton] at h_payment
    rcases h_payment with h_earlier | rfl
    · obtain ⟨stored, h_stored, h_lt⟩ :=
        h.ahead old.id old h_applied.updated.found h_refunded payment h_earlier
      have h_keep := h_keeps h_kind h_applied.proceeds decision h_some old h_found
        h_applied.expected stored h_stored expiry h_expiry
      exact lt_of_lt_of_le h_lt h_keep.1
    · exact h_instant
  · rename_i h_id
    have h_other : ¬ args.row.PaymentOf id := fun h_of' => h_id (h_of.1.symm.trans h_of'.1).symm
    rw [payments_ledgerWith_of_not h_ledger (Or.inr h_other)] at h_payment
    exact h.ahead id row h_row h_row_refunded payment h_payment

theorem Funded.record (h : Funded s) (h_decided : DecidedFrom Present call args s)
    (h_keeps : KeepsPeriods (.recordAndTransition args) s)
    (h_record : recordAndTransitionSettlement s args = .ok (result, t)) : Funded t := by
  rcases recordAndTransition_cases h_record with ⟨-, -, -, rfl⟩ | ⟨-, h_done⟩
  · exact h
  · rcases h_done with ⟨h_none, rfl⟩ | ⟨decision, old, h_some, h_applied⟩
    · exact h.recordOnly h_decided h_none
    · cases h_kind : args.row.isReversal with
      | true => exact h.reversal h_decided h_kind h_some h_applied
      | false => exact h.payment h_decided h_keeps h_kind h_some h_applied

end Record

/-! ## Every run -/

theorem Funded.handle {request : Request} {op : MarketOp} {s : MarketStore} (h : Funded s)
    (h_may : request.MayIssue Present op s) (h_keeps : KeepsPeriods op s) :
    Funded (Marketplace.handle op s).2 := by
  refine handle_cases h (fun _ => ⟨⟨h.once.ledger, h.once.funded⟩, h.ahead⟩) ?_ ?_ ?_
  · rintro row rfl
    have h_quiet : SettlesNothing request.Reinstates (.insertTransition row) := h_may
    exact h.insertTransition h_quiet
  · intro s₁ old new s₂ h_funded h_written _
    exact h_funded.statusWritten h_written
  · rintro args result t rfl h_record
    obtain ⟨call, -, h_decided⟩ := h_may
    exact h.record h_decided h_keeps h_record

/-- In every interleaving of requests, whatever statements fail or lose their answer, in
    which every payment's transition keeps the stored period: one ledger row for a reference
    and its reversal, and one payment for each period bought. -/
theorem settlement_exactly_once {ι : Type} [DecidableEq ι] (requests : ι → Request)
    (faults : MarketError → Prop) {s₀ : MarketStore} (h_start : Funded s₀)
    {c : Config Res MarketError Answer MarketStore ι}
    (h_run : Relation.ReflTransGen (StepWhere Marketplace.handle faults KeepsPeriods)
      ⟨s₀, fun i => (requests i).program⟩ c) :
    ExactlyOnce c.store ∧ ∀ id, (purchases c.store id).length ≤ (payments c.store id).length := by
  have h_known := present_known faults
  have h_pool : ∀ i, (requests i).program.Relies Marketplace.handle faults Advances
      ((requests i).MayIssue Present) (requests i).Ends s₀ := fun i =>
    (requests i).relies h_known s₀
  have h_step : ∀ i op s, Funded s → (requests i).MayIssue Present op s → KeepsPeriods op s →
      Funded (Marketplace.handle op s).2 ∧ Advances s (Marketplace.handle op s).2 :=
    fun i op s h_funded h_may h_keeps => ⟨h_funded.handle h_may h_keeps, handle_advances op s⟩
  have h_invariant : Funded c.store :=
    (Relies.interleaving h_known.refl h_known.trans h_step h_run h_start h_pool).1
  exact ⟨h_invariant.once, h_invariant.once.purchases_le⟩

/-- A payment and its redelivery, and the renewal that follows. -/
def paidTwice : Fin 3 → Request
  | 0 => .settle (paymentFor "first" january5)
  | 1 => .settle (paymentFor "first" january5)
  | 2 => .settle (paymentFor "second" january20)

def paidTwiceRun : Config Res MarketError Answer MarketStore (Fin 3) :=
  executeWhere Marketplace.handle KeepsPeriods
    ⟨unsettled checkedOut, fun i => (paidTwice i).program⟩ [0, 0, 0, 0, 1, 1, 1, 1, 2, 2, 2, 2]

/-- The redelivery buys nothing. -/
theorem settlement_exactly_once_of_redelivery :
    ExactlyOnce paidTwiceRun.store ∧ (payments paidTwiceRun.store "subscription").length = 2 ∧
      (purchases paidTwiceRun.store "subscription").length = 2 := by
  have h_start : Funded (unsettled checkedOut) := .of_unsettled rfl rfl
  have h_run := settlement_exactly_once paidTwice (fun _ => False) h_start
    (c := paidTwiceRun) (executeWhere_reachable _)
  have h_counts : (payments paidTwiceRun.store "subscription").length = 2 ∧
      (purchases paidTwiceRun.store "subscription").length = 2 := by decide +kernel
  exact ⟨h_run.1, h_counts⟩

/-! ## A stale renewal and a redelivery -/

/-- Three payments, a sweep, and the third payment delivered once more. -/
def stalledRequests : Fin 5 → Request
  | 0 => .settle (paymentFor "first" january5)
  | 1 => .settle (paymentFor "second" january20)
  | 2 => .settle (paymentFor "third" march10)
  | 3 => .sweep march11
  | 4 => .settle (paymentFor "third" march10)

/-- The second and the third payment both read the period that the first one bought.  The
    third is written first, so the second moves the expiry back to March 5.  The sweep
    expires the subscription, and the redelivered third payment is resumed. -/
def stalledRun : Config Res MarketError Answer MarketStore (Fin 5) :=
  executeWhere Marketplace.handle (fun _ _ => True)
    ⟨unsettled checkedOut, fun i => (stalledRequests i).program⟩ [0, 0, 1, 2, 2, 1, 3, 3, 4, 4, 4, 4]

/-- Three payments bought four periods. -/
theorem redelivery_buys_again :
    Relation.ReflTransGen (StepWhere Marketplace.handle (fun _ => False) fun _ _ => True)
        ⟨unsettled checkedOut, fun i => (stalledRequests i).program⟩ stalledRun ∧
      (payments stalledRun.store "subscription").length = 3 ∧
      (purchases stalledRun.store "subscription").length = 4 ∧ ¬ ExactlyOnce stalledRun.store := by
  have h_counts : (payments stalledRun.store "subscription").length = 3 ∧
      (purchases stalledRun.store "subscription").length = 4 := by decide +kernel
  refine ⟨executeWhere_reachable _, h_counts.1, h_counts.2, fun h_once => ?_⟩
  have h_le := h_once.purchases_le "subscription"
  omega

end VyomQuant.Marketplace
