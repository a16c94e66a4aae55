/-
  VyomQuant.Marketplace.Renewals

  What concurrent payments for an active subscription leave as its period.

  `settledInTurn` is what the payments buy when they are settled one after the other.  In an
  interleaving the new expiry is computed from a row that was read before, and the database
  function checks only the status, which a renewal leaves alone.  `ExtendsStored` is the step at
  which that makes no difference: `SettledSince` is then an invariant of every run.
-/

import VyomQuant.Marketplace.Refunds

namespace VyomQuant.Marketplace

open Except Program
open Optimistic (Config)

/-! ## Payments settled in turn -/

/-- The expiry after the payments, each extending the one before it. -/
def settledInTurn (stored : Instant) (settled : List SettlementRow) : Except PeriodError Instant :=
  settled.foldlM (fun expiry payment => periodForRenewal expiry payment.settledAt) stored

theorem settledInTurn_append {stored expiry : Instant} {settled : List SettlementRow}
    (h : settledInTurn stored settled = .ok expiry) (payment : SettlementRow) :
    settledInTurn stored (settled ++ [payment]) = periodForRenewal expiry payment.settledAt := by
  unfold settledInTurn at *
  rw [List.foldlM_append, h]
  simp only [List.foldlM_cons, List.foldlM_nil, bind_pure]
  exact pure_bind expiry fun expiry => periodForRenewal expiry payment.settledAt

/-- Since `s₀` these payments of the subscription were recorded, each with a reference of its
    own, and the subscription is active until what they buy in turn. -/
structure SettledSince (s₀ s : MarketStore) (id : String) (expiry₀ : Instant)
    (settled : List SettlementRow) : Prop where
  payments_eq : payments s id = payments s₀ id ++ settled
  nodup : (settled.map (·.providerReference)).Nodup
  row : ∃ row expiry, s.subscriptions.get? id = some row ∧ row.status = .active ∧
    row.periodExpiry = some expiry ∧ settledInTurn expiry₀ settled = .ok expiry

theorem SettledSince.refl {s : MarketStore} {id : String} {row : SubscriptionRow}
    {expiry : Instant} (h_row : s.subscriptions.get? id = some row) (h_active : row.status = .active)
    (h_expiry : row.periodExpiry = some expiry) : SettledSince s s id expiry [] :=
  ⟨(List.append_nil _).symm, List.nodup_nil, row, expiry, h_row, h_active, h_expiry, rfl⟩

/-- A payment's transition of an active subscription, where it takes effect, extends the
    expiry that was read to what it would extend the stored one to. -/
def ExtendsStored : MarketOp → MarketStore → Prop
  | .recordAndTransition args, s =>
    args.row.isReversal = false → ¬ recorded s args.row.key →
    args.expectedFromStatus = .active →
    ∀ decision ∈ args.transition, ∀ row ∈ s.subscriptions.get? args.row.subscriptionId,
      row.status = .active →
      ∀ stored ∈ row.periodExpiry, ∃ prior ∈ decision.priorPeriodExpiry,
        periodForRenewal prior args.row.settledAt = periodForRenewal stored args.row.settledAt
  | _, _ => True

instance (op : MarketOp) (s : MarketStore) : Decidable (ExtendsStored op s) := by
  letI (p q : Prop) [Decidable p] [Decidable q] : Decidable (p → q) := instDecidableForall
  unfold ExtendsStored
  refine op.casesOn ?_ ?_ ?_ ?_ ?_ ?_ ?_ ?_ ?_ ?_ ?_ ?_ <;> intros <;> infer_instance

theorem decideTransition_renewal {row : SubscriptionRow} {instant : Instant} {decision : Decision}
    (h : decideTransition row false instant = .ok (some decision)) :
    decision.priorPeriodExpiry = row.periodExpiry ∧ ∀ stored ∈ row.periodExpiry,
      ∃ expiry, periodForRenewal stored instant = .ok expiry ∧ decision.periodExpiry = some expiry := by
  unfold decideTransition at h
  rw [if_neg Bool.false_ne_true] at h
  split at h
  · obtain ⟨⟨start, expiry⟩, h_period, h_decision⟩ := bind_eq_ok.mp h
    cases h_decision
    refine ⟨rfl, fun stored h_stored => ⟨expiry, ?_, rfl⟩⟩
    rw [decidePeriod, Option.mem_def.mp h_stored] at h_period
    obtain ⟨expiry', h_renewal, h_pair⟩ := bind_eq_ok.mp h_period
    cases h_pair
    exact ofPeriod_eq_ok h_renewal
  · cases h

/-! ## One step -/

section Steps

variable {s₀ s t : MarketStore} {id : String} {expiry₀ : Instant} {settled : List SettlementRow}
  {call : SettleCall} {args : RecordArgs} {result : RecordResult} {decision : Decision}
  {old : SubscriptionRow}

theorem SettledSince.congr (h : SettledSince s₀ s id expiry₀ settled)
    (h_payments : payments t id = payments s id)
    (h_row : t.subscriptions.get? id = s.subscriptions.get? id) :
    SettledSince s₀ t id expiry₀ settled :=
  ⟨h_payments.trans h.payments_eq, h.nodup, by rw [h_row]; exact h.row⟩

theorem SettledSince.recordOnly (h : SettledSince s₀ s id expiry₀ settled)
    (h_kind : args.row.isReversal = false) (h_decided : DecidedFrom Present call args s)
    (h_none : args.transition = none) :
    SettledSince s₀ { s with settlements := ledgerWith s args.row } id expiry₀ settled := by
  refine h.congr (payments_ledgerWith_of_not rfl ?_) rfl
  by_contra h_new
  rw [not_or, not_not] at h_new
  obtain ⟨-, h_id, -⟩ := h_new
  obtain ⟨read, ⟨later, h_later, h_continues⟩, h_read, h_decision, -⟩ := h_decided.decided
  obtain ⟨row, expiry, h_row, h_active, -⟩ := h.row
  rw [h_kind, h_none] at h_decision
  have h_refunded := h_continues.refunded (refunded_of_decides_nothing h_decision)
  rw [h_read, h_id, h_row] at h_later
  cases h_later
  rw [h_active] at h_refunded
  cases h_refunded

/-- A payment's transition of another subscription, or of this one with a new reference. -/
theorem SettledSince.transition (h : SettledSince s₀ s id expiry₀ settled)
    (h_kind : args.row.isReversal = false) (h_decided : DecidedFrom Present call args s)
    (h_extends : ExtendsStored (.recordAndTransition args) s) (h_some : args.transition = some decision)
    (h_applied : TransitionApplied s args decision old t) :
    SettledSince s₀ t id expiry₀ settled ∨ SettledSince s₀ t id expiry₀ (settled ++ [args.row]) := by
  have h_ledger : t.settlements = ledgerWith s args.row := by rw [h_applied.store]
  obtain ⟨read, -, -, h_decision, h_expected, h_resumes⟩ := h_decided.decided
  rw [h_kind, h_some] at h_decision
  by_cases h_id : args.row.subscriptionId = id
  · right
    subst h_id
    obtain ⟨row, expiry, h_row, h_active, h_stored, h_turn⟩ := h.row
    have h_found : s.subscriptions.get? args.row.subscriptionId = some old := by
      rw [← h_applied.id_eq, h_applied.updated.found]
    rw [h_found] at h_row
    cases h_row
    have h_from : args.expectedFromStatus = .active := h_applied.expected.symm.trans h_active
    -- A resumption would have read a status that is not active.
    have h_fresh : ¬ recorded s args.row.key := by
      intro h_recorded
      have h_pending := (h_resumes (h_applied.proceeds h_recorded)).1
      rw [transitionPending, h_kind, if_neg Bool.false_ne_true, eligible_iff] at h_pending
      exact h_pending.1 (h_expected.symm.trans h_from)
    obtain ⟨h_prior, h_renewal⟩ := decideTransition_renewal h_decision
    obtain ⟨prior, h_read, h_same⟩ := h_extends h_kind h_fresh h_from decision h_some old h_found
      h_active expiry h_stored
    rw [h_prior] at h_read
    obtain ⟨expiry', h_extended, h_new⟩ := h_renewal prior h_read
    have h_of : args.row.PaymentOf args.row.subscriptionId := ⟨rfl, h_kind⟩
    refine ⟨?_, ?_, decision.apply old, expiry', ?_, (decideTransition_payment h_decision).toStatus,
      h_new, ?_⟩
    · rw [payments_ledgerWith h_ledger h_fresh h_of, h.payments_eq, List.append_assoc]
    · rw [List.map_append, List.map_singleton, List.nodup_append]
      refine ⟨h.nodup, List.nodup_singleton _, fun reference h_mem other h_other h_eq => h_fresh ?_⟩
      obtain ⟨payment, h_payment, rfl⟩ := List.mem_map.mp h_mem
      rw [List.mem_singleton] at h_other
      have h_there : payment ∈ payments s args.row.subscriptionId := by
        rw [h.payments_eq]
        exact List.mem_append_right _ h_payment
      obtain ⟨h_row, -, h_not⟩ := mem_payments.mp h_there
      refine ⟨payment, h_row, ?_⟩
      rw [SettlementRow.key, SettlementRow.key, h_eq, h_other, h_not, h_kind]
    · rw [h_applied.store, KeyedList.get?_put, if_pos (h_applied.updated.id_eq.trans h_applied.id_eq).symm]
    · rw [settledInTurn_append h_turn, ← h_same, h_extended]
  · left
    have h_other : ¬ args.row.PaymentOf id := fun h_of => h_id h_of.1
    refine h.congr (payments_ledgerWith_of_not h_ledger (Or.inr h_other)) ?_
    rw [h_applied.store, KeyedList.get?_put, if_neg]
    intro h_eq
    exact h_id (h_applied.id_eq.symm.trans (h_applied.updated.id_eq.symm.trans h_eq.symm))

end Steps

/-! ## Every run -/

/-- What settle calls for payments keep, from `s₀` on. -/
structure Renewing (calls : SettleCall → Prop) (s₀ : MarketStore) (id : String) (expiry₀ : Instant)
    (s : MarketStore) : Prop where
  advances : Advances s₀ s
  written : ∀ row ∈ s.settlements, row ∈ s₀.settlements ∨
    ∃ call, calls call ∧ row.key = call.key ∧ row.PaymentOf call.subscriptionId
  settled : ∃ settled, SettledSince s₀ s id expiry₀ settled ∧
    ∀ payment ∈ settled, ∃ call, calls call ∧ payment.providerReference = call.providerReference ∧
      payment.settledAt = call.confirmationInstant

section Runs

variable {calls : SettleCall → Prop} {call : SettleCall} {s₀ s t : MarketStore} {id : String}
  {expiry₀ : Instant} {args : RecordArgs} {result : RecordResult}

theorem Renewing.record (h : Renewing calls s₀ id expiry₀ s) (h_call : calls call)
    (h_kind : call.isReversal = false) (h_decided : DecidedFrom Present call args s)
    (h_extends : ExtendsStored (.recordAndTransition args) s)
    (h_record : recordAndTransitionSettlement s args = .ok (result, t))
    (h_advances : Advances s t) : Renewing calls s₀ id expiry₀ t := by
  obtain ⟨shares, cached, h_row⟩ := h_decided.1
  have h_payment : args.row.isReversal = false := by rw [h_row]; exact h_kind
  have h_written : t.settlements = s.settlements ∨ t.settlements = ledgerWith s args.row := by
    rcases recordAndTransition_cases h_record with ⟨-, -, -, rfl⟩ | ⟨-, h_done⟩
    · exact Or.inl rfl
    · rcases h_done with ⟨-, rfl⟩ | ⟨decision, old, -, h_applied⟩
      · exact Or.inr rfl
      · exact Or.inr (by rw [h_applied.store])
  refine ⟨h.advances.trans h_advances, fun row h_mem => ?_, ?_⟩
  · have h_cases : row ∈ s.settlements ∨ row = args.row := by
      rcases h_written with h_same | h_ledger
      · exact Or.inl (h_same ▸ h_mem)
      · exact mem_ledgerWith (h_ledger ▸ h_mem)
    rcases h_cases with h_old | rfl
    · exact h.written row h_old
    · exact Or.inr ⟨call, h_call, by rw [h_row]; rfl, by rw [h_row]; exact ⟨rfl, h_kind⟩⟩
  · obtain ⟨settled, h_since, h_by⟩ := h.settled
    have h_next : SettledSince s₀ t id expiry₀ settled ∨
        SettledSince s₀ t id expiry₀ (settled ++ [args.row]) := by
      rcases recordAndTransition_cases h_record with ⟨-, -, -, rfl⟩ | ⟨-, h_done⟩
      · exact Or.inl h_since
      · rcases h_done with ⟨h_none, rfl⟩ | ⟨decision, old, h_some, h_applied⟩
        · exact Or.inl (h_since.recordOnly h_payment h_decided h_none)
        · exact h_since.transition h_payment h_decided h_extends h_some h_applied
    rcases h_next with h_same | h_more
    · exact ⟨settled, h_same, h_by⟩
    · refine ⟨settled ++ [args.row], h_more, fun payment h_mem => ?_⟩
      rcases List.mem_append.mp h_mem with h_old | h_new
      · exact h_by payment h_old
      · rw [List.mem_singleton.mp h_new, h_row]
        exact ⟨call, h_call, rfl, rfl⟩

theorem Renewing.handle {op : MarketOp} (h : Renewing calls s₀ id expiry₀ s) (h_call : calls call)
    (h_kind : call.isReversal = false) (h_may : MayIssue Present call op s)
    (h_extends : ExtendsStored op s) :
    Renewing calls s₀ id expiry₀ (Marketplace.handle op s).2 := by
  have h_advances := handle_advances op s
  refine handle_mayIssue (I := fun t => Advances s t → Renewing calls s₀ id expiry₀ t) h_may
    (fun _ => h) ?_ ?_ h_advances
  · intro permissions h_grant
    obtain ⟨settled, h_since, h_by⟩ := h.settled
    exact ⟨h.advances.trans h_grant, h.written, settled, h_since.congr rfl rfl, h_by⟩
  · rintro args result t h_decided rfl h_record h_advances
    exact h.record h_call h_kind h_decided h_extends h_record h_advances

theorem Renewing.refl {row : SubscriptionRow} (h_row : s₀.subscriptions.get? id = some row)
    (h_active : row.status = .active) (h_expiry : row.periodExpiry = some expiry₀) :
    Renewing calls s₀ id expiry₀ s₀ :=
  ⟨.refl s₀, fun _ h => Or.inl h, [], .refl h_row h_active h_expiry, fun _ h => nomatch h⟩

theorem Renewing.mem_settled (h : Renewing calls s₀ id expiry₀ s) {settled : List SettlementRow}
    (h_since : SettledSince s₀ s id expiry₀ settled)
    (h_id : ∀ other, calls other → other.providerReference = call.providerReference →
      other.subscriptionId = id)
    (h_recorded : recorded s call.key) (h_new : ¬ recorded s₀ call.key) :
    ∃ payment ∈ settled, payment.providerReference = call.providerReference := by
  obtain ⟨row, h_row, h_key⟩ := h_recorded
  rcases h.written row h_row with h_old | ⟨other, h_other, h_key', h_of⟩
  · exact absurd ⟨row, h_old, h_key⟩ h_new
  · have h_reference : other.providerReference = call.providerReference :=
      congrArg Prod.fst (h_key'.symm.trans h_key)
    rw [h_id other h_other h_reference] at h_of
    have h_mem : row ∈ payments s₀ id ++ settled := by
      rw [← h_since.payments_eq]
      exact mem_payments.mpr ⟨h_row, h_of⟩
    rcases List.mem_append.mp h_mem with h_old | h_settled
    · exact absurd ⟨row, (mem_payments.mp h_old).1, h_key⟩ h_new
    · exact ⟨row, h_settled, congrArg Prod.fst h_key⟩

theorem SettleCall.Matches.advances (h : call.Matches s) (h_advances : Advances s t) :
    call.Matches t := by
  obtain ⟨row, h_row, h_price, h_currency⟩ := h
  obtain ⟨later, h_later, h_continues⟩ := h_advances.row _ row h_row
  exact ⟨later, h_later, h_continues.priceMinor.trans h_price,
    h_continues.currency.trans h_currency⟩

end Runs

/-- In every interleaving of settle calls for distinct payments in which every transition
    extends the stored expiry: each new payment whose call returned is recorded, and the
    expiry is what the recorded ones buy one after the other. -/
theorem no_paid_month_lost {ι : Type} [DecidableEq ι] (calls : ι → SettleCall)
    (h_payments : ∀ i, (calls i).isReversal = false)
    (h_distinct : Function.Injective fun i => (calls i).providerReference)
    (faults : MarketError → Prop) {s₀ : MarketStore} {id : String} {row₀ : SubscriptionRow}
    {expiry₀ : Instant} (h_row : s₀.subscriptions.get? id = some row₀)
    (h_active : row₀.status = .active) (h_expiry : row₀.periodExpiry = some expiry₀)
    {c : Config Res MarketError SettlementResult MarketStore ι}
    (h_run : Relation.ReflTransGen (StepWhere Marketplace.handle faults ExtendsStored)
      ⟨s₀, fun i => settle (calls i)⟩ c) :
    ∃ settled, SettledSince s₀ c.store id expiry₀ settled ∧
      (∀ payment ∈ settled, ∃ i, payment.providerReference = (calls i).providerReference ∧
        payment.settledAt = (calls i).confirmationInstant) ∧
      ∀ i result, c.pool i = .ret result → (calls i).subscriptionId = id →
        (calls i).Matches s₀ → ¬ recorded s₀ (calls i).key →
        ∃ payment ∈ settled, payment.providerReference = (calls i).providerReference := by
  have h_known := present_known faults
  have h_pool : ∀ i, (settle (calls i)).Relies Marketplace.handle faults Advances
      (MayIssue Present (calls i)) (SettleEnds (calls i)) s₀ := fun i =>
    settle_relies h_known (calls i) s₀
  have h_step : ∀ i op s, Renewing (∃ i, calls i = ·) s₀ id expiry₀ s →
      MayIssue Present (calls i) op s → ExtendsStored op s →
      Renewing (∃ i, calls i = ·) s₀ id expiry₀ (Marketplace.handle op s).2 ∧
        Advances s (Marketplace.handle op s).2 := fun i op s h_renewing h_may h_extends =>
    ⟨h_renewing.handle ⟨i, rfl⟩ (h_payments i) h_may h_extends, handle_advances op s⟩
  obtain ⟨h_renewing, h_ends⟩ := Relies.interleaving h_known.refl h_known.trans h_step h_run
    (Renewing.refl h_row h_active h_expiry) h_pool
  obtain ⟨settled, h_since, h_by⟩ := h_renewing.settled
  refine ⟨settled, h_since, fun payment h_mem => ?_, ?_⟩
  · obtain ⟨call, ⟨i, rfl⟩, h_of⟩ := h_by payment h_mem
    exact ⟨i, h_of⟩
  · intro i result h_ret h_id h_matches h_new
    have h_end := h_ends i
    rw [h_ret] at h_end
    have h_recorded : recorded c.store (calls i).key :=
      h_end.of_ret h_known.refl (h_matches.advances h_renewing.advances)
    refine h_renewing.mem_settled h_since ?_ h_recorded h_new
    rintro other ⟨j, rfl⟩ h_reference
    rw [h_distinct h_reference, h_id]

/-- An entitlement writer that replaces the active row. -/
def regrant : GrantPermission := fun permissions grant =>
  .ok (permissions.filter (fun row => ¬ row.ActiveFor grant.userId grant.libraryId) ++ [{
    userId := grant.userId
    libraryId := grant.libraryId
    subscriptionId := grant.subscriptionId
    isActive := true
    expiresAt := some grant.expiresAt }])

/-- Two payments in January. -/
def renewals : Bool → SettleCall
  | false => { paymentFor "second" january20 with
      grantPermission := regrant }
  | true => { paymentFor "third" january25 with
      grantPermission := regrant }

def renewedInTurn : Config Res MarketError SettlementResult MarketStore Bool :=
  executeWhere Marketplace.handle ExtendsStored ⟨unsettled paidUntilFebruary, fun i => settle (renewals i)⟩
    [false, false, false, false, true, true, true, true]

def expiryOf (s : MarketStore) : Option Instant :=
  (s.subscriptions.get? "subscription").bind (·.periodExpiry)

/-- One after the other, the two payments buy until April 5. -/
theorem no_paid_month_lost_in_turn :
    expiryOf renewedInTurn.store = some (onDay 4 5 (by decide) (by decide)) ∧
      ∃ settled, SettledSince (unsettled paidUntilFebruary) renewedInTurn.store "subscription"
        (onDay 2 5 (by decide) (by decide)) settled := by
  have h_distinct : Function.Injective fun i => (renewals i).providerReference := by
    show ∀ i j, (renewals i).providerReference = (renewals j).providerReference → i = j
    decide
  have h_run := no_paid_month_lost renewals (by decide) h_distinct (fun _ => False)
    (show (unsettled paidUntilFebruary).subscriptions.get? "subscription" = some paidUntilFebruary
      from by decide +kernel) rfl rfl (c := renewedInTurn) (executeWhere_reachable _)
  have h_expiry : expiryOf renewedInTurn.store = some (onDay 4 5 (by decide) (by decide)) := by
    decide +kernel
  exact ⟨h_expiry, h_run.imp fun _ h => h.1⟩

/-! ## Two renewals at once -/

/-- Both payments read February 5 before either is written. -/
def renewedAtOnce : Config Res MarketError SettlementResult MarketStore Bool :=
  executeWhere Marketplace.handle (fun _ _ => True)
    ⟨unsettled paidUntilFebruary, fun i => settle (renewals i)⟩
    [false, true, false, false, false, true, true, true]

/-- Both calls return, both payments are recorded, and the period ends on March 5; in either
    order they would have bought until April 5. -/
theorem paid_month_lost :
    Relation.ReflTransGen (StepWhere Marketplace.handle (fun _ => False) fun _ _ => True)
        ⟨unsettled paidUntilFebruary, fun i => settle (renewals i)⟩ renewedAtOnce ∧
      (∀ i, ∃ result, renewedAtOnce.pool i = .ret result) ∧
      expiryOf renewedAtOnce.store = some (onDay 3 5 (by decide) (by decide)) ∧
      settledInTurn (onDay 2 5 (by decide) (by decide)) (payments renewedAtOnce.store "subscription")
        = .ok (onDay 4 5 (by decide) (by decide)) ∧
      settledInTurn (onDay 2 5 (by decide) (by decide))
        (payments renewedAtOnce.store "subscription").reverse
        = .ok (onDay 4 5 (by decide) (by decide)) ∧
      ¬ ∃ settled, SettledSince (unsettled paidUntilFebruary) renewedAtOnce.store "subscription"
        (onDay 2 5 (by decide) (by decide)) settled := by
  have h_expiry : expiryOf renewedAtOnce.store = some (onDay 3 5 (by decide) (by decide)) := by
    decide +kernel
  have h_turn : settledInTurn (onDay 2 5 (by decide) (by decide))
      (payments renewedAtOnce.store "subscription") = .ok (onDay 4 5 (by decide) (by decide)) := by
    decide +kernel
  refine ⟨executeWhere_reachable _, fun i => ?_, h_expiry, h_turn, by decide +kernel, ?_⟩
  · cases i with
    | false => exact ⟨_, rfl⟩
    | true => exact ⟨_, rfl⟩
  · rintro ⟨settled, h_payments, -, row, expiry, h_row, -, h_stored, h_settled⟩
    have h_all : payments renewedAtOnce.store "subscription" = settled := h_payments
    rw [h_all, h_settled] at h_turn
    rw [expiryOf, h_row] at h_expiry
    have h_same : some expiry = some (onDay 3 5 (by decide) (by decide)) :=
      h_stored.symm.trans h_expiry
    cases h_turn
    revert h_same
    decide +kernel

end VyomQuant.Marketplace
