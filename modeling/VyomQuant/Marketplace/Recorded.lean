/-
  VyomQuant.Marketplace.Recorded

  When a settle call leaves its payment in the ledger, while another writer changes the
  status of the subscription at most once.

  The ledger row and the transition are one statement, so a transition that is refused takes
  the ledger row with it, and each further attempt issues the same statement again, from the
  row that was read first.  `payment_recorded_iff` says when the first one is accepted.
-/

import VyomQuant.Marketplace.Refunds

namespace VyomQuant.Marketplace

open Except Program

/-! ## The condition -/

/-- The guard and the period check let the payment move the subscription as it is stored: the
    new period can be represented, and the stored one was overtaken by this payment or one
    that is recorded, unless the subscription is active. -/
structure Transitions (call : SettleCall) (row : SubscriptionRow) (s : MarketStore) : Prop where
  period : ∃ start expiry, decidePeriod row call.confirmationInstant = .ok (start, expiry) ∧
    start < expiry
  paid : row.status = .active ∨ ∀ expiry ∈ row.periodExpiry, expiry ≤ call.confirmationInstant ∨
    ∃ payment ∈ payments s call.subscriptionId, expiry ≤ payment.settledAt

/-- What `settle` and its caller checked: a payment with a reference, a subscription id and an
    amount in range. -/
structure SettleCall.WellFormed (call : SettleCall) : Prop where
  payment : call.isReversal = false
  reference : call.providerReference ≠ ""
  subscription : call.subscriptionId ≠ ""
  amount : 0 ≤ call.amountMinor ∧ call.amountMinor ≤ MAX_AMOUNT_MINOR

/-- Another writer that changes the status of the subscription, once it finds the row, and
    does not deliver the same payment. -/
structure ChangesStatus (call : SettleCall) (row : SubscriptionRow)
    (change : MarketStore → MarketStore) : Prop where
  advances : ∀ s, Advances s (change s)
  keys : ∀ s, (s.settlements.map SettlementRow.key).Nodup →
    ((change s).settlements.map SettlementRow.key).Nodup
  other : ∀ s, recorded (change s) call.key → recorded s call.key
  moved : row.status ≠ .refunded → ∀ s, s.subscriptions.get? call.subscriptionId = some row →
    ∃ later, (change s).subscriptions.get? call.subscriptionId = some later ∧
      later.status ≠ row.status

/-- The ledger rows of the payment. -/
def rowsOf (s : MarketStore) (call : SettleCall) : List SettlementRow :=
  s.settlements.filter fun row => row.key = call.key

theorem rowsOf_length_eq_one_iff {s : MarketStore} {call : SettleCall}
    (h_keys : (s.settlements.map SettlementRow.key).Nodup) :
    (rowsOf s call).length = 1 ↔ recorded s call.key := by
  have h_le : (rowsOf s call).length ≤ 1 := by
    have h_count : ((s.settlements.map SettlementRow.key).filter fun key => key = call.key).length ≤ 1 := by
      rw [← List.countP_eq_length_filter]
      have h_once := List.nodup_iff_count_le_one.mp h_keys call.key
      rw [List.count] at h_once
      refine le_trans (le_of_eq (List.countP_congr fun key _ => ?_)) h_once
      rw [beq_iff_eq, decide_eq_true_eq]
    rw [List.filter_map, List.length_map] at h_count
    exact h_count
  rw [rowsOf] at h_le ⊢
  constructor
  · intro h_one
    obtain ⟨row, h_row⟩ := List.length_eq_one_iff.mp h_one
    have h_mem : row ∈ s.settlements.filter fun row => row.key = call.key :=
      h_row ▸ List.mem_singleton_self row
    obtain ⟨h_there, h_key⟩ := List.mem_filter.mp h_mem
    exact ⟨row, h_there, of_decide_eq_true h_key⟩
  · rintro ⟨row, h_there, h_key⟩
    have h_mem : row ∈ s.settlements.filter fun row => row.key = call.key :=
      List.mem_filter.mpr ⟨h_there, decide_eq_true h_key⟩
    have h_pos := List.length_pos_of_mem h_mem
    omega

/-! ## What the database function admits -/

section Admits

variable {call : SettleCall} {row : SubscriptionRow} {s : MarketStore} {shares : ℤ × ℤ}
  {decision : Decision}

theorem splitNinetyTen_of {amount : ℤ} (h : 0 ≤ amount ∧ amount ≤ MAX_AMOUNT_MINOR) :
    ∃ shares, splitNinetyTen amount = .ok shares ∧
      0 ≤ shares.1 ∧ 0 ≤ shares.2 ∧ shares.1 + shares.2 = amount := by
  have h_in : ¬ (amount < 0 ∨ MAX_AMOUNT_MINOR < amount) := by omega
  refine ⟨(amount * 90 / 100, amount - amount * 90 / 100), ?_, ?_, ?_, ?_⟩
  · exact bind_eq_ok.mpr ⟨(), refuseIf_eq_ok.mpr h_in, rfl⟩
  · show 0 ≤ amount * 90 / 100
    omega
  · show 0 ≤ amount - amount * 90 / 100
    omega
  · show amount * 90 / 100 + (amount - amount * 90 / 100) = amount
    omega

theorem updateSubscriptionWhere_of {id : String} {condition : SubscriptionRow → Prop}
    [DecidablePred condition] {values : SubscriptionRow → SubscriptionRow}
    (h_row : s.subscriptions.get? id = some row) (h_condition : condition row)
    (h_guard : marketplaceSubscriptionGuard s.settlements row (values row) = .ok ())
    (h_period : activeHasPeriod (values row)) :
    updateSubscriptionWhere s id condition values
      = .ok (some (values row), { s with subscriptions := s.subscriptions.put (values row) }) := by
  have h_update : updateSubscription s row (values row)
      = .ok { s with subscriptions := s.subscriptions.put (values row) } :=
    bind_eq_ok.mpr ⟨(), h_guard, bind_eq_ok.mpr
      ⟨(), refuseIf_eq_ok.mpr (not_not.mpr h_period), rfl⟩⟩
  unfold updateSubscriptionWhere
  rw [h_row]
  simp only [if_pos h_condition]
  exact bind_eq_ok.mpr ⟨_, h_update, rfl⟩

theorem insertSettlement_of (h_call : call.WellFormed) (h_new : ¬ recorded s call.key)
    (h_shares : 0 ≤ shares.1 ∧ 0 ≤ shares.2 ∧ shares.1 + shares.2 = call.amountMinor) :
    insertSettlement s (settlementPayload call shares row)
      = .ok (true, { s with settlements := s.settlements ++ [settlementPayload call shares row] }) := by
  have h_not : ¬ recorded s (settlementPayload call shares row).key := h_new
  have h_checks : settlementChecks (settlementPayload call shares row) := by
    refine ⟨h_call.amount.1, h_shares.1, h_shares.2.1, h_shares.2.2, ?_⟩
    show call.isReversal = true ↔ call.reversedReference ≠ none
    rw [SettleCall.reversedReference, h_call.payment]
    simp
  unfold insertSettlement
  rw [if_neg h_not]
  exact bind_eq_ok.mpr ⟨(), refuseIf_eq_ok.mpr (not_not.mpr h_checks), rfl⟩

theorem record_of_none (h_call : call.WellFormed) (h_new : ¬ recorded s call.key)
    (h_shares : 0 ≤ shares.1 ∧ 0 ≤ shares.2 ∧ shares.1 + shares.2 = call.amountMinor) :
    recordAndTransitionSettlement s
        (recordArgs call (settlementPayload call shares row) row none false)
      = .ok (⟨true, false⟩,
          { s with settlements := s.settlements ++ [settlementPayload call shares row] }) :=
  bind_eq_ok.mpr ⟨(), refuseIf_eq_ok.mpr h_call.reference, bind_eq_ok.mpr
    ⟨_, insertSettlement_of h_call h_new h_shares, rfl⟩⟩

theorem record_of_some (h_call : call.WellFormed) (h_new : ¬ recorded s call.key)
    (h_shares : 0 ≤ shares.1 ∧ 0 ≤ shares.2 ∧ shares.1 + shares.2 = call.amountMinor)
    (h_row : s.subscriptions.get? call.subscriptionId = some row)
    (h_guard : marketplaceSubscriptionGuard
      (s.settlements ++ [settlementPayload call shares row]) row (decision.apply row) = .ok ())
    (h_period : activeHasPeriod (decision.apply row)) :
    ∃ t, recordAndTransitionSettlement s
        (recordArgs call (settlementPayload call shares row) row (some decision) false)
      = .ok (⟨true, true⟩, t) := by
  have h_found : ({ s with settlements := s.settlements ++ [settlementPayload call shares row] } :
      MarketStore).subscriptions.get? call.subscriptionId = some row := h_row
  have h_update := @updateSubscriptionWhere_of row _ call.subscriptionId
    (fun current => current.status = row.status) _ decision.apply h_found rfl h_guard h_period
  have h_apply : ∃ t, applyTransition
      { s with settlements := s.settlements ++ [settlementPayload call shares row] }
      (recordArgs call (settlementPayload call shares row) row (some decision) false) decision
        = .ok t :=
    ⟨_, bind_eq_ok.mpr ⟨_, h_update, bind_eq_ok.mpr ⟨(), refuseIf_eq_ok.mpr (by simp), rfl⟩⟩⟩
  obtain ⟨t, h_t⟩ := h_apply
  exact ⟨t, bind_eq_ok.mpr ⟨(), refuseIf_eq_ok.mpr h_call.reference, bind_eq_ok.mpr
    ⟨_, insertSettlement_of h_call h_new h_shares, bind_eq_ok.mpr ⟨t, h_t, rfl⟩⟩⟩⟩

theorem record_of_moved {later : SubscriptionRow} (h_new : ¬ recorded s call.key)
    (h_later : s.subscriptions.get? call.subscriptionId = some later)
    (h_moved : later.status ≠ row.status) :
    ∃ e, recordAndTransitionSettlement s
      (recordArgs call (settlementPayload call shares row) row (some decision) false) = .error e := by
  cases h_record : recordAndTransitionSettlement s
      (recordArgs call (settlementPayload call shares row) row (some decision) false) with
  | error e => exact ⟨e, rfl⟩
  | ok pair =>
    obtain ⟨result, t⟩ := pair
    rcases recordAndTransition_cases h_record with ⟨h_recorded, -⟩ | ⟨-, h_done⟩
    · exact absurd h_recorded h_new
    · rcases h_done with ⟨h_none, -⟩ | ⟨decided, old, -, h_applied⟩
      · cases h_none
      · have h_found : s.subscriptions.get? call.subscriptionId = some old := by
          rw [show call.subscriptionId = old.id from h_applied.id_eq.symm, h_applied.updated.found]
        rw [h_later] at h_found
        cases h_found
        exact absurd h_applied.expected h_moved

/-! ### The guard, for a payment -/

theorem guard_payment_iff {settlements : List SettlementRow} {old new : SubscriptionRow}
    (h_status : old.status ≠ .refunded) (h_new : new.status = .active)
    (h_expiry : new.periodExpiry ≠ old.periodExpiry) :
    marketplaceSubscriptionGuard settlements old new = .ok () ↔
      old.status = .active ∨ ∃ payment ∈ settlements, payment.PaymentOf new.id ∧
        ∀ expiry ∈ old.periodExpiry, expiry ≤ payment.settledAt := by
  by_cases h_active : old.status = .active
  · rw [marketplaceSubscriptionGuard, if_pos (h_new.trans h_active.symm)]
    exact iff_of_true rfl (Or.inl h_active)
  · have h_move : ¬ new.status = old.status := fun h_same => h_active (h_same ▸ h_new)
    have h_allowed : allowedTransition old.status new.status :=
      h_new ▸ allowedTransition_of_eligible ((eligible_iff _).mpr ⟨h_active, h_status⟩)
    have h_shape : ¬ reinstatementShape old new := fun h_shape => h_expiry h_shape.2.2.2.1
    rw [marketplaceSubscriptionGuard, if_neg h_move, if_neg (not_not.mpr h_allowed), if_pos h_new,
      if_neg h_shape, refuseIf_eq_ok, not_not]
    exact ⟨Or.inr, fun h => h.resolve_left h_active⟩

theorem paid_iff (h_call : call.WellFormed) :
    (∃ payment ∈ s.settlements ++ [settlementPayload call shares row],
        payment.PaymentOf call.subscriptionId ∧
          ∀ expiry ∈ row.periodExpiry, expiry ≤ payment.settledAt) ↔
      ∀ expiry ∈ row.periodExpiry, expiry ≤ call.confirmationInstant ∨
        ∃ payment ∈ payments s call.subscriptionId, expiry ≤ payment.settledAt := by
  constructor
  · rintro ⟨payment, h_mem, h_of, h_after⟩ expiry h_expiry
    rcases List.mem_append.mp h_mem with h_old | h_this
    · exact Or.inr ⟨payment, mem_payments.mpr ⟨h_old, h_of⟩, h_after expiry h_expiry⟩
    · rw [List.mem_singleton.mp h_this] at h_after
      exact Or.inl (h_after expiry h_expiry)
  · intro h_paid
    have h_own : (settlementPayload call shares row).PaymentOf call.subscriptionId :=
      ⟨rfl, h_call.payment⟩
    have h_last : settlementPayload call shares row ∈ s.settlements ++ [settlementPayload call shares row] :=
      List.mem_append_right _ (List.mem_singleton_self _)
    cases h_stored : row.periodExpiry with
    | none => exact ⟨_, h_last, h_own, fun expiry h_none => nomatch h_none⟩
    | some stored =>
      rcases h_paid stored h_stored with h_now | ⟨payment, h_mem, h_then⟩
      · refine ⟨_, h_last, h_own, fun expiry h_expiry => ?_⟩
        cases h_expiry
        exact h_now
      · obtain ⟨h_there, h_of⟩ := mem_payments.mp h_mem
        refine ⟨payment, List.mem_append_left _ h_there, h_of, fun expiry h_expiry => ?_⟩
        cases h_expiry
        exact h_then

theorem decideTransition_of {start expiry : Instant} (h_status : row.status ≠ .refunded)
    (h_period : decidePeriod row call.confirmationInstant = .ok (start, expiry)) :
    decideTransition row false call.confirmationInstant = .ok (some {
      fromStatus := row.status
      toStatus := .active
      periodStart := some start
      periodExpiry := some expiry
      cancelledAt := none
      priorPeriodExpiry := row.periodExpiry }) := by
  have h_permitted : eligibleForActivation row.status ∨ row.status = .active := by
    rw [eligible_iff]
    by_cases h_active : row.status = .active
    · exact Or.inr h_active
    · exact Or.inl ⟨h_active, h_status⟩
  unfold decideTransition
  rw [if_neg Bool.false_ne_true, if_pos h_permitted]
  exact bind_eq_ok.mpr ⟨(start, expiry), h_period, rfl⟩

theorem decidePeriod_of_decides {instant : Instant}
    (h : decideTransition row false instant = .ok (some decision)) :
    ∃ start expiry, decidePeriod row instant = .ok (start, expiry) := by
  unfold decideTransition at h
  rw [if_neg Bool.false_ne_true] at h
  split at h
  · obtain ⟨⟨start, expiry⟩, h_period, -⟩ := bind_eq_ok.mp h
    exact ⟨start, expiry, h_period⟩
  · cases h

theorem transitions_iff (shares : ℤ × ℤ) (h_call : call.WellFormed) (h_id : row.id = call.subscriptionId)
    (h_status : row.status ≠ .refunded) :
    Transitions call row s ↔
      ∃ decision, decideTransition row false call.confirmationInstant = .ok (some decision) ∧
        marketplaceSubscriptionGuard (s.settlements ++ [settlementPayload call shares row]) row
          (decision.apply row) = .ok () ∧
        activeHasPeriod (decision.apply row) := by
  constructor
  · rintro ⟨⟨start, expiry, h_period, h_lt⟩, h_paid⟩
    refine ⟨_, decideTransition_of h_status h_period, ?_, fun _ =>
      ⟨start, rfl, expiry, rfl, h_lt⟩⟩
    rw [guard_payment_iff h_status rfl ?_]
    · rw [show (Decision.apply _ row).id = call.subscriptionId from h_id, paid_iff h_call]
      exact h_paid
    · intro h_same
      exact lt_irrefl expiry ((decidePeriod_eq_ok h_period).2 expiry h_same.symm)
  · rintro ⟨decision, h_decision, h_guard, h_active⟩
    obtain ⟨start, expiry, h_period⟩ := decidePeriod_of_decides h_decision
    rw [decideTransition_of h_status h_period] at h_decision
    cases h_decision
    obtain ⟨start', h_start, expiry', h_expiry, h_lt⟩ := h_active rfl
    cases h_start
    cases h_expiry
    refine ⟨⟨start, expiry, h_period, h_lt⟩, ?_⟩
    rw [guard_payment_iff h_status rfl ?_] at h_guard
    · rw [show (Decision.apply _ row).id = call.subscriptionId from h_id, paid_iff h_call] at h_guard
      exact h_guard
    · intro h_same
      exact lt_irrefl expiry ((decidePeriod_eq_ok h_period).2 expiry h_same.symm)

end Admits

/-! ## The attempts from the row that was read -/

section Attempts

variable {call : SettleCall} {row : SubscriptionRow} {s : MarketStore} {shares : ℤ × ℤ}
  {decision : Option Decision} {change : MarketStore → MarketStore}

/-- What the first attempt leaves behind once it read the row. -/
def cached (row : SubscriptionRow) : Attempt := { subscription := some row }

theorem settleOnce_cached
    (h_matches : row.priceMinor = some call.amountMinor ∧ row.currency = call.currency) :
    settleOnce call shares (cached row) =
      match decideTransition row call.isReversal call.confirmationInstant with
      | .error e => raise e
      | .ok decision =>
        statement (cached row) (.recordAndTransition
          (recordArgs call (settlementPayload call shares row) row decision false)) fun result =>
            if result.inserted then
              afterRecord call row .fresh ((cached row).written row decision call.isReversal)
            else resumeDuplicate call (settlementPayload call shares row) (cached row)
              (afterRecord call row) := by
  have h_not : ¬ (row.priceMinor ≠ some call.amountMinor ∨ row.currency ≠ call.currency) := by
    rw [not_or, not_not, not_not]
    exact h_matches
  have h_unsettled : ¬ ((cached row).settlementRecorded = true ∧ (cached row).transitionWritten = true) :=
    fun h => nomatch h.1
  show settleRow call shares row (cached row) = _
  rw [settleRow, if_neg h_not, recordAndTransition]
  exact if_neg h_unsettled

theorem settleAttempts_cached (shares : ℤ × ℤ)
    (h_matches : row.priceMinor = some call.amountMinor ∧ row.currency = call.currency)
    (h_decision : decideTransition row call.isReversal call.confirmationInstant = .ok decision)
    (attempts : ℕ) :
    ∃ next, settleAttempts call shares (attempts + 1) (cached row)
        = .call (.recordAndTransition
            (recordArgs call (settlementPayload call shares row) row decision false)) next ∧
      ∀ e, next (.error e) = settleAttempts call shares attempts (cached row) := by
  rw [settleAttempts, settleOnce_cached h_matches, h_decision]
  exact ⟨_, rfl, fun _ => rfl⟩

/-- While every attempt is refused, nothing but the change happens. -/
theorem settleAttempts_refused
    (h_matches : row.priceMinor = some call.amountMinor ∧ row.currency = call.currency)
    (h_decision : decideTransition row call.isReversal call.confirmationInstant = .ok decision)
    (attempts : ℕ) (during : Option ℕ)
    (h_here : ∃ e, recordAndTransitionSettlement s
      (recordArgs call (settlementPayload call shares row) row decision false) = .error e)
    (h_after : during ≠ none → ∃ e, recordAndTransitionSettlement (change s)
      (recordArgs call (settlementPayload call shares row) row decision false) = .error e) :
    ((settleAttempts call shares attempts (cached row)).runAmid handle change during s).2 = s ∨
      (during ≠ none ∧
        ((settleAttempts call shares attempts (cached row)).runAmid handle change during s).2
          = change s) := by
  induction attempts generalizing during s with
  | zero =>
    match during with
    | none => exact Or.inl rfl
    | some 0 => exact Or.inr ⟨by simp, rfl⟩
    | some (k + 1) => exact Or.inl rfl
  | succ attempts ih =>
    obtain ⟨next, h_next, h_retry⟩ := settleAttempts_cached shares h_matches h_decision
      attempts
    obtain ⟨e, h_e⟩ := h_here
    have h_handle : handle (.recordAndTransition
        (recordArgs call (settlementPayload call shares row) row decision false)) s
          = (.error e, s) := by
      simp only [handle, execute, h_e]
    rw [h_next]
    match during with
    | none =>
      simp only [runAmid, h_handle, h_retry]
      exact ih none ⟨e, h_e⟩ fun h => absurd rfl h
    | some 0 =>
      simp only [runAmid, h_handle, h_retry]
      rcases ih none (h_after (by simp)) fun h => absurd rfl h with h_same | ⟨h_none, -⟩
      · exact Or.inr ⟨by simp, h_same⟩
      · exact absurd rfl h_none
    | some (k + 1) =>
      simp only [runAmid, h_handle, h_retry]
      rcases ih (some k) ⟨e, h_e⟩ fun _ => h_after (by simp) with h_same | ⟨-, h_changed⟩
      · exact Or.inl h_same
      · exact Or.inr ⟨by simp, h_changed⟩

theorem settleAttempts_accepted {result : RecordResult} {t : MarketStore}
    (h_matches : row.priceMinor = some call.amountMinor ∧ row.currency = call.currency)
    (h_decision : decideTransition row call.isReversal call.confirmationInstant = .ok decision)
    (h_advances : ∀ u, Advances u (change u)) (attempts : ℕ) (during : Option ℕ)
    (h_record : recordAndTransitionSettlement s
      (recordArgs call (settlementPayload call shares row) row decision false) = .ok (result, t)) :
    recorded ((settleAttempts call shares (attempts + 1) (cached row)).runAmid handle change
      during s).2 call.key := by
  obtain ⟨next, h_next, -⟩ := settleAttempts_cached shares h_matches h_decision attempts
  have h_handle : handle (.recordAndTransition
      (recordArgs call (settlementPayload call shares row) row decision false)) s
        = (.ok result, t) := by
    simp only [handle, execute, h_record]
  have h_recorded : recorded t call.key := recorded_of_record h_record
  have h_keep : ∀ during p, ∀ u, recorded u call.key →
      recorded ((p : Program Res MarketError SettlementResult).runAmid handle change during u).2
        call.key := fun during p u h_u =>
    runAmid_invariant (fun op v h_v => (handle_advances op v).recorded h_v)
      (fun v h_v => (h_advances v).recorded h_v) during h_u
  rw [h_next]
  match during with
  | none =>
    simp only [runAmid, h_handle]
    exact h_keep none _ t h_recorded
  | some 0 =>
    simp only [runAmid, h_handle]
    exact h_keep none _ _ ((h_advances t).recorded h_recorded)
  | some (k + 1) =>
    simp only [runAmid, h_handle]
    exact h_keep (some k) _ t h_recorded

theorem settle_read (h_call : call.WellFormed) :
    ∃ shares : ℤ × ℤ, (0 ≤ shares.1 ∧ 0 ≤ shares.2 ∧ shares.1 + shares.2 = call.amountMinor) ∧
      ∃ attempts next, settle call = .call (.readSubscription call.subscriptionId) next ∧
        ∀ row, next (.ok (some row)) = settleAttempts call shares (attempts + 1) (cached row) := by
  obtain ⟨shares, h_split, h_shares⟩ := splitNinetyTen_of h_call.amount
  obtain ⟨attempts, h_attempts⟩ := Nat.exists_eq_add_of_le' call.attempts_pos
  have h_blank : ¬ (call.providerReference = "" ∨ call.subscriptionId = "") :=
    not_or.mpr ⟨h_call.reference, h_call.subscription⟩
  refine ⟨shares, h_shares, attempts, ?_⟩
  rw [settle, if_neg h_blank, h_split, h_attempts]
  exact ⟨_, rfl, fun _ => rfl⟩

end Attempts

/-! ## The payment in the ledger -/

section Recorded

variable {call : SettleCall} {row : SubscriptionRow} {s : MarketStore} {shares : ℤ × ℤ}
  {change : MarketStore → MarketStore}

theorem recorded_of_refunded (h_call : call.WellFormed)
    (h_shares : 0 ≤ shares.1 ∧ 0 ≤ shares.2 ∧ shares.1 + shares.2 = call.amountMinor)
    (h_matches : row.priceMinor = some call.amountMinor ∧ row.currency = call.currency)
    (h_advances : ∀ u, Advances u (change u)) (h_refunded : row.status = .refunded)
    (h_new : ¬ recorded s call.key) (attempts : ℕ) (during : Option ℕ) :
    recorded ((settleAttempts call shares (attempts + 1) (cached row)).runAmid handle change
      during s).2 call.key := by
  have h_not : ¬ (eligibleForActivation row.status ∨ row.status = .active) := by
    rw [h_refunded]
    decide
  have h_decision : decideTransition row call.isReversal call.confirmationInstant = .ok none := by
    rw [h_call.payment, decideTransition, if_neg Bool.false_ne_true, if_neg h_not]
  exact settleAttempts_accepted h_matches h_decision h_advances attempts during
    (record_of_none h_call h_new h_shares)

/-- An attempt that ends before the database function, or is refused by it every time. -/
theorem not_recorded_of_refused (h_call : call.WellFormed)
    (h_matches : row.priceMinor = some call.amountMinor ∧ row.currency = call.currency)
    (h_status : row.status ≠ .refunded) (h_new : ¬ recorded s call.key)
    (h_other : ∀ u, recorded (change u) call.key → recorded u call.key)
    (attempts : ℕ) (during : Option ℕ)
    (h_here : ∀ decision, decideTransition row false call.confirmationInstant = .ok (some decision) →
      ∃ e, recordAndTransitionSettlement s
        (recordArgs call (settlementPayload call shares row) row (some decision) false) = .error e)
    (h_after : during ≠ none → ∀ decision, ∃ e, recordAndTransitionSettlement (change s)
      (recordArgs call (settlementPayload call shares row) row (some decision) false) = .error e) :
    ¬ recorded ((settleAttempts call shares (attempts + 1) (cached row)).runAmid handle change
      during s).2 call.key := by
  cases h_decision : decideTransition row false call.confirmationInstant with
  | error e =>
    -- The period cannot be computed: the call raises.
    rw [settleAttempts, settleOnce_cached h_matches, h_call.payment, h_decision]
    match during with
    | none => exact h_new
    | some _ => exact h_new
  | ok decision =>
    cases decision with
    | none => exact absurd (refunded_of_decides_nothing h_decision) h_status
    | some decision =>
      have h_decides : decideTransition row call.isReversal call.confirmationInstant
          = .ok (some decision) := by rw [h_call.payment, h_decision]
      rcases settleAttempts_refused h_matches h_decides (attempts + 1) during
        (h_here decision h_decision) (fun h => h_after h decision) with h_same | ⟨-, h_changed⟩
      · rw [h_same]
        exact h_new
      · rw [h_changed]
        exact fun h_recorded => h_new (h_other s h_recorded)

theorem recorded_iff_transitions (h_call : call.WellFormed)
    (h_shares : 0 ≤ shares.1 ∧ 0 ≤ shares.2 ∧ shares.1 + shares.2 = call.amountMinor)
    (h_row : s.subscriptions.get? call.subscriptionId = some row)
    (h_matches : row.priceMinor = some call.amountMinor ∧ row.currency = call.currency)
    (h_change : ChangesStatus call row change) (h_status : row.status ≠ .refunded)
    (h_new : ¬ recorded s call.key) (attempts : ℕ) (during : Option ℕ) :
    recorded ((settleAttempts call shares (attempts + 1) (cached row)).runAmid handle change
      during s).2 call.key ↔ Transitions call row s := by
  have h_id : row.id = call.subscriptionId := (KeyedList.mem_of_get? h_row).2
  rw [transitions_iff shares h_call h_id h_status]
  constructor
  · intro h_recorded
    by_contra h_not
    refine not_recorded_of_refused h_call h_matches h_status h_new h_change.other attempts during
      (fun decision h_decision => ?_) (fun _ decision => ?_) h_recorded
    · cases h_record : recordAndTransitionSettlement s
          (recordArgs call (settlementPayload call shares row) row (some decision) false) with
      | error e => exact ⟨e, rfl⟩
      | ok pair =>
        obtain ⟨result, t⟩ := pair
        rcases recordAndTransition_cases h_record with ⟨h_there, -⟩ | ⟨-, h_done⟩
        · exact absurd h_there h_new
        · rcases h_done with ⟨h_none, -⟩ | ⟨decided, old, h_some, h_applied⟩
          · cases h_none
          · cases h_some
            have h_found : s.subscriptions.get? call.subscriptionId = some old := by
              rw [show call.subscriptionId = old.id from h_applied.id_eq.symm,
                h_applied.updated.found]
            rw [h_row] at h_found
            cases h_found
            have h_guard := h_applied.updated.guard
            rw [ledgerWith, if_neg (show ¬ recorded s (recordArgs call
              (settlementPayload call shares row) row (some decision) false).row.key from h_new)]
              at h_guard
            exact absurd ⟨decision, h_decision, h_guard, h_applied.updated.period⟩ h_not
    · obtain ⟨later, h_later, h_moved⟩ := h_change.moved h_status s h_row
      exact record_of_moved (fun h => h_new (h_change.other s h)) h_later h_moved
  · rintro ⟨decision, h_decision, h_guard, h_period⟩
    have h_decides : decideTransition row call.isReversal call.confirmationInstant
        = .ok (some decision) := by rw [h_call.payment, h_decision]
    obtain ⟨t, h_t⟩ := record_of_some h_call h_new h_shares h_row h_guard h_period
    exact settleAttempts_accepted h_matches h_decides h_change.advances attempts during h_t

theorem handle_keys (op : MarketOp) (s : MarketStore)
    (h_keys : (s.settlements.map SettlementRow.key).Nodup) :
    ((handle op s).2.settlements.map SettlementRow.key).Nodup := by
  refine handle_cases (I := fun t => (t.settlements.map SettlementRow.key).Nodup) h_keys
    (fun _ => h_keys) (fun _ _ => h_keys) ?_ ?_
  · intro s₁ old new s₂ h_I h_written _
    rw [h_written.store]
    exact h_I
  · intro args result t _ h_record
    rcases recordAndTransition_cases h_record with ⟨-, -, -, rfl⟩ | ⟨-, h_done⟩
    · exact h_keys
    · rcases h_done with ⟨-, rfl⟩ | ⟨decision, old, -, h_applied⟩
      · exact nodup_ledgerWith h_keys args.row
      · rw [h_applied.store]
        exact nodup_ledgerWith h_keys args.row

/-- With every statement executing and at most one change of the status after the read, a
    matching payment ends with one ledger row exactly if it had one before, or the
    subscription is refunded, or the status did not change before the first call of the
    database function and the payment lets the stored row become active. -/
theorem payment_recorded_iff (h_call : call.WellFormed)
    (h_keys : (s.settlements.map SettlementRow.key).Nodup)
    (h_row : s.subscriptions.get? call.subscriptionId = some row)
    (h_matches : row.priceMinor = some call.amountMinor ∧ row.currency = call.currency)
    (h_change : ChangesStatus call row change) (during : Option ℕ) :
    (rowsOf ((settle call).runAmid handle change during s).2 call).length = 1 ↔
      recorded s call.key ∨ row.status = .refunded ∨
        (during ≠ some 0 ∧ Transitions call row s) := by
  rw [rowsOf_length_eq_one_iff (runAmid_invariant handle_keys h_change.keys during h_keys)]
  by_cases h_old : recorded s call.key
  · refine iff_of_true (runAmid_invariant (I := fun t => recorded t call.key) ?_ ?_ during h_old)
      (Or.inl h_old)
    · exact fun op t h_t => (handle_advances op t).recorded h_t
    · exact fun t h_t => (h_change.advances t).recorded h_t
  · have h_changed : ¬ recorded (change s) call.key := fun h => h_old (h_change.other s h)
    obtain ⟨shares, h_shares, attempts, next, h_settle, h_next⟩ := settle_read h_call
    have h_read : handle (.readSubscription call.subscriptionId) s = (.ok (some row), s) := by
      simp only [handle, execute, h_row]
    rw [h_settle, or_iff_right h_old]
    by_cases h_refunded : row.status = .refunded
    · refine iff_of_true ?_ (Or.inl h_refunded)
      rcases during with _ | _ | k
      · simp only [runAmid, h_read, h_next]
        exact recorded_of_refunded h_call h_shares h_matches h_change.advances h_refunded h_old _ _
      · simp only [runAmid, h_read, h_next]
        exact recorded_of_refunded h_call h_shares h_matches h_change.advances h_refunded h_changed
          _ _
      · simp only [runAmid, h_read, h_next]
        exact recorded_of_refunded h_call h_shares h_matches h_change.advances h_refunded h_old _ _
    · rw [or_iff_right h_refunded]
      rcases during with _ | _ | k
      · simp only [runAmid, h_read, h_next]
        rw [recorded_iff_transitions h_call h_shares h_row h_matches h_change h_refunded h_old]
        exact (and_iff_right (by simp)).symm
      -- The row is moved right behind the read.
      · simp only [runAmid, h_read, h_next]
        obtain ⟨later, h_later, h_moved⟩ := h_change.moved h_refunded s h_row
        refine iff_of_false ?_ fun h => h.1 rfl
        exact not_recorded_of_refused h_call h_matches h_refunded h_changed h_change.other _ none
          (fun decision _ => record_of_moved h_changed h_later h_moved) fun h => absurd rfl h
      · simp only [runAmid, h_read, h_next]
        rw [recorded_iff_transitions h_call h_shares h_row h_matches h_change h_refunded h_old]
        exact (and_iff_right (by simp)).symm

end Recorded

/-! ## A hold during the call -/

theorem hold_changesStatus {call : SettleCall} {row : SubscriptionRow} (h_active : row.status = .active) :
    ChangesStatus call row fun s => (handle (.suspendSubscription call.subscriptionId) s).2 where
  advances := fun s => handle_advances _ s
  keys := fun s => handle_keys _ s
  other := fun s => handle_cases (I := fun t => recorded t call.key → recorded s call.key)
    (fun h => h) (fun _ h => h) (fun _ _ h => h) (fun s₁ old new s₂ h_I h_written _ h =>
      h_I (by rw [h_written.store] at h; exact h)) fun _ _ _ h => nomatch h
  moved := by
    intro _ s h_row
    have h_guard : marketplaceSubscriptionGuard s.settlements row
        { row with status := .suspended } = .ok () := by
      rw [marketplaceSubscriptionGuard, h_active]
      rfl
    have h_update : updateSubscriptionWhere s call.subscriptionId
        (fun current => current.status = .active) (fun current => { current with status := .suspended })
          = .ok (some { row with status := .suspended },
              { s with subscriptions := s.subscriptions.put { row with status := .suspended } }) :=
      updateSubscriptionWhere_of h_row h_active h_guard nofun
    have h_handle : (handle (.suspendSubscription call.subscriptionId) s).2
        = { s with subscriptions := s.subscriptions.put { row with status := .suspended } } := by
      simp only [handle, execute, h_update]
    refine ⟨{ row with status := .suspended }, ?_, ?_⟩
    · rw [h_handle, KeyedList.get?_put]
      exact if_pos (KeyedList.mem_of_get? h_row).2.symm
    · rw [h_active]
      exact nofun

/-- A payment in January, settled in up to five attempts. -/
def januaryPayment : SettleCall :=
  { paymentFor "second" january20 with
    attempts := 5
    attempts_pos := Nat.succ_pos 4 }

/-- The hold comes after the payment was written. -/
theorem payment_recorded_before_hold :
    (rowsOf ((settle januaryPayment).runAmid handle
      (fun s => (handle (.suspendSubscription "subscription") s).2) (some 1)
      (unsettled paidUntilFebruary)).2 januaryPayment).length = 1 := by
  have h_call : januaryPayment.WellFormed := ⟨rfl, by decide, by decide, by decide⟩
  have h_row : (unsettled paidUntilFebruary).subscriptions.get? "subscription"
      = some paidUntilFebruary := by decide +kernel
  have h_period : decidePeriod paidUntilFebruary januaryPayment.confirmationInstant
      = .ok (onDay 1 5 (by decide) (by decide), onDay 3 5 (by decide) (by decide)) := by
    decide +kernel
  have h_keys : ((unsettled paidUntilFebruary).settlements.map SettlementRow.key).Nodup :=
    List.nodup_nil
  have h_iff := payment_recorded_iff h_call h_keys h_row ⟨rfl, rfl⟩ (hold_changesStatus rfl) (some 1)
  refine h_iff.mpr (Or.inr (Or.inr ⟨by decide, ⟨_, _, h_period, ?_⟩, Or.inl rfl⟩))
  decide +kernel

/-- A subscription that was paid until February 5 and cancelled on January 10. -/
def paidAndCancelled : MarketStore :=
  serve (unsettled checkedOut)
    [firstPayment, .cancel "subscription" "purchaser" january10]

/-- A payment inside the paid period of a cancelled subscription leaves no ledger row, and
    neither does one whose subscription is held between the read and the write. -/
theorem confirmed_payment_not_recorded :
    Relation.ReflTransGen (Serves fun _ _ => True) (unsettled checkedOut) paidAndCancelled ∧
      januaryPayment.Matches paidAndCancelled ∧
      (rowsOf ((settle januaryPayment).runAmid handle id none paidAndCancelled).2
        januaryPayment).length = 0 ∧
      (rowsOf ((settle januaryPayment).runAmid handle
        (fun s => (handle (.suspendSubscription "subscription") s).2) (some 0)
        (unsettled paidUntilFebruary)).2 januaryPayment).length = 0 := by
  have h_run : Relation.ReflTransGen (Serves fun _ _ => True) (unsettled checkedOut)
      paidAndCancelled :=
    .tail (.tail .refl (.request firstPayment firstPayment_fromProvider trivial))
      (.request (.cancel _ _ _) trivial trivial)
  have h_row : ((paidAndCancelled.subscriptions.get? "subscription").map fun row =>
      (row.priceMinor, row.currency)) = some (some 1000, .usd) := by decide +kernel
  refine ⟨h_run, ?_, by decide +kernel, by decide +kernel⟩
  obtain ⟨row, h_some, h_pair⟩ := Option.map_eq_some_iff.mp h_row
  exact ⟨row, h_some, congrArg Prod.fst h_pair, congrArg Prod.snd h_pair⟩

end VyomQuant.Marketplace
