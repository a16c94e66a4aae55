/-
  VyomQuant.Marketplace.Settling

  What `settle` does among the other writers of the tables.

  `handle_cases` takes a statement apart once: it leaves subscriptions and ledger alone,
  or writes the status of a row, or is a call of the database function.  From it,
  `handle_advances`: the ledger only grows, rows stay where they are, and nothing leaves
  `refunded`.

  `settle_relies` follows a settle call through its attempts.  Each call of the database
  function it issues carries a decision made from a row it read (`DecidedFrom`), and what
  is known of such a row is a parameter: it has to survive what the others do.
-/

import VyomQuant.Marketplace.Requests

namespace VyomQuant.Marketplace

open Except Program

/-! ## What a statement can do -/

variable {op : MarketOp}

theorem handle_cases {I : MarketStore → Prop} {s : MarketStore} (h_init : I s)
    (h_grant : ∀ permissions, I { s with permissions })
    (h_history : ∀ row, op = .insertTransition row → I { s with transitions := s.transitions ++ [row] })
    (h_write : ∀ s₁ old new s₂, I s₁ → StatusWritten s₁ old new s₂ → (new.status ≠ .active ∨ (s₁ = s ∧ op = .reinstateSubscription old.id old.status)) → I s₂)
    (h_record : ∀ args result s', op = .recordAndTransition args → recordAndTransitionSettlement s args = .ok (result, s') → I s') :
    I (handle op s).2 := by
  refine handle_invariant h_init fun answer s' h => ?_
  cases op with
  | readSubscription id => cases h; exact h_init
  | recordAndTransition args => exact h_record args answer s' rfl h
  | grantPermission writer grant =>
    obtain ⟨permissions, -, h_store⟩ := bind_eq_ok.mp h
    cases h_store
    exact h_grant permissions
  | writeAudit reference => cases h; exact h_init
  | findSettledPayment providerReference => cases h; exact h_init
  | cancelSubscription id cancelledAt =>
    rcases updateSubscriptionWhere_cases h fun _ => rfl with ⟨_, rfl⟩ | h_row
    · exact h_init
    · obtain ⟨old, -, -, h_updated, -, rfl⟩ := h_row
      exact h_write s old _ _ h_init ⟨h_updated, rfl, rfl⟩ (Or.inl nofun)
  | suspendSubscription id =>
    rcases updateSubscriptionWhere_cases h fun _ => rfl with ⟨_, rfl⟩ | h_row
    · exact h_init
    · obtain ⟨old, -, -, h_updated, -, rfl⟩ := h_row
      exact h_write s old _ _ h_init ⟨h_updated, rfl, rfl⟩ (Or.inl nofun)
  | readExpiryCandidates now => cases h; exact h_init
  | expireCandidates now ids =>
    refine expireCandidates_invariant (fun s₁ old new s₂ h_I h_written h_status => ?_) h_init h
    refine h_write s₁ old new s₂ h_I h_written (Or.inl ?_)
    rw [h_status]
    decide
  | insertTransition row => cases h; exact h_history row rfl
  | readPayments id => cases h; exact h_init
  | reinstateSubscription id fromStatus =>
    rcases updateSubscriptionWhere_cases h fun _ => rfl with ⟨_, rfl⟩ | h_row
    · exact h_init
    · obtain ⟨old, rfl, rfl, h_updated, -, rfl⟩ := h_row
      exact h_write s old _ _ h_init ⟨h_updated, rfl, rfl⟩ (Or.inr ⟨rfl, rfl⟩)

/-! ## The tables only advance -/

structure SubscriptionRow.Continues (later row : SubscriptionRow) : Prop where
  userId : later.userId = row.userId
  libraryId : later.libraryId = row.libraryId
  priceMinor : later.priceMinor = row.priceMinor
  currency : later.currency = row.currency
  refunded : row.status = .refunded → later.status = .refunded

/-- The ledger grew, and each subscription is where it was or further on. -/
structure Advances (s s' : MarketStore) : Prop where
  ledger : s.settlements <+: s'.settlements
  absent : ∀ id, s.subscriptions.get? id = none → s'.subscriptions.get? id = none
  row : ∀ id row, s.subscriptions.get? id = some row →
    ∃ later, s'.subscriptions.get? id = some later ∧ later.Continues row

theorem SubscriptionRow.Continues.refl (row : SubscriptionRow) : row.Continues row :=
  ⟨rfl, rfl, rfl, rfl, fun h => h⟩

theorem SubscriptionRow.Continues.trans {a b c : SubscriptionRow} (h : b.Continues a)
    (h' : c.Continues b) : c.Continues a :=
  ⟨h'.userId.trans h.userId, h'.libraryId.trans h.libraryId, h'.priceMinor.trans h.priceMinor,
    h'.currency.trans h.currency, fun h_refunded => h'.refunded (h.refunded h_refunded)⟩

theorem Advances.refl (s : MarketStore) : Advances s s :=
  ⟨List.prefix_rfl, fun _ h => h, fun _ row h => ⟨row, h, .refl row⟩⟩

theorem Advances.trans {s s' s'' : MarketStore} (h : Advances s s') (h' : Advances s' s'') :
    Advances s s'' := by
  refine ⟨h.ledger.trans h'.ledger, fun id h_none => h'.absent id (h.absent id h_none), ?_⟩
  intro id row h_row
  obtain ⟨later, h_later, h_continues⟩ := h.row id row h_row
  obtain ⟨last, h_last, h_continues'⟩ := h'.row id later h_later
  exact ⟨last, h_last, h_continues.trans h_continues'⟩

theorem Advances.recorded {s s' : MarketStore} (h : Advances s s') {key : String × Bool}
    (h_recorded : recorded s key) : recorded s' key := by
  obtain ⟨row, h_mem, h_key⟩ := h_recorded
  exact ⟨row, h.ledger.subset h_mem, h_key⟩

theorem advances_of_updated {s s' : MarketStore} {ledger : List SettlementRow}
    {old new : SubscriptionRow} (h : RowUpdated s ledger old new)
    (h_same : new.userId = old.userId ∧ new.libraryId = old.libraryId ∧
      new.priceMinor = old.priceMinor ∧ new.currency = old.currency)
    (h_ledger : s.settlements <+: s'.settlements)
    (h_store : s'.subscriptions = s.subscriptions.put new) : Advances s s' := by
  refine ⟨h_ledger, fun id h_none => ?_, fun id row h_row => ?_⟩
  · rw [h_store, KeyedList.get?_put, h.id_eq]
    split
    · rename_i h_id
      rw [h_id, h.found] at h_none
      cases h_none
    · exact h_none
  · rw [h_store, KeyedList.get?_put, h.id_eq]
    split
    · rename_i h_id
      rw [h_id, h.found] at h_row
      cases h_row
      exact ⟨new, rfl, h_same.1, h_same.2.1, h_same.2.2.1, h_same.2.2.2, h.refunded⟩
    · exact ⟨row, h_row, .refl row⟩

theorem ledgerWith_extends (s : MarketStore) (row : SettlementRow) :
    s.settlements <+: ledgerWith s row := by
  unfold ledgerWith
  split
  · exact List.prefix_rfl
  · exact List.prefix_append _ _

theorem handle_advances (op : MarketOp) (s : MarketStore) : Advances s (handle op s).2 := by
  refine handle_cases (.refl s) (fun _ => ⟨List.prefix_rfl, fun _ h => h, fun _ row h => ⟨row, h, .refl row⟩⟩)
    (fun _ _ => ⟨List.prefix_rfl, fun _ h => h, fun _ row h => ⟨row, h, .refl row⟩⟩) ?_ ?_
  · intro s₁ old new s₂ h_I h_written _
    obtain ⟨h_updated, h_status, rfl⟩ := h_written
    refine h_I.trans (advances_of_updated h_updated ?_ List.prefix_rfl rfl)
    rw [h_status]
    exact ⟨rfl, rfl, rfl, rfl⟩
  · intro args result s' _ h
    rcases recordAndTransition_cases h with ⟨-, -, -, h_same⟩ | ⟨-, h_done⟩
    · exact h_same ▸ .refl s
    · rcases h_done with ⟨-, rfl⟩ | ⟨decision, old, -, h_applied⟩
      · exact ⟨ledgerWith_extends s args.row, fun _ h => h, fun _ row h => ⟨row, h, .refl row⟩⟩
      · refine advances_of_updated h_applied.updated ⟨rfl, rfl, rfl, rfl⟩ ?_ ?_
        · rw [h_applied.store]
          exact ledgerWith_extends s args.row
        · rw [h_applied.store]

theorem handle_error {s : MarketStore} {e : MarketError} (h : (handle op s).1 = .error e) :
    (handle op s).2 = s := by
  unfold handle at h ⊢
  split at h
  · cases h
  · rfl

theorem handle_ok {s : MarketStore} {answer : Res op} (h : (handle op s).1 = .ok answer) :
    execute s op = .ok (answer, (handle op s).2) := by
  unfold handle at h ⊢
  cases h_eq : execute s op with
  | ok pair =>
    rw [h_eq] at h
    cases h
    rfl
  | error e =>
    rw [h_eq] at h
    cases h

/-! ## What is known of a row that was read -/

/-- `K row s`: what is known in `s` of a row read earlier, while the others change the store
    along `R`.  It holds when the row is read, the others do not break it, nor does a
    statement of the call itself that writes no subscription or is reported as failed. -/
structure Known (faults : MarketError → Prop) (R : MarketStore → MarketStore → Prop)
    (K : SubscriptionRow → MarketStore → Prop) : Prop where
  refl : ∀ s, R s s
  trans : ∀ s s' s'', R s s' → R s' s'' → R s s''
  advances : ∀ s s', R s s' → Advances s s'
  read : ∀ s row, s.subscriptions.get? row.id = some row → K row s
  stable : ∀ row s s', K row s → R s s' → K row s'
  quiet : ∀ row s s', K row s → s'.subscriptions = s.subscriptions → K row s'
  lost : ∀ row s op e, K row s → faults e → K row (handle op s).2
  present : ∀ row s, K row s →
    ∃ later, s.subscriptions.get? row.id = some later ∧ later.Continues row

/-- The call of the database function writes the row of this settle call and carries the
    decision made from a row that was read; past a duplicate, the ledger row is there and the
    transition was still to be done. -/
def DecidedFrom (K : SubscriptionRow → MarketStore → Prop) (call : SettleCall) (args : RecordArgs)
    (s : MarketStore) : Prop :=
  (∃ shares cached, args.row = settlementPayload call shares cached) ∧
    ∃ row, K row s ∧ row.id = call.subscriptionId ∧
      decideTransition row call.isReversal call.confirmationInstant = .ok args.transition ∧
      args.expectedFromStatus = row.status ∧
      (args.proceedIfDuplicate = true →
        transitionPending call.isReversal row.status ∧ recorded s args.row.key)

variable {args : RecordArgs}

theorem DecidedFrom.decided {K : SubscriptionRow → MarketStore → Prop} {call : SettleCall}
    {s : MarketStore} (h : DecidedFrom K call args s) :
    ∃ row, K row s ∧ row.id = args.row.subscriptionId ∧
      decideTransition row args.row.isReversal args.row.settledAt = .ok args.transition ∧
      args.expectedFromStatus = row.status ∧
      (args.proceedIfDuplicate = true →
        transitionPending args.row.isReversal row.status ∧ recorded s args.row.key) := by
  obtain ⟨⟨shares, cached, h_row⟩, row, h_read⟩ := h
  refine ⟨row, ?_⟩
  rw [h_row] at h_read ⊢
  exact h_read

theorem DecidedFrom.mono {K K' : SubscriptionRow → MarketStore → Prop} {call : SettleCall}
    {s : MarketStore} (h : DecidedFrom K call args s) (h_K : ∀ row, K row s → K' row s) :
    DecidedFrom K' call args s :=
  ⟨h.1, h.2.imp fun row h_read => ⟨h_K row h_read.1, h_read.2⟩⟩

/-- Where a settle call may issue a statement: a read, a grant or an audit anywhere. -/
def MayIssue (K : SubscriptionRow → MarketStore → Prop) (call : SettleCall) :
    MarketOp → MarketStore → Prop
  | .recordAndTransition args, s => DecidedFrom K call args s
  | .readSubscription _, _ | .grantPermission _ _, _ | .writeAudit _, _ => True
  | _, _ => False

/-- A statement of a settle call leaves subscriptions and ledger alone, or is a call of the
    database function. -/
theorem handle_mayIssue {K : SubscriptionRow → MarketStore → Prop} {call : SettleCall}
    {I : MarketStore → Prop} {s : MarketStore} (h_may : MayIssue K call op s) (h_init : I s)
    (h_grant : ∀ permissions, I { s with permissions })
    (h_record : ∀ args result s', DecidedFrom K call args s → op = .recordAndTransition args → recordAndTransitionSettlement s args = .ok (result, s') → I s') :
    I (handle op s).2 := by
  refine handle_invariant h_init fun answer s' h => ?_
  cases op with
  | readSubscription id => cases h; exact h_init
  | recordAndTransition args => exact h_record args answer s' h_may rfl h
  | grantPermission writer grant =>
    obtain ⟨permissions, -, h_store⟩ := bind_eq_ok.mp h
    cases h_store
    exact h_grant permissions
  | writeAudit reference => cases h; exact h_init
  | _ => exact h_may.elim

/-- The columns of the ledger row a call writes that tell it apart. -/
def SettleCall.key (call : SettleCall) : String × Bool := (call.providerReference, call.isReversal)

/-- The subscription recorded the amount and currency that were confirmed. -/
def SettleCall.Matches (call : SettleCall) (s : MarketStore) : Prop :=
  ∃ row, s.subscriptions.get? call.subscriptionId = some row ∧
    row.priceMinor = some call.amountMinor ∧ row.currency = call.currency

/-- What an attempt resumes from: everything is written, or the row is one that was read. -/
def Holds (K : SubscriptionRow → MarketStore → Prop) (call : SettleCall) (state : Attempt)
    (s : MarketStore) : Prop :=
  (state.settlementRecorded = true ∧ state.transitionWritten = true ∧ recorded s call.key) ∨
    state.transitionWritten = false ∧
      ∀ row, state.subscription = some row → K row s ∧ row.id = call.subscriptionId

/-- What an answer says: a confirmation that matches its subscription is in the ledger. -/
def Settled (call : SettleCall) (s : MarketStore) : Prop := call.Matches s → recorded s call.key

def AttemptEnds (K : SubscriptionRow → MarketStore → Prop) (call : SettleCall) :
    Except MarketError AttemptEnd → MarketStore → Prop
  | .ok (.answered _), s => Settled call s
  | .ok (.retry state), s => Holds K call state s
  | .error _, _ => True

section Attempts

variable {faults : MarketError → Prop} {R : MarketStore → MarketStore → Prop}
  {K : SubscriptionRow → MarketStore → Prop} {call : SettleCall} {state : Attempt}
  {s s' : MarketStore}

theorem Holds.stable (h_known : Known faults R K) (h : Holds K call state s) (h_R : R s s') :
    Holds K call state s' := by
  rcases h with ⟨h_settled, h_written, h_recorded⟩ | ⟨h_unwritten, h_read⟩
  · exact Or.inl ⟨h_settled, h_written, (h_known.advances s s' h_R).recorded h_recorded⟩
  · exact Or.inr ⟨h_unwritten, fun row h_row =>
      ⟨h_known.stable row s s' (h_read row h_row).1 h_R, (h_read row h_row).2⟩⟩

theorem Holds.failed (h_known : Known faults R K) (h : Holds K call state s)
    (h_failed : s' = s ∨ ∃ e, faults e ∧ s' = (handle op s).2) : Holds K call state s' := by
  rcases h_failed with rfl | ⟨e, h_e, rfl⟩
  · exact h
  · rcases h with ⟨h_settled, h_written, h_recorded⟩ | ⟨h_unwritten, h_read⟩
    · exact Or.inl ⟨h_settled, h_written, (handle_advances op s).recorded h_recorded⟩
    · exact Or.inr ⟨h_unwritten, fun row h_row =>
        ⟨h_known.lost row s op e (h_read row h_row).1 h_e, (h_read row h_row).2⟩⟩

theorem Settled.of_recorded (h : recorded s call.key) : Settled call s := fun _ => h

theorem Settled.stable (h : Settled call s) (h_advances : Advances s s') : Settled call s' := by
  rintro ⟨later, h_later, h_price, h_currency⟩
  refine h_advances.recorded (h ?_)
  cases h_row : s.subscriptions.get? call.subscriptionId with
  | none =>
    rw [h_advances.absent _ h_row] at h_later
    cases h_later
  | some row =>
    obtain ⟨later', h_later', h_continues⟩ := h_advances.row _ row h_row
    rw [h_later'] at h_later
    cases h_later
    exact ⟨row, h_row, h_continues.priceMinor ▸ h_price, h_continues.currency ▸ h_currency⟩

theorem Settled.of_mismatch (h_known : Known faults R K) {row : SubscriptionRow} (h : K row s)
    (h_id : row.id = call.subscriptionId)
    (h_mismatch : row.priceMinor ≠ some call.amountMinor ∨ row.currency ≠ call.currency) :
    Settled call s := by
  rintro ⟨current, h_current, h_price, h_currency⟩
  obtain ⟨later, h_later, h_continues⟩ := h_known.present row s h
  rw [h_id, h_current] at h_later
  cases h_later
  rw [h_continues.priceMinor] at h_price
  rw [h_continues.currency] at h_currency
  rcases h_mismatch with h_ne | h_ne
  · exact absurd h_price h_ne
  · exact absurd h_currency h_ne

theorem statement_relies (h_known : Known faults R K) {next : Res op → Settling AttemptEnd}
    (h_holds : Holds K call state s) (h_may : ∀ s', R s s' → MayIssue K call op s')
    (h_next : ∀ s' answer, R s s' → execute s' op = .ok (answer, (handle op s').2) → (next answer).Relies handle faults R (MayIssue K call) (AttemptEnds K call) (handle op s').2) :
    (statement state op next).Relies handle faults R (MayIssue K call) (AttemptEnds K call) s := by
  intro s' h_R
  have h_retry : ∀ s'', (s'' = s' ∨ ∃ e, faults e ∧ s'' = (handle op s').2) →
      (ret (.retry state) : Settling AttemptEnd).Relies handle faults R (MayIssue K call)
        (AttemptEnds K call) s'' := fun s'' h_failed t h_R' =>
    ((h_holds.stable h_known h_R).failed h_known h_failed).stable h_known h_R'
  refine ⟨h_may s' h_R, fun answer s'' h_responds => ?_⟩
  cases h_responds with
  | answered =>
    cases h_answer : (handle op s').1 with
    | ok answer => exact h_next s' answer h_R (handle_ok h_answer)
    | error e => exact h_retry _ (Or.inl (handle_error h_answer))
  | lost h_e => exact h_retry _ (Or.inr ⟨_, h_e, rfl⟩)
  | failed h_e => exact h_retry _ (Or.inl rfl)

/-! ### Through one attempt -/

theorem answered_relies (h_known : Known faults R K) (result : SettlementResult)
    (h : recorded s call.key) :
    (ret (.answered result) : Settling AttemptEnd).Relies handle faults R (MayIssue K call)
      (AttemptEnds K call) s :=
  fun t h_R => Settled.of_recorded ((h_known.advances s t h_R).recorded h)

theorem recorded_after (h_known : Known faults R K) (h : recorded s call.key) (h_R : R s s') :
    recorded (handle op s').2 call.key :=
  (handle_advances op s').recorded ((h_known.advances s s' h_R).recorded h)

theorem auditCreated_relies (h_known : Known faults R K)
    (h_written : state.settlementRecorded = true ∧ state.transitionWritten = true)
    (h : recorded s call.key) :
    (auditCreated call state).Relies handle faults R (MayIssue K call) (AttemptEnds K call) s :=
  statement_relies h_known (Or.inl ⟨h_written.1, h_written.2, h⟩) (fun _ _ => trivial)
    fun _ _ h_R _ => answered_relies h_known _ (recorded_after h_known h h_R)

theorem grantAndAudit_relies (h_known : Known faults R K) (subscription : SubscriptionRow)
    (h_written : state.settlementRecorded = true ∧ state.transitionWritten = true)
    (h : recorded s call.key) :
    (grantAndAudit call subscription state).Relies handle faults R (MayIssue K call)
      (AttemptEnds K call) s := by
  unfold grantAndAudit
  split
  · split
    · refine statement_relies h_known (Or.inl ⟨h_written.1, h_written.2, h⟩) (fun _ _ => trivial) ?_
      intro s' _ h_R _
      exact auditCreated_relies h_known h_written (recorded_after h_known h h_R)
    · exact auditCreated_relies h_known h_written h
  · exact auditCreated_relies h_known h_written h

theorem afterRecord_relies (h_known : Known faults R K) (subscription : SubscriptionRow)
    {disposition : Disposition} (h : recorded s call.key)
    (h_state : (state.settlementRecorded = true ∧ state.transitionWritten = true) ∨
      (disposition = .duplicateIgnored ∧ Holds K call state s)) :
    (afterRecord call subscription disposition state).Relies handle faults R (MayIssue K call)
      (AttemptEnds K call) s := by
  have h_holds : Holds K call state s := h_state.elim
    (fun h_written => Or.inl ⟨h_written.1, h_written.2, h⟩) fun h_ignored => h_ignored.2
  unfold afterRecord
  cases disposition with
  | duplicateIgnored =>
    refine statement_relies h_known h_holds (fun _ _ => trivial) fun s' _ h_R _ => ?_
    exact answered_relies h_known _ (recorded_after h_known h h_R)
  | duplicateResumed =>
    have h_written := h_state.resolve_right fun h_ignored => nomatch h_ignored.1
    refine statement_relies h_known h_holds (fun _ _ => trivial) fun s' _ h_R _ => ?_
    exact grantAndAudit_relies h_known _ h_written (recorded_after h_known h h_R)
  | fresh =>
    have h_written := h_state.resolve_right fun h_ignored => nomatch h_ignored.1
    exact grantAndAudit_relies h_known _ h_written h

theorem resumeDuplicate_relies (h_known : Known faults R K) (shares : ℤ × ℤ)
    (subscription cached : SubscriptionRow) (h : recorded s call.key)
    (h_unwritten : state.transitionWritten = false) (h_holds : Holds K call state s) :
    (resumeDuplicate call (settlementPayload call shares cached) state
      (afterRecord call subscription)).Relies handle faults R (MayIssue K call)
        (AttemptEnds K call) s := by
  unfold resumeDuplicate
  refine statement_relies h_known h_holds (fun _ _ => trivial) fun s' answer h_R h_read => ?_
  cases h_read
  have h_recorded : recorded s' call.key := (h_known.advances s s' h_R).recorded h
  have h_here : Holds K call state s' := h_holds.stable h_known h_R
  generalize h_resumed : s'.subscriptions.get? call.subscriptionId = resumed
  cases resumed with
  | none => exact afterRecord_relies h_known subscription h_recorded (Or.inr ⟨rfl, h_here⟩)
  | some resumed =>
    have h_id : resumed.id = call.subscriptionId := (KeyedList.mem_of_get? h_resumed).2
    have h_K : K resumed s' := h_known.read s' resumed (by rw [h_id, h_resumed])
    dsimp only
    split
    · rename_i h_pending
      split
      · exact fun _ _ => trivial
      · rename_i decision h_decision
        refine statement_relies h_known (Or.inr ⟨h_unwritten, fun row h_row => ?_⟩) (fun t h_R' => ?_)
          fun t result h_R' _ => ?_
        · cases h_row
          exact ⟨h_K, h_id⟩
        · exact ⟨⟨_, _, rfl⟩, resumed, h_known.stable _ _ _ h_K h_R', h_id, h_decision, rfl, fun _ =>
            ⟨h_pending, (h_known.advances _ _ h_R').recorded h_recorded⟩⟩
        · exact afterRecord_relies h_known subscription
            (recorded_after h_known h_recorded h_R') (Or.inl ⟨rfl, rfl⟩)
    · exact afterRecord_relies h_known subscription h_recorded (Or.inr ⟨rfl, h_here⟩)

theorem record_duplicate {result : RecordResult}
    (h : recordAndTransitionSettlement s args = .ok (result, s'))
    (h_first : args.proceedIfDuplicate = false) (h_not : result.inserted = false) :
    recorded s args.row.key ∧ s' = s := by
  rcases recordAndTransition_cases h with ⟨h_recorded, -, -, h_same⟩ | ⟨h_iff, h_done⟩
  · exact ⟨h_recorded, h_same⟩
  · have h_recorded := h_iff.mp h_not
    refine ⟨h_recorded, ?_⟩
    rcases h_done with ⟨-, rfl⟩ | ⟨decision, old, -, h_applied⟩
    · rw [ledgerWith, if_pos h_recorded]
    · have h_proceeds := h_applied.proceeds h_recorded
      rw [h_first] at h_proceeds
      cases h_proceeds

theorem recorded_of_record {result : RecordResult}
    (h : recordAndTransitionSettlement s args = .ok (result, s')) : recorded s' args.row.key := by
  have h_with : ∀ t : MarketStore, t.settlements = ledgerWith s args.row → recorded t args.row.key := by
    intro t h_t
    unfold recorded
    rw [h_t]
    unfold ledgerWith
    split
    · rename_i h_recorded
      exact h_recorded
    · exact ⟨args.row, List.mem_append_right _ List.mem_cons_self, rfl⟩
  rcases recordAndTransition_cases h with ⟨h_recorded, -, -, rfl⟩ | ⟨-, h_done⟩
  · exact h_recorded
  · rcases h_done with ⟨-, rfl⟩ | ⟨decision, old, -, h_applied⟩
    · exact h_with _ rfl
    · exact h_with s' (by rw [h_applied.store])

theorem recordAndTransition_relies (h_known : Known faults R K) (shares : ℤ × ℤ)
    {subscription : SubscriptionRow} (h_row : state.subscription = some subscription)
    (h_holds : Holds K call state s) :
    (recordAndTransition call shares subscription state (afterRecord call subscription)).Relies
      handle faults R (MayIssue K call) (AttemptEnds K call) s := by
  unfold recordAndTransition
  rcases h_holds with ⟨h_settled, h_written, h_recorded⟩ | ⟨h_unwritten, h_read⟩
  · rw [if_pos ⟨h_settled, h_written⟩]
    exact afterRecord_relies h_known _ h_recorded (Or.inl ⟨h_settled, h_written⟩)
  · have h_not : ¬ (state.settlementRecorded = true ∧ state.transitionWritten = true) := by
      rw [h_unwritten]
      exact fun h => nomatch h.2
    rw [if_neg h_not]
    obtain ⟨h_K, h_id⟩ := h_read subscription h_row
    dsimp only
    split
    · exact fun _ _ => trivial
    · rename_i decision h_decision
      refine statement_relies h_known (Or.inr ⟨h_unwritten, h_read⟩) (fun t h_R => ?_)
        fun t result h_R h_record => ?_
      · exact ⟨⟨_, _, rfl⟩, subscription, h_known.stable _ _ _ h_K h_R, h_id, h_decision, rfl,
          fun h_proceed => nomatch h_proceed⟩
      · have h_recorded := recorded_of_record h_record
        split
        · exact afterRecord_relies h_known _ h_recorded (Or.inl ⟨rfl, rfl⟩)
        · rename_i h_inserted
          obtain ⟨-, h_same⟩ := record_duplicate h_record rfl (by simpa using h_inserted)
          refine resumeDuplicate_relies h_known _ _ _ h_recorded h_unwritten ?_
          have h_holds : Holds K call state s := Or.inr ⟨h_unwritten, h_read⟩
          rw [h_same]
          exact h_holds.stable h_known h_R

theorem settleRow_relies (h_known : Known faults R K) (shares : ℤ × ℤ)
    {subscription : SubscriptionRow} (h_row : state.subscription = some subscription)
    (h_holds : Holds K call state s) :
    (settleRow call shares subscription state).Relies handle faults R (MayIssue K call)
      (AttemptEnds K call) s := by
  unfold settleRow
  split
  · rename_i h_mismatch
    have h_settled : ∀ t, Holds K call state t → Settled call t := by
      intro t h_t
      rcases h_t with ⟨-, -, h_recorded⟩ | ⟨-, h_read⟩
      · exact .of_recorded h_recorded
      · exact .of_mismatch h_known (h_read subscription h_row).1 (h_read subscription h_row).2 h_mismatch
    refine statement_relies h_known h_holds (fun _ _ => trivial) fun t _ h_R h_audit => ?_
    cases h_audit
    exact fun u h_R' => h_settled u ((h_holds.stable h_known h_R).stable h_known h_R')
  · exact recordAndTransition_relies h_known shares h_row h_holds

theorem settleOnce_relies (h_known : Known faults R K) (shares : ℤ × ℤ)
    (h_holds : Holds K call state s) :
    (settleOnce call shares state).Relies handle faults R (MayIssue K call) (AttemptEnds K call) s := by
  unfold settleOnce
  split
  · rename_i subscription h_row
    exact settleRow_relies h_known shares h_row h_holds
  · rename_i h_none
    refine statement_relies h_known h_holds (fun _ _ => trivial) fun t answer h_R h_read => ?_
    cases h_read
    have h_here : Holds K call state t := h_holds.stable h_known h_R
    generalize h_row : t.subscriptions.get? call.subscriptionId = row
    cases row with
    | none =>
      refine statement_relies h_known h_here (fun _ _ => trivial) fun u _ h_R' h_audit => ?_
      cases h_audit
      intro v h_R'' h_matches
      obtain ⟨row, h_some, -⟩ := h_matches
      have h_absent := ((h_known.advances _ _ h_R').trans (h_known.advances _ _ h_R'')).absent _ h_row
      rw [h_absent] at h_some
      cases h_some
    | some row =>
      have h_id : row.id = call.subscriptionId := (KeyedList.mem_of_get? h_row).2
      have h_K : K row t := h_known.read t row (by rw [h_id, h_row])
      refine settleRow_relies h_known shares rfl ?_
      rcases h_here with ⟨h_settled, h_written, h_recorded⟩ | ⟨h_unwritten, -⟩
      · exact Or.inl ⟨h_settled, h_written, h_recorded⟩
      · refine Or.inr ⟨h_unwritten, fun row' h_row' => ?_⟩
        cases h_row'
        exact ⟨h_K, h_id⟩

/-! ### Through all attempts -/

def SettleEnds (call : SettleCall) : Except MarketError SettlementResult → MarketStore → Prop
  | .ok _, s => Settled call s
  | .error _, _ => True

theorem settleAttempts_relies (h_known : Known faults R K) (shares : ℤ × ℤ) (attempts : ℕ)
    (h_holds : Holds K call state s) :
    (settleAttempts call shares attempts state).Relies handle faults R (MayIssue K call)
      (SettleEnds call) s := by
  induction attempts generalizing state s with
  | zero => exact fun _ _ => ⟨trivial, fun _ _ _ _ _ => trivial⟩
  | succ attempts ih =>
    refine Relies.bind h_known.refl ((settleOnce_relies h_known shares h_holds).mono ?_)
    intro ended t h_ended
    match ended, h_ended with
    | .error e, _ => exact fun _ _ => trivial
    | .ok (.retry state'), h_retry => exact ih h_retry
    | .ok (.answered result), h_answered =>
      exact fun u h_R => Settled.stable h_answered (h_known.advances t u h_R)

theorem settle_relies (h_known : Known faults R K) (call : SettleCall) (s : MarketStore) :
    (settle call).Relies handle faults R (MayIssue K call) (SettleEnds call) s := by
  unfold settle
  split
  · exact fun _ _ => trivial
  · cases splitNinetyTen call.amountMinor with
    | error e => exact fun _ _ => trivial
    | ok shares =>
      exact settleAttempts_relies h_known shares call.attempts
        (Or.inr ⟨rfl, fun row h_row => nomatch h_row⟩)

/-! ### All requests -/

/-- The settle calls a request makes: a refund settles a reversal of the payment it found. -/
def Request.Settles : Request → SettleCall → MarketStore → Prop
  | .settle settlement, settled, _ => settled = settlement
  | .refund event, settled, s =>
    ∃ payment ∈ s.settlements, payment.key = (event.paymentReference, false) ∧
      settled = event.reversal payment
  | _, _, _ => False

def Request.MayIssue (K : SubscriptionRow → MarketStore → Prop) (request : Request) :
    MarketOp → MarketStore → Prop
  | .recordAndTransition args, s =>
    ∃ settled, request.Settles settled s ∧ DecidedFrom K settled args s
  | op, _ => SettlesNothing request.Reinstates op

/-- How a request ends: a settle call leaves its confirmation in the ledger. -/
def Request.Ends (request : Request) (answer : Except MarketError Answer) (s : MarketStore) :
    Prop :=
  match request, answer with
  | .settle settlement, .ok _ => Settled settlement s
  | _, _ => True

theorem relies_of_issues (request : Request) (h_settle : ∀ settlement, request ≠ .settle settlement)
    (h_refund : ∀ event, request ≠ .refund event) (s : MarketStore) :
    request.program.Relies handle faults R (request.MayIssue K) (fun _ _ => True) s := by
  have h_issues := Request.issues h_settle h_refund
  revert h_issues
  generalize request.program = p
  intro h_issues
  induction p generalizing s with
  | ret a => exact fun _ _ => trivial
  | raise e => exact fun _ _ => trivial
  | call op next ih =>
    refine fun t _ => ⟨?_, fun answer u _ => ih answer u (h_issues.2 answer)⟩
    cases op with
    | recordAndTransition args => exact h_issues.1.elim
    | _ => exact h_issues.1

theorem mayIssue_of_settles {request : Request} (h_settles : request.Settles call s)
    (h : MayIssue K call op s) : request.MayIssue K op s := by
  cases op with
  | recordAndTransition args => exact ⟨call, h_settles, h⟩
  | readSubscription id => trivial
  | grantPermission writer grant => trivial
  | writeAudit reference => trivial
  | _ => exact h.elim

theorem refund_relies (h_known : Known faults R K) (event : RefundEvent) (s : MarketStore) :
    (refund event).Relies handle faults R ((Request.refund event).MayIssue K)
      (fun _ _ => True) s := by
  intro t _
  refine ⟨trivial, fun answer u h_responds => ?_⟩
  cases answer with
  | error e => exact fun _ _ => trivial
  | ok found =>
    cases h_responds
    generalize h_found : (t.settlements.find? fun row : SettlementRow =>
      row.key = (event.paymentReference, false)) = found
    cases found with
    | none => exact fun _ _ => trivial
    | some payment =>
      have h_mem : payment ∈ t.settlements := List.mem_of_find?_eq_some h_found
      have h_key : payment.key = (event.paymentReference, false) := by
        simpa using List.find?_some h_found
      -- The ledger only grows, so the payment is there whenever the reversal is written.
      have h_settle := (settle_relies h_known (event.reversal payment) t).frame
        (F := fun u => payment ∈ u.settlements)
        (fun u v h_mem h_R => (h_known.advances u v h_R).ledger.subset h_mem)
        (fun op u h_mem => (handle_advances op u).ledger.subset h_mem) h_mem
      show ((settle (event.reversal payment)).bind fun result =>
        (ret (some result) : Program Res MarketError Answer)).Relies handle faults R
          ((Request.refund event).MayIssue K) (fun _ _ => True) t
      refine Relies.bind h_known.refl ((h_settle.weaken ?_).mono ?_)
      · rintro op u ⟨h_may, h_there⟩
        exact mayIssue_of_settles ⟨payment, h_there, h_key, rfl⟩ h_may
      · intro result u _
        cases result with
        | ok result => exact fun _ _ => trivial
        | error e => exact fun _ _ => trivial

theorem Request.relies (h_known : Known faults R K) (request : Request) (s : MarketStore) :
    request.program.Relies handle faults R (request.MayIssue K) request.Ends s := by
  cases request with
  | settle settlement =>
    have h_may : ∀ op u, Marketplace.MayIssue K settlement op u →
        (Request.settle settlement).MayIssue K op u := fun op u h =>
      mayIssue_of_settles (show (Request.settle settlement).Settles settlement u from rfl) h
    have h_settle := (settle_relies h_known settlement s).weaken h_may
    refine Relies.bind h_known.refl (h_settle.mono ?_)
    intro result t h_ends
    cases result with
    | ok result => exact fun u h_R => Settled.stable h_ends (h_known.advances t u h_R)
    | error e => exact fun _ _ => trivial
  | refund event => exact (refund_relies h_known event s).mono fun _ _ _ => trivial
  | cancel id userId until_ =>
    exact (relies_of_issues (.cancel id userId until_) nofun nofun s).mono fun _ _ _ => trivial
  | suspend id => exact (relies_of_issues (.suspend id) nofun nofun s).mono fun _ _ _ => trivial
  | sweep now => exact (relies_of_issues (.sweep now) nofun nofun s).mono fun _ _ _ => trivial
  | reinstate adminId id reason now =>
    exact (relies_of_issues (.reinstate adminId id reason now) nofun nofun s).mono
      fun _ _ _ => trivial

end Attempts

end VyomQuant.Marketplace
