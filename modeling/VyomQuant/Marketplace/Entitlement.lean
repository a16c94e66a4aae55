/-
  VyomQuant.Marketplace.Entitlement

  Whether the entitlement row follows the paid period, over every sequence of deliveries of
  the payments of one subscription, each statement of which may fail or lose its answer, and
  each of which may die.

  The grant is a statement of its own after the database function, and only the attempt that
  wrote the transition issues it: a redelivery finds the subscription active and ignores the
  payment.  `Progress` follows one delivery from the store `s₀` it started on.  The row is in
  place after every delivery that was told of its own transition, and that was not cut short
  between the transition and the grant.
-/

import VyomQuant.Lib.Crashes
import VyomQuant.Marketplace.Renewals

namespace VyomQuant.Marketplace

open Except Program

/-! ## The entitlement of a paid subscription -/

/-- A payment moved the subscription to active, or renewed it there. -/
def ActivatedByPayment (s : MarketStore) (id : String) : Prop :=
  ∃ row ∈ s.transitions, row.subscriptionId = id ∧ row.cause = .settlement ∧ row.toState = .active

/-- The active permission of the purchaser for the listing ends with the period. -/
def EntitledUntilExpiry (s : MarketStore) (id : String) : Prop :=
  ∃ row ∈ s.subscriptions.get? id, ∃ expiry ∈ row.periodExpiry, ∃ permission ∈ s.permissions,
    permission.ActiveFor row.userId row.libraryId ∧ permission.expiresAt = some expiry

def CarriesEntitlement (s : MarketStore) (id : String) : Prop :=
  ActivatedByPayment s id → EntitledUntilExpiry s id

instance (s : MarketStore) (id : String) : Decidable (ActivatedByPayment s id) :=
  inferInstanceAs (Decidable (∃ row ∈ s.transitions, _))

instance (s : MarketStore) (id : String) : Decidable (EntitledUntilExpiry s id) :=
  inferInstanceAs (Decidable (∃ row ∈ s.subscriptions.get? id, ∃ expiry ∈ row.periodExpiry,
    ∃ permission ∈ s.permissions, _))

/-- A delivery of a payment for the subscription. -/
structure SettleCall.Delivers (call : SettleCall) (id : String) : Prop where
  payment : call.isReversal = false
  subscriptionId : call.subscriptionId = id
  writer : call.grantPermission = grantDeploymentPermission

/-- Where an answer may be lost: not that of a statement that writes a history row. -/
def KeepsHistory (op : MarketOp) (s : MarketStore) : Prop :=
  (handle op s).2.transitions = s.transitions

/-! ## One delivery -/

/-- Subscriptions, history and entitlements are as they were. -/
structure Unmoved (s₀ s : MarketStore) : Prop where
  subscriptions : s.subscriptions = s₀.subscriptions
  transitions : s.transitions = s₀.transitions
  permissions : s.permissions = s₀.permissions

/-- The transition was written, and no permission. -/
structure Ungranted (s₀ s : MarketStore) : Prop where
  transitions : s.transitions ≠ s₀.transitions
  permissions : s.permissions = s₀.permissions

/-- The grant took effect. -/
structure Granted (s₀ s : MarketStore) (id : String) : Prop where
  permissions : s.permissions ≠ s₀.permissions
  entitled : EntitledUntilExpiry s id

/-- The amount and currency that were confirmed are those of the row. -/
def SettleCall.Confirms (call : SettleCall) (row : SubscriptionRow) : Prop :=
  row.priceMinor = some call.amountMinor ∧ row.currency = call.currency

/-- What the grant of this attempt will carry. -/
structure Moved (call : SettleCall) (state : Attempt) (s : MarketStore) (id : String) : Prop where
  confirmed : ∀ row ∈ state.subscription, call.Confirms row
  settled : state.settlementRecorded = true ∧ state.transitionWritten = true
  toStatus : state.toStatus = some .active
  row : ∃ row ∈ s.subscriptions.get? id, ∃ read ∈ state.subscription,
    read.userId = row.userId ∧ read.libraryId = row.libraryId ∧
      ∃ expiry ∈ row.periodExpiry, state.periodExpiry = some expiry

/-- Where a delivery that started on `s₀` is. -/
inductive Progress (call : SettleCall) (s₀ : MarketStore) (id : String) (state : Attempt) (s : MarketStore) : Prop
  | before (h_unmoved : Unmoved s₀ s) (h_unwritten : state.transitionWritten = false)
      (h_ungranted : state.entitlementGranted = false)
      (h_read : ∀ row ∈ state.subscription, s₀.subscriptions.get? id = some row)
  | nothing (h_unmoved : Unmoved s₀ s)
      (h_settled : state.settlementRecorded = true ∧ state.transitionWritten = true)
      (h_none : state.periodExpiry = none)
  | moved (h_moved : Moved call state s id) (h_ungranted : state.entitlementGranted = false)
      (h_store : Ungranted s₀ s)
  | granted (h_moved : Moved call state s id) (h_store : Granted s₀ s id)

/-- Every store a delivery gets to. -/
def Reached (s₀ : MarketStore) (id : String) (s : MarketStore) : Prop :=
  Unmoved s₀ s ∨ Ungranted s₀ s ∨ Granted s₀ s id

def Delivered (s₀ : MarketStore) (id : String) (s : MarketStore) : Prop :=
  Unmoved s₀ s ∨ Granted s₀ s id

def AttemptDelivers (call : SettleCall) (s₀ : MarketStore) (id : String) :
    Except MarketError AttemptEnd → MarketStore → Prop
  | .ok (.answered _), s => Delivered s₀ id s
  | .ok (.retry state), s => Progress call s₀ id state s
  | .error _, _ => True

section Delivery

variable {s₀ s t : MarketStore} {id : String} {call : SettleCall} {state : Attempt}

theorem Progress.reached (h : Progress call s₀ id state s) : Reached s₀ id s := by
  cases h with
  | before h_unmoved => exact Or.inl h_unmoved
  | nothing h_unmoved => exact Or.inl h_unmoved
  | moved _ _ h_store => exact Or.inr (Or.inl h_store)
  | granted _ h_store => exact Or.inr (Or.inr h_store)

theorem Unmoved.carries (h : Unmoved s₀ s) (h_carries : CarriesEntitlement s₀ id) :
    CarriesEntitlement s id := by
  unfold CarriesEntitlement ActivatedByPayment EntitledUntilExpiry
  rw [h.subscriptions, h.transitions, h.permissions]
  exact h_carries

theorem Delivered.carries (h : Delivered s₀ id s) (h_carries : CarriesEntitlement s₀ id) :
    CarriesEntitlement s id :=
  h.elim (fun h_unmoved => h_unmoved.carries h_carries) fun h_granted _ => h_granted.entitled

theorem Reached.delivered (h : Reached s₀ id s)
    (h_whole : s.transitions = s₀.transitions ∨ s.permissions ≠ s₀.permissions) :
    Delivered s₀ id s := by
  rcases h with h_unmoved | h_ungranted | h_granted
  · exact Or.inl h_unmoved
  · rcases h_whole with h_same | h_more
    · exact absurd h_same h_ungranted.transitions
    · exact absurd h_ungranted.permissions h_more
  · exact Or.inr h_granted

theorem statement_withstands {op : MarketOp} {next : Res op → Settling AttemptEnd}
    (h : Progress call s₀ id state s)
    (h_lost : KeepsHistory op s → Progress call s₀ id state (handle op s).2)
    (h_next : ∀ answer, execute s op = .ok (answer, (handle op s).2) →
      (next answer).Withstands handle KeepsHistory (Reached s₀ id) (AttemptDelivers call s₀ id)
        (handle op s).2) :
    (statement state op next).Withstands handle KeepsHistory (Reached s₀ id)
      (AttemptDelivers call s₀ id) s := by
  refine .call_of h.reached ?_ (fun e h_keeps => ⟨(h_lost h_keeps).reached, h_lost h_keeps⟩)
    fun e => ⟨h.reached, h⟩
  cases h_answer : (handle op s).1 with
  | ok answer => exact h_next answer (handle_ok h_answer)
  | error e =>
    rw [handle_error h_answer]
    exact ⟨h.reached, h⟩

theorem audited_withstands (reference : String) (result : SettlementResult)
    (h : Progress call s₀ id state s) (h_delivered : Delivered s₀ id s) :
    (statement state (.writeAudit reference) fun _ => ret (.answered result)).Withstands handle
      KeepsHistory (Reached s₀ id) (AttemptDelivers call s₀ id) s :=
  statement_withstands h (fun _ => h) fun _ _ => ⟨h.reached, h_delivered⟩

variable {read cached : SubscriptionRow}

theorem Moved.granted (h_call : call.Delivers id) {expiry : Instant}
    (h_moved : Moved call state s id) (h_read : state.subscription = some read)
    (h_expiry : state.periodExpiry = some expiry) (h_store : Granted s₀ s id ∨ Ungranted s₀ s)
    {answer : Unit}
    (h : execute s (.grantPermission call.grantPermission ⟨read.userId, read.libraryId, call.subscriptionId, expiry⟩) = .ok (answer, t)) :
    Moved call state t id ∧ Granted s₀ t id := by
  rw [h_call.writer] at h
  obtain ⟨permissions, h_writer, h_result⟩ := bind_eq_ok.mp h
  obtain ⟨_, h_free, rfl⟩ := bind_pure_eq_ok.mp h_writer
  cases h_result
  refine ⟨⟨h_moved.confirmed, h_moved.settled, h_moved.toStatus, h_moved.row⟩, ?_⟩
  obtain ⟨row, h_row, read', h_read', h_user, h_library, expiry', h_stored, h_expiry'⟩ := h_moved.row
  rw [h_read] at h_read'
  cases h_read'
  rw [h_expiry] at h_expiry'
  cases h_expiry'
  rcases h_store with h_already | h_ungranted
  · -- The permission is there, and a second one is refused.
    obtain ⟨row', h_row', _, _, permission, h_mem, h_active, -⟩ := h_already.entitled
    cases Option.mem_unique h_row h_row'
    refine absurd ⟨permission, h_mem, ?_⟩ (refuseIf_eq_ok.mp h_free)
    rw [h_user, h_library]
    exact h_active
  · refine ⟨?_, row, h_row, expiry, h_stored, _, List.mem_append_right _ List.mem_cons_self,
      ⟨h_user, h_library, rfl⟩, rfl⟩
    rw [← h_ungranted.permissions]
    simp

theorem auditCreated_withstands (h : Progress call s₀ id state s) (h_delivered : Delivered s₀ id s) :
    (auditCreated call state).Withstands handle KeepsHistory (Reached s₀ id)
      (AttemptDelivers call s₀ id) s :=
  audited_withstands _ _ h h_delivered

/-- From a transition without its grant, the attempt only comes to an answer through it. -/
theorem grantAndAudit_withstands (h_call : call.Delivers id)
    (h_read : state.subscription = some read) (h_moved : Moved call state s id)
    (h_store : Granted s₀ s id ∨ (state.entitlementGranted = false ∧ Ungranted s₀ s)) :
    (grantAndAudit call read state).Withstands handle KeepsHistory (Reached s₀ id)
      (AttemptDelivers call s₀ id) s := by
  obtain ⟨_, _, _, _, _, _, expiry, _, h_expiry⟩ := h_moved.row
  have h_progress : Progress call s₀ id state s := h_store.elim (.granted h_moved) fun h_ungranted =>
    .moved h_moved h_ungranted.1 h_ungranted.2
  unfold grantAndAudit
  rw [h_expiry]
  dsimp only
  split
  · have h_accepted : ∀ t answer, execute s (.grantPermission call.grantPermission
        ⟨read.userId, read.libraryId, call.subscriptionId, expiry⟩) = .ok (answer, t) →
          Moved call state t id ∧ Granted s₀ t id := fun t answer =>
      h_moved.granted h_call h_read h_expiry (h_store.imp_right And.right)
    refine statement_withstands h_progress (fun _ => ?_) fun answer h_execute => ?_
    · -- The answer is lost: the permission is there, or the grant had been refused.
      cases h_answer : (handle (.grantPermission call.grantPermission
        ⟨read.userId, read.libraryId, call.subscriptionId, expiry⟩) s).1 with
      | ok answer =>
        obtain ⟨h_moved', h_granted⟩ := h_accepted _ answer (handle_ok h_answer)
        exact .granted h_moved' h_granted
      | error e =>
        rw [handle_error h_answer]
        exact h_progress
    · obtain ⟨h_moved', h_granted⟩ := h_accepted _ answer h_execute
      have h_row := h_moved'.row
      rw [h_expiry] at h_row
      exact auditCreated_withstands (.granted ⟨h_moved'.confirmed, h_moved'.settled, h_moved'.toStatus, h_row⟩ h_granted)
        (Or.inr h_granted)
  · rename_i h_not
    have h_granted : Granted s₀ s id := h_store.resolve_right fun h_ungranted =>
      absurd ⟨h_ungranted.1, h_moved.toStatus⟩ h_not
    exact auditCreated_withstands h_progress (Or.inr h_granted)

theorem afterRecord_withstands (h_call : call.Delivers id) (cached : SubscriptionRow)
    {disposition : Disposition} (h_read : state.subscription = some read)
    (h_disposition : disposition ≠ .duplicateIgnored) (h_moved : Moved call state s id)
    (h_store : Granted s₀ s id ∨ (state.entitlementGranted = false ∧ Ungranted s₀ s)) :
    (afterRecord call cached disposition state).Withstands handle KeepsHistory (Reached s₀ id)
      (AttemptDelivers call s₀ id) s := by
  have h_progress : Progress call s₀ id state s := h_store.elim (.granted h_moved) fun h_ungranted =>
    .moved h_moved h_ungranted.1 h_ungranted.2
  unfold afterRecord
  rw [h_read]
  dsimp only [Option.getD_some]
  cases disposition with
  | duplicateIgnored => exact absurd rfl h_disposition
  | duplicateResumed =>
    refine statement_withstands h_progress (fun _ => h_progress) fun _ _ => ?_
    exact grantAndAudit_withstands h_call h_read h_moved h_store
  | fresh => exact grantAndAudit_withstands h_call h_read h_moved h_store

theorem afterRecord_nothing_withstands (cached : SubscriptionRow) {disposition : Disposition}
    (h_progress : Progress call s₀ id state s) (h_unmoved : Unmoved s₀ s)
    (h_none : disposition ≠ .duplicateIgnored → state.periodExpiry = none) :
    (afterRecord call cached disposition state).Withstands handle KeepsHistory (Reached s₀ id)
      (AttemptDelivers call s₀ id) s := by
  have h_grant : ∀ subscription, state.periodExpiry = none →
      (grantAndAudit call subscription state).Withstands handle KeepsHistory (Reached s₀ id)
        (AttemptDelivers call s₀ id) s := by
    intro subscription h_expiry
    unfold grantAndAudit
    rw [h_expiry]
    exact auditCreated_withstands h_progress (Or.inl h_unmoved)
  unfold afterRecord
  cases disposition with
  | duplicateIgnored => exact audited_withstands _ _ h_progress (Or.inl h_unmoved)
  | duplicateResumed =>
    refine statement_withstands h_progress (fun _ => h_progress) fun _ _ => ?_
    exact h_grant _ (h_none nofun)
  | fresh => exact h_grant _ (h_none nofun)

/-! ### The call of the database function -/

variable {shares : ℤ × ℤ} {proceed : Bool}

theorem TransitionApplied.moved (h_call : call.Delivers id) {old : SubscriptionRow}
    {decision : Decision} (h_unmoved : Unmoved s₀ s) (h_row : s₀.subscriptions.get? id = some read)
    (h_state : state.subscription = some read) (h_confirms : call.Confirms read)
    (h_decision : decideTransition read false call.confirmationInstant = .ok (some decision))
    (h : TransitionApplied s (recordArgs call (settlementPayload call shares cached) read (some decision) proceed) decision old t) :
    Moved call (state.written read (some decision) call.isReversal) t id ∧ Ungranted s₀ t := by
  have h_old : old = read := by
    have h_found := h.updated.found
    rw [h.id_eq, h_unmoved.subscriptions] at h_found
    rw [← h_call.subscriptionId] at h_row
    exact Option.some.inj (h_found.symm.trans h_row)
  subst h_old
  have h_confirmed : ∀ row ∈ state.subscription, call.Confirms row := fun row h_mem => by
    rw [h_state] at h_mem
    cases h_mem
    exact h_confirms
  obtain ⟨-, -, h_to, expiry, h_expiry, -⟩ := decideTransition_payment h_decision
  have h_after : t.subscriptions.get? id = some (decision.apply old) := by
    rw [h.store, KeyedList.get?_put, if_pos]
    rw [h.updated.id_eq, h.id_eq]
    exact h_call.subscriptionId.symm
  refine ⟨⟨h_confirmed, ⟨rfl, rfl⟩, ?_, decision.apply old, h_after, old, h_state, rfl, rfl, expiry, h_expiry, ?_⟩,
    ?_, ?_⟩
  · show (some decision).map (·.toStatus) = some .active
    rw [Option.map_some, h_to]
  · show (if call.isReversal then none else (some decision).bind (·.periodExpiry)) = some expiry
    rw [h_call.payment, if_neg Bool.false_ne_true, Option.bind_some, h_expiry]
  · rw [h.store, h_unmoved.transitions]
    simp
  · rw [h.store, ← h_unmoved.permissions]

/-- What an accepted call leaves: nothing moved, for want of a decision or as a duplicate, or
    the delivery has its grant to do. -/
theorem record_moves (h_call : call.Delivers id) {decision : Option Decision}
    {result : RecordResult} (h_unmoved : Unmoved s₀ s)
    (h_row : s₀.subscriptions.get? id = some read) (h_state : state.subscription = some read)
    (h_confirms : call.Confirms read)
    (h_decision : decideTransition read false call.confirmationInstant = .ok decision)
    (h : recordAndTransitionSettlement s (recordArgs call (settlementPayload call shares cached) read decision proceed) = .ok (result, t)) :
    (Unmoved s₀ t ∧ (decision = none ∨ (proceed = false ∧ result.inserted = false))) ∨
      (Moved call (state.written read decision call.isReversal) t id ∧ Ungranted s₀ t ∧
        (proceed = false → result.inserted = true)) := by
  rcases recordAndTransition_cases h with ⟨-, h_inserted, h_proceed, rfl⟩ | ⟨h_inserted, h_done⟩
  · exact Or.inl ⟨h_unmoved, Or.inr ⟨h_proceed, h_inserted⟩⟩
  · rcases h_done with ⟨h_none, rfl⟩ | ⟨decided, old, h_some, h_applied⟩
    · exact Or.inl ⟨⟨h_unmoved.subscriptions, h_unmoved.transitions, h_unmoved.permissions⟩,
        Or.inl h_none⟩
    · have h_decided : decision = some decided := h_some
      subst h_decided
      obtain ⟨h_moved, h_ungranted⟩ := h_applied.moved h_call h_unmoved h_row h_state h_confirms h_decision
      refine Or.inr ⟨h_moved, h_ungranted, fun h_first => ?_⟩
      have h_new : result.inserted ≠ false := fun h_not => by
        have h_proceeds := h_applied.proceeds (h_inserted.mp h_not)
        exact absurd (h_first.symm.trans h_proceeds) Bool.false_ne_true
      simpa using h_new

/-- The statement of the database function, from an attempt that has written nothing. -/
theorem record_withstands (h_call : call.Delivers id) {decision : Option Decision}
    {next : RecordResult → Settling AttemptEnd} (h_unmoved : Unmoved s₀ s)
    (h_unwritten : state.transitionWritten = false) (h_ungranted : state.entitlementGranted = false)
    (h_row : s₀.subscriptions.get? id = some read) (h_state : state.subscription = some read)
    (h_confirms : call.Confirms read)
    (h_decision : decideTransition read false call.confirmationInstant = .ok decision)
    (h_nothing : ∀ result t, Unmoved s₀ t → decision = none ∨ (proceed = false ∧ result.inserted = false) → (next result).Withstands handle KeepsHistory (Reached s₀ id) (AttemptDelivers call s₀ id) t)
    (h_moved : ∀ result t, Moved call (state.written read decision call.isReversal) t id → Ungranted s₀ t → (proceed = false → result.inserted = true) → (next result).Withstands handle KeepsHistory (Reached s₀ id) (AttemptDelivers call s₀ id) t) :
    (statement state (.recordAndTransition
      (recordArgs call (settlementPayload call shares cached) read decision proceed)) next).Withstands
        handle KeepsHistory (Reached s₀ id) (AttemptDelivers call s₀ id) s := by
  have h_before : ∀ u, Unmoved s₀ u → Progress call s₀ id state u := fun u h_u =>
    .before h_u h_unwritten h_ungranted fun row h_mem => by
      rw [h_state] at h_mem
      cases h_mem
      exact h_row
  refine statement_withstands (h_before s h_unmoved) (fun h_keeps => h_before _ ?_)
    fun result h_execute => ?_
  · -- The answer is lost, and the history as it was: nothing moved.
    cases h_answer : (handle (.recordAndTransition
        (recordArgs call (settlementPayload call shares cached) read decision proceed)) s).1 with
    | ok result =>
      rcases record_moves h_call h_unmoved h_row h_state h_confirms h_decision (handle_ok h_answer) with
        ⟨h_still, -⟩ | ⟨-, h_moved, -⟩
      · exact h_still
      · exact absurd (h_keeps.trans h_unmoved.transitions) h_moved.transitions
    | error e =>
      rw [handle_error h_answer]
      exact h_unmoved
  · rcases record_moves h_call h_unmoved h_row h_state h_confirms h_decision h_execute with
      ⟨h_still, h_why⟩ | ⟨h_written, h_after, h_inserted⟩
    · exact h_nothing result _ h_still h_why
    · exact h_moved result _ h_written h_after h_inserted

theorem resumeDuplicate_withstands (h_call : call.Delivers id) (shares : ℤ × ℤ)
    (subscription cached : SubscriptionRow) (h_unmoved : Unmoved s₀ s)
    (h_unwritten : state.transitionWritten = false) (h_ungranted : state.entitlementGranted = false)
    (h_read : ∀ row ∈ state.subscription, s₀.subscriptions.get? id = some row)
    (h_confirms : ∀ row, s₀.subscriptions.get? id = some row → call.Confirms row) :
    (resumeDuplicate call (settlementPayload call shares cached) state
      (afterRecord call subscription)).Withstands handle KeepsHistory (Reached s₀ id)
        (AttemptDelivers call s₀ id) s := by
  have h_before : Progress call s₀ id state s := .before h_unmoved h_unwritten h_ungranted h_read
  have h_ignored : (afterRecord call subscription .duplicateIgnored state).Withstands handle
      KeepsHistory (Reached s₀ id) (AttemptDelivers call s₀ id) s :=
    afterRecord_nothing_withstands subscription h_before h_unmoved fun h => absurd rfl h
  unfold resumeDuplicate
  refine statement_withstands h_before (fun _ => h_before) fun answer h_execute => ?_
  cases h_execute
  rw [h_call.subscriptionId, h_unmoved.subscriptions]
  generalize h_resumed : s₀.subscriptions.get? id = resumed
  cases resumed with
  | none => exact h_ignored
  | some resumed =>
    dsimp only
    split
    · split
      · exact ⟨h_before.reached, trivial⟩
      · rename_i decision h_decided
        have h_decision : decideTransition resumed false call.confirmationInstant = .ok decision :=
          h_call.payment ▸ h_decided
        refine record_withstands h_call h_unmoved h_unwritten h_ungranted h_resumed rfl (h_confirms resumed h_resumed) h_decision
          (fun result t h_still h_why => ?_) fun result t h_moved h_after _ => ?_
        · have h_none : decision = none := h_why.resolve_right fun h => nomatch h.1
          subst h_none
          refine afterRecord_nothing_withstands _ (.nothing h_still ⟨rfl, rfl⟩ ?_) h_still fun _ => ?_
          · exact ite_self none
          · exact ite_self none
        · exact afterRecord_withstands h_call _ rfl nofun h_moved (Or.inr ⟨h_ungranted, h_after⟩)
    · exact h_ignored

theorem recordAndTransition_withstands (h_call : call.Delivers id) (shares : ℤ × ℤ)
    (h_state : state.subscription = some read) (h_confirms : call.Confirms read)
    (h : Progress call s₀ id state s) :
    (recordAndTransition call shares read state (afterRecord call read)).Withstands handle
      KeepsHistory (Reached s₀ id) (AttemptDelivers call s₀ id) s := by
  unfold recordAndTransition
  cases h with
  | before h_unmoved h_unwritten h_ungranted h_read =>
    have h_not : ¬ (state.settlementRecorded = true ∧ state.transitionWritten = true) := by
      rw [h_unwritten]
      exact fun h => nomatch h.2
    rw [if_neg h_not]
    dsimp only
    split
    · exact ⟨Or.inl h_unmoved, trivial⟩
    · rename_i decision h_decided
      have h_decision : decideTransition read false call.confirmationInstant = .ok decision :=
        h_call.payment ▸ h_decided
      refine record_withstands h_call h_unmoved h_unwritten h_ungranted (h_read read h_state) h_state
        h_confirms h_decision (fun result t h_still h_why => ?_) fun result t h_moved h_after h_inserted => ?_
      · split
        · rename_i h_inserted
          have h_none : decision = none := h_why.resolve_right fun h => by
            rw [h_inserted] at h
            cases h.2
          subst h_none
          refine afterRecord_nothing_withstands _ (.nothing h_still ⟨rfl, rfl⟩ ?_) h_still fun _ => ?_
          · exact ite_self none
          · exact ite_self none
        · refine resumeDuplicate_withstands h_call shares read read h_still h_unwritten h_ungranted
            h_read fun row h_row => ?_
          cases (h_read read h_state).symm.trans h_row
          exact h_confirms
      · rw [if_pos (h_inserted rfl)]
        exact afterRecord_withstands h_call _ h_state nofun h_moved (Or.inr ⟨h_ungranted, h_after⟩)
  | nothing h_unmoved h_settled h_none =>
    rw [if_pos h_settled]
    exact afterRecord_nothing_withstands _ (.nothing h_unmoved h_settled h_none) h_unmoved
      fun _ => h_none
  | moved h_moved h_ungranted h_store =>
    rw [if_pos h_moved.settled]
    exact afterRecord_withstands h_call _ h_state nofun h_moved (Or.inr ⟨h_ungranted, h_store⟩)
  | granted h_moved h_store =>
    rw [if_pos h_moved.settled]
    exact afterRecord_withstands h_call _ h_state nofun h_moved (Or.inl h_store)

/-! ### The whole delivery -/

theorem settleRow_withstands (h_call : call.Delivers id) (shares : ℤ × ℤ)
    (h_state : state.subscription = some read) (h : Progress call s₀ id state s) :
    (settleRow call shares read state).Withstands handle KeepsHistory (Reached s₀ id)
      (AttemptDelivers call s₀ id) s := by
  unfold settleRow
  split
  · rename_i h_mismatch
    -- What was moved had been confirmed by the same row.
    have h_delivered : Delivered s₀ id s := by
      cases h with
      | before h_unmoved => exact Or.inl h_unmoved
      | nothing h_unmoved => exact Or.inl h_unmoved
      | moved h_moved =>
        obtain ⟨h_price, h_currency⟩ := h_moved.confirmed read h_state
        exact absurd h_mismatch (not_or.mpr ⟨not_not.mpr h_price, not_not.mpr h_currency⟩)
      | granted _ h_store => exact Or.inr h_store
    exact audited_withstands _ _ h h_delivered
  · rename_i h_match
    have h_confirms : call.Confirms read := by
      rw [not_or, not_not, not_not] at h_match
      exact h_match
    exact recordAndTransition_withstands h_call shares h_state h_confirms h

theorem settleOnce_withstands (h_call : call.Delivers id) (shares : ℤ × ℤ)
    (h : Progress call s₀ id state s) :
    (settleOnce call shares state).Withstands handle KeepsHistory (Reached s₀ id)
      (AttemptDelivers call s₀ id) s := by
  unfold settleOnce
  split
  · rename_i read h_state
    exact settleRow_withstands h_call shares h_state h
  · rename_i h_none
    refine statement_withstands h (fun _ => h) fun answer h_execute => ?_
    cases h_execute
    -- An attempt without a row has moved nothing.
    have h_unmoved : Unmoved s₀ s := by
      cases h with
      | before h_unmoved => exact h_unmoved
      | nothing h_unmoved => exact h_unmoved
      | moved h_moved =>
        obtain ⟨_, _, _, h_some, _⟩ := h_moved.row
        rw [h_none] at h_some
        cases h_some
      | granted h_moved =>
        obtain ⟨_, _, _, h_some, _⟩ := h_moved.row
        rw [h_none] at h_some
        cases h_some
    rw [h_call.subscriptionId]
    generalize h_row : s.subscriptions.get? id = row
    cases row with
    | none => exact audited_withstands _ _ h (Or.inl h_unmoved)
    | some row =>
      refine settleRow_withstands h_call shares rfl ?_
      cases h with
      | before _ h_unwritten h_ungranted _ =>
        refine .before h_unmoved h_unwritten h_ungranted fun other h_other => ?_
        cases h_other
        rw [← h_unmoved.subscriptions, h_row]
      | nothing _ h_settled h_expiry => exact .nothing h_unmoved h_settled h_expiry
      | moved h_moved =>
        obtain ⟨_, _, _, h_some, _⟩ := h_moved.row
        rw [h_none] at h_some
        cases h_some
      | granted h_moved =>
        obtain ⟨_, _, _, h_some, _⟩ := h_moved.row
        rw [h_none] at h_some
        cases h_some

def DeliveryEnds (s₀ : MarketStore) (id : String) :
    Except MarketError SettlementResult → MarketStore → Prop
  | .ok _, s => Delivered s₀ id s
  | .error _, _ => True

theorem settleAttempts_withstands (h_call : call.Delivers id) (shares : ℤ × ℤ) (attempts : ℕ)
    (h : Progress call s₀ id state s) :
    (settleAttempts call shares attempts state).Withstands handle KeepsHistory (Reached s₀ id)
      (DeliveryEnds s₀ id) s := by
  induction attempts generalizing state s with
  | zero =>
    have h_raise : Reached s₀ id s ∧ DeliveryEnds s₀ id (.error .settlementPersistFailed) s :=
      ⟨h.reached, trivial⟩
    exact .call_of h.reached h_raise (fun _ _ => h_raise) fun _ => h_raise
  | succ attempts ih =>
    refine WithstandsWhere.bind ((settleOnce_withstands h_call shares h).mono fun ended t h_reached h_ended => ?_)
    match ended, h_ended with
    | .error e, _ => trivial
    | .ok (.retry state'), h_retry => exact ih h_retry
    | .ok (.answered result), h_answered => exact ⟨h_reached, h_answered⟩

theorem settle_withstands (h_call : call.Delivers id) (s : MarketStore) :
    (settle call).Withstands handle KeepsHistory (Reached s id) (DeliveryEnds s id) s := by
  have h_here : Unmoved s s := ⟨rfl, rfl, rfl⟩
  unfold settle
  split
  · exact ⟨Or.inl h_here, trivial⟩
  · cases splitNinetyTen call.amountMinor with
    | error e => exact ⟨Or.inl h_here, trivial⟩
    | ok shares =>
      exact settleAttempts_withstands h_call shares call.attempts
        (.before h_here rfl rfl fun row h_mem => nomatch h_mem)

end Delivery

/-! ## Every sequence of deliveries -/

/-- One delivery, from its start to its end or its death, where `P` allows how it ended. -/
inductive Delivery (id : String) (loses : MarketOp → MarketStore → Prop)
    (P : Option (Except MarketError SettlementResult) → MarketStore → MarketStore → Prop) :
    MarketStore → MarketStore → Prop
  | settle {call : SettleCall} {r : Option (Except MarketError SettlementResult)}
      {s t : MarketStore} (h_call : call.Delivers id)
      (h_run : (settle call).Executes Marketplace.handle loses s r t) (h : P r s t) :
      Delivery id loses P s t

/-- A delivery that did not return left the history as it was, or had its grant take effect. -/
def Whole : Option (Except MarketError SettlementResult) → MarketStore → MarketStore → Prop
  | some (.ok _), _, _ => True
  | _, s, t => t.transitions = s.transitions ∨ t.permissions ≠ s.permissions

theorem Whole.of {r : Option (Except MarketError SettlementResult)} {s t : MarketStore}
    (h : t.transitions = s.transitions ∨ t.permissions ≠ s.permissions) : Whole r s t := by
  unfold Whole
  split
  · trivial
  · exact h

theorem Delivery.carries {id : String} {s t : MarketStore} (h : Delivery id KeepsHistory Whole s t)
    (h_carries : CarriesEntitlement s id) : CarriesEntitlement t id := by
  obtain ⟨h_call, h_run, h_whole⟩ := h
  rename_i call r
  obtain ⟨h_reached, h_ends⟩ := (settle_withstands h_call s).executes h_run
  suffices h_delivered : Delivered s id t from h_delivered.carries h_carries
  match r, h_ends, h_whole with
  | some (.ok result), h_ends, _ => exact h_ends _ rfl
  | some (.error e), _, h_whole => exact h_reached.delivered h_whole
  | none, _, h_whole => exact h_reached.delivered h_whole

/-- After any sequence of deliveries of the payments of one subscription, the entitlement ends
    with the period that was paid, if no transition loses its answer and no delivery is cut
    short between its transition and its grant. -/
theorem paid_activation_carries_entitlement {id : String} {s₀ s : MarketStore}
    (h_start : CarriesEntitlement s₀ id)
    (h_run : Relation.ReflTransGen (Delivery id KeepsHistory Whole) s₀ s) :
    CarriesEntitlement s id := by
  induction h_run with
  | refl => exact h_start
  | tail _ h_delivery ih => exact h_delivery.carries ih

/-! ## The first payment and the second -/

/-- The payments, settled one after the other without any failure. -/
def settleInTurn (s : MarketStore) (deliveries : List SettleCall) : MarketStore :=
  deliveries.foldl (fun s call => ((settle call).run handle s).2) s

theorem settleInTurn_delivery {id : String} {loses : MarketOp → MarketStore → Prop}
    {P : Option (Except MarketError SettlementResult) → MarketStore → MarketStore → Prop}
    {s : MarketStore} {call : SettleCall} (h_call : call.Delivers id)
    (h : P (some ((settle call).run handle s).1) s (settleInTurn s [call])) :
    Delivery id loses P s (settleInTurn s [call]) :=
  .settle h_call (.run (settle call) s) h

def januaryActivation : SettleCall := paymentFor "first" january5

def januaryRenewal : SettleCall := paymentFor "second" january20

theorem januaryActivation_delivers : januaryActivation.Delivers "subscription" := ⟨rfl, rfl, rfl⟩

theorem januaryRenewal_delivers : januaryRenewal.Delivers "subscription" := ⟨rfl, rfl, rfl⟩

def activated : MarketStore := settleInTurn (unsettled checkedOut) [januaryActivation]

def redelivered : MarketStore := settleInTurn activated [januaryActivation]

/-- The first payment brings its permission, and a redelivery keeps it. -/
theorem paid_activation_carries_entitlement_of_redelivery :
    ActivatedByPayment redelivered "subscription" ∧ CarriesEntitlement redelivered "subscription" := by
  have h_start : CarriesEntitlement (unsettled checkedOut) "subscription" := fun h_active =>
    absurd h_active (by decide)
  have h_first : Whole (some ((settle januaryActivation).run handle (unsettled checkedOut)).1)
      (unsettled checkedOut) activated := .of (Or.inr (by decide +kernel))
  have h_second : Whole (some ((settle januaryActivation).run handle activated).1)
      activated redelivered := .of (Or.inl (by decide +kernel))
  have h_run : Relation.ReflTransGen (Delivery "subscription" KeepsHistory Whole)
      (unsettled checkedOut) redelivered :=
    .tail (.tail .refl (settleInTurn_delivery januaryActivation_delivers h_first))
      (settleInTurn_delivery januaryActivation_delivers h_second)
  exact ⟨by decide +kernel, paid_activation_carries_entitlement h_start h_run⟩

/-! ## A renewal -/

/-- The second payment, which extends the period, and its redelivery. -/
def renewed : MarketStore := settleInTurn activated [januaryRenewal]

def renewedAgain : MarketStore := settleInTurn renewed [januaryRenewal]

/-- Nothing fails, yet the grant of the renewal is refused by the permission that is there, and
    the call raises.  The redelivery returns, and the permission still ends with the period
    before. -/
theorem renewal_leaves_entitlement_behind :
    Relation.ReflTransGen (Delivery "subscription" (fun _ _ => False) fun _ _ _ => True)
        (unsettled checkedOut) renewedAgain ∧
      ((settle januaryRenewal).run handle activated).1 = .error .settlementPersistFailed ∧
      ((settle januaryRenewal).run handle renewed).1
        = .ok { outcome := .duplicateIgnored, fromStatus := some .active } ∧
      expiryOf renewedAgain = some (onDay 3 5 (by decide) (by decide)) ∧
      (renewedAgain.permissions.map (·.expiresAt)) = [some (onDay 2 5 (by decide) (by decide))] ∧
      ActivatedByPayment renewedAgain "subscription" ∧
      ¬ EntitledUntilExpiry renewedAgain "subscription" := by
  refine ⟨?_, by decide +kernel, by decide +kernel, by decide +kernel, by decide +kernel,
    by decide +kernel, by decide +kernel⟩
  exact .tail (.tail (.tail .refl (settleInTurn_delivery januaryActivation_delivers trivial))
    (settleInTurn_delivery januaryRenewal_delivers trivial))
    (settleInTurn_delivery januaryRenewal_delivers trivial)

end VyomQuant.Marketplace
