/-
  VyomQuant.Marketplace.CreatorPayouts

  `create_creator_payout` and `settle_creator_payout` over the settlement ledger, the
  payouts and the claims.  The advisory lock and the row lock make each call one atomic
  step, and a call that raises is rolled back.

  A claim ties one settlement to one payout, so the claims are an allotment of the ledger
  rows.  Creating a payout assigns free rows, rejecting one releases them, and the three
  totals of an owner's currency stay in balance for that reason alone.
-/

import Mathlib.Data.List.Dedup
import VyomQuant.Lib.Allotment
import VyomQuant.Lib.Run
import VyomQuant.Marketplace.Store

namespace VyomQuant.Marketplace.CreatorPayouts

open Except

/-! ## Rows -/

/-- One row of `marketplace_settlements`, with its primary key. -/
structure LedgerRow extends SettlementRow where
  id : String
deriving DecidableEq

/-- `chk_creator_payout_status`. -/
inductive PayoutStatus where
  | pending
  | completed
  | rejected
deriving DecidableEq

/-- One row of `marketplace_creator_payouts`. -/
structure PayoutRow where
  id : String
  ownerId : String
  amountMinor : ℤ
  currency : Currency
  status : PayoutStatus
  periodStart : Instant
  periodEnd : Instant
  reference : Option String
  reason : Option String
  settledAt : Option Instant

/-- One row of `marketplace_creator_payout_claims`. -/
structure ClaimRow where
  payoutId : String
  settlementId : String

/-- The three tables; the key of the claims is `uq_creator_payout_claim_settlement`. -/
structure PayoutStore where
  settlements : KeyedList LedgerRow.id
  payouts : KeyedList PayoutRow.id
  claims : KeyedList ClaimRow.settlementId

def PayoutStore.empty : PayoutStore := ⟨.empty, .empty, .empty⟩

inductive PayoutError where
  /-- The statement did not complete. -/
  | connectionLost
  /-- `PY001`: a required argument is missing or out of range. -/
  | py001
  /-- `PY002`: no such payout. -/
  | py002
  /-- `PY003`: an argument is invalid. -/
  | py003
  /-- `PY004`: the payout is already terminal. -/
  | py004
  /-- `22003`. -/
  | numericValueOutOfRange
  /-- `23505`. -/
  | uniqueViolation
  /-- `23514`. -/
  | checkViolation

/-! ## The ledger -/

/-- `chk_settlement_amounts` and `chk_settlement_conserved`. -/
def amountsOk (row : SettlementRow) : Prop :=
  0 ≤ row.amountMinor ∧ 0 ≤ row.ownerShareMinor ∧ 0 ≤ row.platformFeeMinor ∧
    row.ownerShareMinor + row.platformFeeMinor = row.amountMinor

instance (row : SettlementRow) : Decidable (amountsOk row) :=
  inferInstanceAs (Decidable (_ ∧ _))

/-- `chk_settlement_reversal_reference`. -/
def reversalOk (row : SettlementRow) : Prop :=
  row.isReversal = row.reversesReference.isSome

instance (row : SettlementRow) : Decidable (reversalOk row) :=
  inferInstanceAs (Decidable (_ = _))

/-- The INSERT of a settlement, `ON CONFLICT (provider_reference, is_reversal) DO NOTHING`. -/
def insertSettlement (s : PayoutStore) (row : LedgerRow) : Except PayoutError PayoutStore := do
  refuseIf (¬ amountsOk row.toSettlementRow) .checkViolation
  refuseIf (¬ reversalOk row.toSettlementRow) .checkViolation
  if ∃ stored ∈ s.settlements.items, stored.key = row.key then return s
  else do
    refuseIf (∃ stored ∈ s.settlements.items, stored.id = row.id) .uniqueViolation
    return { s with settlements := s.settlements.put row }

/-- What a row adds to its owner's earnings. -/
def LedgerRow.signedShare (row : LedgerRow) : ℤ :=
  if row.isReversal then -row.ownerShareMinor else row.ownerShareMinor

/-- The signed sum of the owner shares. -/
def net (rows : List LedgerRow) : ℤ := Allotment.total LedgerRow.signedShare rows

def payoutOf (s : PayoutStore) (row : LedgerRow) : Option String :=
  (s.claims.get? row.id).map ClaimRow.payoutId

def claimedBy (s : PayoutStore) (payoutId : String) : List LedgerRow :=
  Allotment.held (payoutOf s) s.settlements.items payoutId

def unclaimed (s : PayoutStore) : List LedgerRow :=
  Allotment.free (payoutOf s) s.settlements.items

/-! ## create_creator_payout -/

structure CreatePayoutArgs where
  ownerId : Option String
  periodStart : Option Instant
  periodEnd : Option Instant
  /-- `gen_random_uuid()` for the payout of each currency. -/
  newId : Currency → String

/-- One group of the function's query: `s.currency`, the `sum` and the `array_agg`. -/
structure UnclaimedGroup where
  currency : Currency
  total : ℤ
  settlementIds : List String

def unclaimedOf (s : PayoutStore) (ownerId : String) : List LedgerRow :=
  (unclaimed s).filter fun row => row.ownerId = ownerId

def groupRows (s : PayoutStore) (ownerId : String) (currency : Currency) : List LedgerRow :=
  (unclaimedOf s ownerId).filter fun row => row.currency = currency

def unclaimedGroup (s : PayoutStore) (ownerId : String) (currency : Currency) : UnclaimedGroup where
  currency := currency
  total := net (groupRows s ownerId currency)
  settlementIds := (groupRows s ownerId currency).map LedgerRow.id

/-- `GROUP BY s.currency`. -/
def unclaimedGroups (s : PayoutStore) (ownerId : String) : List UnclaimedGroup :=
  ((unclaimedOf s ownerId).map fun row => row.currency).dedup.map (unclaimedGroup s ownerId)

/-- Whether a sum fits `v_total bigint`. -/
def fitsBigint (total : ℤ) : Prop := -2 ^ 63 ≤ total ∧ total < 2 ^ 63

instance (total : ℤ) : Decidable (fitsBigint total) := inferInstanceAs (Decidable (_ ∧ _))

def insertPayout (s : PayoutStore) (payout : PayoutRow) : Except PayoutError PayoutStore := do
  refuseIf (payout.amountMinor ≤ 0) .checkViolation
  refuseIf (∃ stored ∈ s.payouts.items, stored.id = payout.id) .uniqueViolation
  return { s with payouts := s.payouts.put payout }

def insertClaim (payoutId : String) (s : PayoutStore) (settlementId : String) :
    Except PayoutError PayoutStore := do
  refuseIf (∃ stored ∈ s.claims.items, stored.settlementId = settlementId) .uniqueViolation
  return { s with claims := s.claims.put { payoutId, settlementId } }

/-- The row the loop inserts for a group. -/
def pendingPayout (ownerId : String) (periodStart periodEnd : Instant)
    (newId : Currency → String) (group : UnclaimedGroup) : PayoutRow where
  id := newId group.currency
  ownerId := ownerId
  amountMinor := group.total
  currency := group.currency
  status := .pending
  periodStart := periodStart
  periodEnd := periodEnd
  reference := none
  reason := none
  settledAt := none

/-- The loop body: no payout for a total that is not positive. -/
def payGroup (payout : UnclaimedGroup → PayoutRow) (acc : List PayoutRow × PayoutStore)
    (group : UnclaimedGroup) : Except PayoutError (List PayoutRow × PayoutStore) := do
  refuseIf (¬ fitsBigint group.total) .numericValueOutOfRange
  if group.total ≤ 0 then return acc
  else do
    let s ← insertPayout acc.2 (payout group)
    let s ← group.settlementIds.foldlM (insertClaim (payout group).id) s
    return (acc.1 ++ [payout group], s)

/-- `create_creator_payout`: the payouts it returns and the tables after it. -/
def createCreatorPayout (s : PayoutStore) (args : CreatePayoutArgs) :
    Except PayoutError (List PayoutRow × PayoutStore) := do
  let ownerId ← ofOption .py001 args.ownerId
  let periodStart ← ofOption .py001 args.periodStart
  let periodEnd ← ofOption .py001 args.periodEnd
  refuseIf (periodEnd < periodStart) .py001
  (unclaimedGroups s ownerId).foldlM
    (payGroup (pendingPayout ownerId periodStart periodEnd args.newId)) ([], s)

/-! ## settle_creator_payout -/

structure SettlePayoutArgs where
  payoutId : String
  status : Option String
  reference : Option String
  reason : Option String
  now : Instant

/-- `btrim(text) = ''`. -/
def isBlank (text : String) : Bool := text.toList.all fun c => c == ' '

/-- `settle_creator_payout`.  A null status passes the first check, `NULL NOT IN (..)` being
    null, and takes the rejecting branch. -/
def settleCreatorPayout (s : PayoutStore) (args : SettlePayoutArgs) :
    Except PayoutError (PayoutRow × PayoutStore) := do
  refuseIf (∃ status ∈ args.status, status ≠ "completed" ∧ status ≠ "rejected") .py003
  let payout ← ofOption .py002 (s.payouts.get? args.payoutId)
  refuseIf (payout.status ≠ .pending) .py004
  if args.status = some "completed" then do
    refuseIf (∀ reference ∈ args.reference, isBlank reference = true) .py003
    let payout := { payout with
      status := .completed, reference := args.reference, settledAt := some args.now }
    return (payout, { s with payouts := s.payouts.put payout })
  else
    let payout := { payout with
      status := .rejected, reason := some (args.reason.getD "Not specified"),
      settledAt := some args.now }
    return (payout, { s with
      payouts := s.payouts.put payout
      claims := s.claims.removeAll fun claim => claim.payoutId = payout.id })

/-! ## Runs -/

inductive PayoutCall where
  | insertSettlement (row : LedgerRow)
  | createCreatorPayout (args : CreatePayoutArgs)
  | settleCreatorPayout (args : SettlePayoutArgs)

def payoutStep (s : PayoutStore) : PayoutCall → Except PayoutError PayoutStore
  | .insertSettlement row => insertSettlement s row
  | .createCreatorPayout args => (·.2) <$> createCreatorPayout s args
  | .settleCreatorPayout args => (·.2) <$> settleCreatorPayout s args

/-! ## What the statements do -/

variable {s s' : PayoutStore} {row : LedgerRow}

theorem insertSettlement_eq_ok (h : insertSettlement s row = .ok s') :
    s' = s ∨ ((∀ stored ∈ s.settlements.items, stored.id ≠ row.id) ∧
      s' = { s with settlements := s.settlements.put row }) := by
  unfold insertSettlement at h
  obtain ⟨_, _, h⟩ := bind_eq_ok.mp h
  obtain ⟨_, _, h⟩ := bind_eq_ok.mp h
  split at h
  · exact Or.inl (pure_eq_ok.mp h).symm
  · obtain ⟨_, h_fresh, h⟩ := bind_eq_ok.mp h
    refine Or.inr ⟨?_, (pure_eq_ok.mp h).symm⟩
    simpa using refuseIf_eq_ok.mp h_fresh

variable {payout : PayoutRow}

theorem insertPayout_eq_ok (h : insertPayout s payout = .ok s') :
    0 < payout.amountMinor ∧ (∀ stored ∈ s.payouts.items, stored.id ≠ payout.id) ∧
      s' = { s with payouts := s.payouts.put payout } := by
  unfold insertPayout at h
  obtain ⟨_, h_pos, h⟩ := bind_eq_ok.mp h
  obtain ⟨_, h_fresh, h⟩ := bind_eq_ok.mp h
  refine ⟨?_, ?_, (pure_eq_ok.mp h).symm⟩
  · simpa using refuseIf_eq_ok.mp h_pos
  · simpa using refuseIf_eq_ok.mp h_fresh

variable {payoutId ownerId : String}

theorem insertClaim_eq_ok {settlementId : String}
    (h : insertClaim payoutId s settlementId = .ok s') :
    s' = { s with claims := s.claims.put ⟨payoutId, settlementId⟩ } := by
  unfold insertClaim at h
  obtain ⟨_, _, h⟩ := bind_eq_ok.mp h
  exact (pure_eq_ok.mp h).symm

theorem insertClaims_eq_ok {settlementIds : List String}
    (h : settlementIds.foldlM (insertClaim payoutId) s = .ok s') :
    s'.settlements = s.settlements ∧ s'.payouts = s.payouts ∧
      ∀ id, s'.claims.get? id
        = if id ∈ settlementIds then some ⟨payoutId, id⟩ else s.claims.get? id := by
  induction settlementIds generalizing s with
  | nil =>
    rw [List.foldlM_nil, pure_eq_ok] at h
    subst h
    simp
  | cons first rest ih =>
    rw [List.foldlM_cons] at h
    obtain ⟨s₁, h_first, h⟩ := bind_eq_ok.mp h
    rw [insertClaim_eq_ok h_first] at h
    obtain ⟨h_settlements, h_payouts, h_claims⟩ := ih h
    refine ⟨h_settlements, h_payouts, fun id => ?_⟩
    rw [h_claims id, KeyedList.get?_put]
    by_cases h_rest : id ∈ rest
    · simp [h_rest]
    · by_cases h_id : id = first
      · simp [h_id]
      · simp [h_rest, h_id]

theorem payGroup_eq_ok {payout : UnclaimedGroup → PayoutRow}
    {acc acc' : List PayoutRow × PayoutStore} {group : UnclaimedGroup}
    (h : payGroup payout acc group = .ok acc') :
    acc' = acc ∨ ∃ s₁, insertPayout acc.2 (payout group) = .ok s₁ ∧
      group.settlementIds.foldlM (insertClaim (payout group).id) s₁ = .ok acc'.2 := by
  unfold payGroup at h
  obtain ⟨_, _, h⟩ := bind_eq_ok.mp h
  split at h
  · exact Or.inl (pure_eq_ok.mp h).symm
  · obtain ⟨s₁, h_payout, h⟩ := bind_eq_ok.mp h
    obtain ⟨s₂, h_claims, h⟩ := bind_eq_ok.mp h
    refine Or.inr ⟨s₁, h_payout, ?_⟩
    rw [h_claims, ← pure_eq_ok.mp h]

theorem settleCreatorPayout_eq_ok {args : SettlePayoutArgs} {result : PayoutRow × PayoutStore}
    (h : settleCreatorPayout s args = .ok result) :
    ∃ payout ∈ s.payouts.items, payout.status = .pending ∧
      ((∃ reference settledAt, result.2 = { s with
          payouts := s.payouts.put { payout with status := .completed, reference, settledAt } }) ∨
        ∃ reason settledAt, result.2 = { s with
          payouts := s.payouts.put { payout with status := .rejected, reason, settledAt }
          claims := s.claims.removeAll fun claim => claim.payoutId = payout.id }) := by
  unfold settleCreatorPayout at h
  obtain ⟨_, _, h⟩ := bind_eq_ok.mp h
  obtain ⟨payout, h_get, h⟩ := bind_eq_ok.mp h
  obtain ⟨h_mem, _⟩ := KeyedList.mem_of_get? (ofOption_eq_ok.mp h_get)
  obtain ⟨_, h_pending, h⟩ := bind_eq_ok.mp h
  refine ⟨payout, h_mem, by simpa using refuseIf_eq_ok.mp h_pending, ?_⟩
  split at h
  · obtain ⟨_, _, h⟩ := bind_eq_ok.mp h
    exact Or.inl ⟨_, _, by rw [← pure_eq_ok.mp h]⟩
  · exact Or.inr ⟨_, _, by rw [← pure_eq_ok.mp h]⟩

/-! ## The claims are an allotment -/

/-- What keeps the three tables together. -/
structure WellClaimed (s : PayoutStore) : Prop where
  /-- A claimed row is claimed by an open payout of its own owner and currency. -/
  open_payout : ∀ row ∈ s.settlements.items, ∀ id, payoutOf s row = some id →
    ∃ payout ∈ s.payouts.items, payout.id = id ∧ payout.status ≠ .rejected ∧
      payout.ownerId = row.ownerId ∧ payout.currency = row.currency
  amount : ∀ payout ∈ s.payouts.items, payout.status ≠ .rejected →
    payout.amountMinor = net (claimedBy s payout.id)
  positive : ∀ payout ∈ s.payouts.items, 0 < payout.amountMinor
  /-- The foreign key of a claim. -/
  of_ledger : ∀ id, s.claims.get? id ≠ none → ∃ row ∈ s.settlements.items, row.id = id

theorem WellClaimed.empty : WellClaimed .empty where
  open_payout := fun _ h => absurd h List.not_mem_nil
  amount := fun _ h => absurd h List.not_mem_nil
  positive := fun _ h => absurd h List.not_mem_nil
  of_ledger := fun _ h => absurd rfl h

theorem eq_of_mem_of_id {row' : LedgerRow} (h : row ∈ s.settlements.items)
    (h' : row' ∈ s.settlements.items) (h_id : row.id = row'.id) : row = row' :=
  List.inj_on_of_nodup_map s.settlements.nodup h h' h_id

theorem WellClaimed.insertSettlement (h : WellClaimed s)
    (h_fresh : ∀ stored ∈ s.settlements.items, stored.id ≠ row.id) :
    WellClaimed { s with settlements := s.settlements.put row } := by
  have h_items : (s.settlements.put row).items = s.settlements.items ++ [row] :=
    KeyedList.items_put_of_fresh h_fresh
  have h_free : payoutOf s row = none := by
    have h_none : s.claims.get? row.id = none := by
      by_contra h_claimed
      obtain ⟨stored, h_mem, h_id⟩ := h.of_ledger row.id h_claimed
      exact h_fresh stored h_mem h_id
    simp [payoutOf, h_none]
  refine ⟨?_, ?_, h.positive, ?_⟩
  · intro stored h_stored id h_id
    change stored ∈ (s.settlements.put row).items at h_stored
    change payoutOf s stored = some id at h_id
    rw [h_items, List.mem_append, List.mem_singleton] at h_stored
    rcases h_stored with h_old | rfl
    · exact h.open_payout stored h_old id h_id
    · rw [h_free] at h_id
      cases h_id
  · intro payout h_payout h_open
    rw [h.amount payout h_payout h_open]
    show net (Allotment.held (payoutOf s) s.settlements.items payout.id)
      = net (Allotment.held (payoutOf s) (s.settlements.put row).items payout.id)
    rw [h_items]
    simp [Allotment.held, h_free]
  · intro id h_id
    obtain ⟨stored, h_mem, h_eq⟩ := h.of_ledger id h_id
    refine ⟨stored, ?_, h_eq⟩
    show stored ∈ (s.settlements.put row).items
    rw [h_items]
    exact List.mem_append_left _ h_mem

/-! ## Paying one group -/

variable {currency : Currency}

theorem mem_groupRows :
    row ∈ groupRows s ownerId currency ↔ row ∈ s.settlements.items ∧
      payoutOf s row = none ∧ row.ownerId = ownerId ∧ row.currency = currency := by
  simp only [groupRows, unclaimedOf, unclaimed, Allotment.free, List.mem_filter,
    decide_eq_true_eq]
  tauto

theorem filter_settlementIds (s : PayoutStore) (ownerId : String) (currency : Currency) :
    (s.settlements.items.filter fun row =>
        row.id ∈ (unclaimedGroup s ownerId currency).settlementIds)
      = groupRows s ownerId currency := by
  rw [groupRows, unclaimedOf, unclaimed, Allotment.free, List.filter_filter, List.filter_filter]
  apply List.filter_congr
  intro row h_row
  have h_iff : row.id ∈ (unclaimedGroup s ownerId currency).settlementIds
      ↔ row ∈ groupRows s ownerId currency := by
    constructor
    · intro h_id
      obtain ⟨row', h_row', h_eq⟩ := List.mem_map.mp h_id
      exact eq_of_mem_of_id (mem_groupRows.mp h_row').1 h_row h_eq ▸ h_row'
    · exact fun h => List.mem_map_of_mem h
  rw [Bool.eq_iff_iff]
  simp only [decide_eq_true_eq, Bool.and_eq_true, h_iff, mem_groupRows]
  tauto

theorem payoutOf_paid {s₁ : PayoutStore} {ids : List String}
    (h : ids.foldlM (insertClaim payoutId) s₁ = .ok s') (h_claims : s₁.claims = s.claims) :
    payoutOf s' = Allotment.assign (payoutOf s) (fun row => row.id ∈ ids) payoutId := by
  obtain ⟨_, _, h_get⟩ := insertClaims_eq_ok h
  funext row
  rw [payoutOf, h_get row.id, h_claims, Allotment.assign]
  by_cases h_id : row.id ∈ ids
  · simp [h_id]
  · simp [h_id, payoutOf]

theorem WellClaimed.payGroup {acc acc' : List PayoutRow} {periodStart periodEnd : Instant}
    {newId : Currency → String} (h : WellClaimed s)
    (h_pay : payGroup (pendingPayout ownerId periodStart periodEnd newId) (acc, s) (unclaimedGroup s ownerId currency) = .ok (acc', s')) :
    WellClaimed s' ∧ s'.settlements = s.settlements ∧
      ∀ row ∈ s.settlements.items, row.currency ≠ currency → payoutOf s' row = payoutOf s row := by
  rcases payGroup_eq_ok h_pay with h_same | ⟨s₁, h_payout, h_claims⟩
  · cases h_same
    exact ⟨h, rfl, fun _ _ _ => rfl⟩
  obtain ⟨h_pos, h_fresh, rfl⟩ := insertPayout_eq_ok h_payout
  set group := unclaimedGroup s ownerId currency with h_group
  set payout := pendingPayout ownerId periodStart periodEnd newId group
  obtain ⟨h_settlements, h_payouts, h_get⟩ := insertClaims_eq_ok h_claims
  have h_settlements : s'.settlements = s.settlements := h_settlements
  have h_holder : payoutOf s'
      = Allotment.assign (payoutOf s) (fun row => row.id ∈ group.settlementIds) payout.id :=
    payoutOf_paid h_claims rfl
  -- Nothing refers to the new payout's id, and the rows it is given are free.
  have h_unheld : ∀ row ∈ s.settlements.items, payoutOf s row ≠ some payout.id := by
    intro row h_row h_eq
    obtain ⟨stored, h_mem, h_id, _⟩ := h.open_payout row h_row payout.id h_eq
    exact h_fresh stored h_mem h_id
  have h_rows : ∀ row ∈ s.settlements.items, row.id ∈ group.settlementIds →
      row ∈ groupRows s ownerId currency := by
    intro row h_row h_id
    have h_mem : row ∈ s.settlements.items.filter fun row => row.id ∈ group.settlementIds :=
      List.mem_filter.mpr ⟨h_row, by simpa using h_id⟩
    rwa [h_group, filter_settlementIds] at h_mem
  have h_items : s'.payouts.items = s.payouts.items ++ [payout] := by
    rw [h_payouts]
    exact KeyedList.items_put_of_fresh h_fresh
  refine ⟨⟨?_, ?_, ?_, ?_⟩, h_settlements, ?_⟩
  · intro row h_row id h_id
    rw [h_settlements] at h_row
    rw [h_items]
    rw [h_holder, Allotment.assign] at h_id
    split at h_id
    · rename_i h_listed
      obtain ⟨_, _, h_owner, h_currency⟩ := mem_groupRows.mp (h_rows row h_row h_listed)
      refine ⟨payout, by simp, Option.some.inj h_id, ?_, h_owner.symm, h_currency.symm⟩
      show PayoutStatus.pending ≠ .rejected
      simp
    · obtain ⟨stored, h_mem, h_rest⟩ := h.open_payout row h_row id h_id
      exact ⟨stored, List.mem_append_left _ h_mem, h_rest⟩
  · intro stored h_stored h_open
    show stored.amountMinor
      = net (Allotment.held (payoutOf s') s'.settlements.items stored.id)
    rw [h_items, List.mem_append, List.mem_singleton] at h_stored
    rw [h_settlements, h_holder]
    rcases h_stored with h_old | rfl
    · rw [Allotment.held_assign_of_ne (h_fresh stored h_old)
        fun row h_row h_id => (mem_groupRows.mp (h_rows row h_row h_id)).2.1]
      exact h.amount stored h_old h_open
    · rw [Allotment.held_assign_self h_unheld, h_group, filter_settlementIds]
      rfl
  · intro stored h_stored
    rw [h_items, List.mem_append, List.mem_singleton] at h_stored
    rcases h_stored with h_old | rfl
    · exact h.positive stored h_old
    · exact h_pos
  · intro id h_id
    rw [h_settlements]
    rw [h_get id] at h_id
    split at h_id
    · rename_i h_listed
      obtain ⟨row, h_row, h_eq⟩ := List.mem_map.mp h_listed
      exact ⟨row, (mem_groupRows.mp h_row).1, h_eq⟩
    · exact h.of_ledger id h_id
  · intro row h_row h_ne
    have h_unlisted : row.id ∉ group.settlementIds := fun h_id =>
      h_ne (mem_groupRows.mp (h_rows row h_row h_id)).2.2.2
    rw [h_holder, Allotment.assign, if_neg h_unlisted]

theorem unclaimedGroup_congr (h_settlements : s'.settlements = s.settlements)
    (h_holder : ∀ row ∈ s.settlements.items, row.currency = currency → payoutOf s' row = payoutOf s row) :
    unclaimedGroup s' ownerId currency = unclaimedGroup s ownerId currency := by
  have h_rows : groupRows s' ownerId currency = groupRows s ownerId currency := by
    simp only [groupRows, unclaimedOf, unclaimed, Allotment.free, List.filter_filter,
      h_settlements]
    apply List.filter_congr
    intro row h_row
    by_cases h_currency : row.currency = currency
    · rw [h_holder row h_row h_currency]
    · simp [h_currency]
  rw [unclaimedGroup, unclaimedGroup, h_rows]

theorem WellClaimed.payGroups {periodStart periodEnd : Instant} {newId : Currency → String}
    {s₀ : PayoutStore} {currencies : List Currency} (h_nodup : currencies.Nodup)
    {acc : List PayoutRow} {result : List PayoutRow × PayoutStore} (h : WellClaimed s)
    (h_settlements : s.settlements = s₀.settlements)
    (h_holder : ∀ row ∈ s₀.settlements.items, row.currency ∈ currencies → payoutOf s row = payoutOf s₀ row)
    (h_pay : (currencies.map (unclaimedGroup s₀ ownerId)).foldlM (CreatorPayouts.payGroup (pendingPayout ownerId periodStart periodEnd newId)) (acc, s) = .ok result) :
    WellClaimed result.2 := by
  induction currencies generalizing acc s with
  | nil =>
    rw [List.map_nil, List.foldlM_nil, pure_eq_ok] at h_pay
    exact h_pay ▸ h
  | cons currency rest ih =>
    rw [List.nodup_cons] at h_nodup
    rw [List.map_cons, List.foldlM_cons] at h_pay
    obtain ⟨⟨acc₁, s₁⟩, h_first, h_rest⟩ := bind_eq_ok.mp h_pay
    have h_group : unclaimedGroup s ownerId currency = unclaimedGroup s₀ ownerId currency :=
      unclaimedGroup_congr h_settlements fun row h_row h_currency =>
        h_holder row h_row (h_currency ▸ List.mem_cons_self)
    rw [← h_group] at h_first
    obtain ⟨h_well, h_settlements₁, h_same⟩ := h.payGroup h_first
    refine ih h_nodup.2 h_well (h_settlements₁.trans h_settlements) ?_ h_rest
    intro row h_row h_currency
    have h_ne : row.currency ≠ currency := fun h_eq => h_nodup.1 (h_eq ▸ h_currency)
    rw [h_same row (h_settlements ▸ h_row) h_ne]
    exact h_holder row h_row (List.mem_cons_of_mem _ h_currency)

theorem WellClaimed.createCreatorPayout {args : CreatePayoutArgs}
    {result : List PayoutRow × PayoutStore} (h : WellClaimed s)
    (h_create : createCreatorPayout s args = .ok result) : WellClaimed result.2 := by
  unfold CreatorPayouts.createCreatorPayout at h_create
  obtain ⟨ownerId, _, h_create⟩ := bind_eq_ok.mp h_create
  obtain ⟨periodStart, _, h_create⟩ := bind_eq_ok.mp h_create
  obtain ⟨periodEnd, _, h_create⟩ := bind_eq_ok.mp h_create
  obtain ⟨_, _, h_create⟩ := bind_eq_ok.mp h_create
  exact h.payGroups (List.nodup_dedup _) rfl (fun _ _ _ => rfl) h_create

/-! ## Settling a payout -/

/-- Replacing an open payout by another of the same amount, owner and currency, open as
    well, keeps the claims in order. -/
theorem WellClaimed.completed {settled : PayoutRow} (h : WellClaimed s)
    (h_mem : payout ∈ s.payouts.items) (h_open : payout.status ≠ .rejected)
    (h_settled : settled.status ≠ .rejected) (h_id : settled.id = payout.id)
    (h_owner : settled.ownerId = payout.ownerId) (h_currency : settled.currency = payout.currency)
    (h_amount : settled.amountMinor = payout.amountMinor) :
    WellClaimed { s with payouts := s.payouts.put settled } := by
  refine ⟨?_, ?_, ?_, h.of_ledger⟩
  · intro row h_row id h_claim
    obtain ⟨stored, h_stored, h_stored_id, h_rest⟩ := h.open_payout row h_row id h_claim
    by_cases h_eq : stored.id = payout.id
    · have h_same : stored = payout :=
        List.inj_on_of_nodup_map s.payouts.nodup h_stored h_mem h_eq
      subst h_same
      refine ⟨settled, (KeyedList.mem_of_get? (KeyedList.get?_put_self _ _)).1, ?_, h_settled, ?_⟩
      · exact h_id.trans h_stored_id
      · exact ⟨h_owner.trans h_rest.2.1, h_currency.trans h_rest.2.2⟩
    · refine ⟨stored, ?_, h_stored_id, h_rest⟩
      have h_get : (s.payouts.put settled).get? stored.id = some stored := by
        rw [KeyedList.get?_put, if_neg (h_id ▸ h_eq), KeyedList.get?_key_of_mem h_stored]
      exact (KeyedList.mem_of_get? h_get).1
  · intro stored h_stored h_stored_open
    rcases KeyedList.mem_put h_stored with rfl | ⟨h_old, _⟩
    · rw [h_amount, h_id]
      exact h.amount payout h_mem h_open
    · exact h.amount stored h_old h_stored_open
  · intro stored h_stored
    rcases KeyedList.mem_put h_stored with rfl | ⟨h_old, _⟩
    · rw [h_amount]
      exact h.positive payout h_mem
    · exact h.positive stored h_old

theorem payoutOf_removed (s : PayoutStore) (payouts : KeyedList PayoutRow.id)
    (payoutId : String) :
    payoutOf { s with
        payouts, claims := s.claims.removeAll fun claim => claim.payoutId = payoutId }
      = Allotment.release (payoutOf s) payoutId := by
  funext row
  rw [payoutOf, KeyedList.get?_removeAll, Allotment.release, payoutOf]
  cases s.claims.get? row.id with
  | none => rfl
  | some claim =>
    by_cases h : claim.payoutId = payoutId
    · simp [h]
    · simp [h]

theorem WellClaimed.rejected {settled : PayoutRow} (h : WellClaimed s)
    (h_mem : payout ∈ s.payouts.items) (h_settled : settled.status = .rejected)
    (h_id : settled.id = payout.id) (h_amount : settled.amountMinor = payout.amountMinor) :
    WellClaimed { s with
      payouts := s.payouts.put settled
      claims := s.claims.removeAll fun claim => claim.payoutId = payout.id } := by
  have h_holder := payoutOf_removed s (s.payouts.put settled) payout.id
  refine ⟨?_, ?_, ?_, ?_⟩
  · intro row h_row id h_claim
    rw [h_holder, Allotment.release] at h_claim
    split at h_claim
    · cases h_claim
    rename_i h_other
    obtain ⟨stored, h_stored, h_stored_id, h_rest⟩ := h.open_payout row h_row id h_claim
    refine ⟨stored, ?_, h_stored_id, h_rest⟩
    have h_ne : stored.id ≠ settled.id := by
      intro h_eq
      exact h_other (by rw [h_claim, ← h_stored_id, h_eq, h_id])
    have h_get : (s.payouts.put settled).get? stored.id = some stored := by
      rw [KeyedList.get?_put, if_neg h_ne, KeyedList.get?_key_of_mem h_stored]
    exact (KeyedList.mem_of_get? h_get).1
  · intro stored h_stored h_open
    rcases KeyedList.mem_put h_stored with rfl | ⟨h_old, h_ne⟩
    · exact absurd h_settled h_open
    · rw [claimedBy, h_holder, Allotment.held_release_of_ne (h_id ▸ h_ne)]
      exact h.amount stored h_old h_open
  · intro stored h_stored
    rcases KeyedList.mem_put h_stored with rfl | ⟨h_old, _⟩
    · rw [h_amount]
      exact h.positive payout h_mem
    · exact h.positive stored h_old
  · intro id h_claimed
    apply h.of_ledger id
    intro h_none
    rw [KeyedList.get?_removeAll, h_none] at h_claimed
    exact h_claimed rfl

theorem WellClaimed.settleCreatorPayout {args : SettlePayoutArgs} {result : PayoutRow × PayoutStore}
    (h : WellClaimed s) (h_settle : settleCreatorPayout s args = .ok result) :
    WellClaimed result.2 := by
  obtain ⟨payout, h_mem, h_pending, h_cases⟩ := settleCreatorPayout_eq_ok h_settle
  have h_open : payout.status ≠ .rejected := by simp [h_pending]
  rcases h_cases with ⟨reference, settledAt, h_eq⟩ | ⟨reason, settledAt, h_eq⟩
  · rw [h_eq]
    exact h.completed h_mem h_open nofun rfl rfl rfl rfl
  · rw [h_eq]
    exact h.rejected h_mem rfl rfl rfl

/-! ## Conservation -/

def ledgerOf (s : PayoutStore) (ownerId : String) (currency : Currency) : List LedgerRow :=
  s.settlements.items.filter fun row => row.ownerId = ownerId ∧ row.currency = currency

/-- The pending and completed payouts of an owner in a currency. -/
def openPayouts (s : PayoutStore) (ownerId : String) (currency : Currency) : List PayoutRow :=
  s.payouts.items.filter fun payout =>
    payout.status ≠ .rejected ∧ payout.ownerId = ownerId ∧ payout.currency = currency

def Claims (s : PayoutStore) (payout : PayoutRow) (row : LedgerRow) : Prop :=
  ∃ claim ∈ s.claims.items, claim.payoutId = payout.id ∧ claim.settlementId = row.id

/-- The payouts and the ledger agree. -/
structure PayoutsConserve (s : PayoutStore) : Prop where
  claimed_once : ∀ row ∈ s.settlements.items, ∀ payout ∈ s.payouts.items,
    ∀ payout' ∈ s.payouts.items, Claims s payout row → Claims s payout' row → payout = payout'
  claimed_open : ∀ row ∈ s.settlements.items, ∀ payout ∈ s.payouts.items,
    Claims s payout row → payout.status ≠ .rejected
  amount : ∀ payout ∈ s.payouts.items, payout.status ≠ .rejected →
    payout.amountMinor = net (claimedBy s payout.id)
  positive : ∀ payout ∈ s.payouts.items, 0 < payout.amountMinor
  balance : ∀ ownerId currency,
    ((openPayouts s ownerId currency).map PayoutRow.amountMinor).sum
        + net ((ledgerOf s ownerId currency).filter fun row => payoutOf s row = none)
      = net (ledgerOf s ownerId currency)

theorem claims_iff : Claims s payout row ↔ payoutOf s row = some payout.id := by
  rw [payoutOf, Option.map_eq_some_iff]
  constructor
  · rintro ⟨claim, h_claim, h_payout, h_row⟩
    exact ⟨claim, KeyedList.get?_eq_some_iff.mpr ⟨h_claim, h_row⟩, h_payout⟩
  · rintro ⟨claim, h_get, h_payout⟩
    obtain ⟨h_claim, h_row⟩ := KeyedList.mem_of_get? h_get
    exact ⟨claim, h_claim, h_payout, h_row⟩

theorem eq_of_mem_of_payout_id {payout' : PayoutRow} (h : payout ∈ s.payouts.items)
    (h' : payout' ∈ s.payouts.items) (h_id : payout.id = payout'.id) : payout = payout' :=
  List.inj_on_of_nodup_map s.payouts.nodup h h' h_id

/-- The three totals of an owner's currency: the allotment of its rows to its open payouts. -/
theorem WellClaimed.balance (h : WellClaimed s) (ownerId : String) (currency : Currency) :
    ((openPayouts s ownerId currency).map PayoutRow.amountMinor).sum
        + net ((ledgerOf s ownerId currency).filter fun row => payoutOf s row = none)
      = net (ledgerOf s ownerId currency) := by
  have h_holders : ∀ row ∈ ledgerOf s ownerId currency, ∀ id, payoutOf s row = some id →
      id ∈ (openPayouts s ownerId currency).map PayoutRow.id := by
    intro row h_row id h_id
    obtain ⟨h_mem, h_of⟩ := List.mem_filter.mp h_row
    have h_of : row.ownerId = ownerId ∧ row.currency = currency := by simpa using h_of
    obtain ⟨payout, h_payout, rfl, h_open, h_owner, h_currency⟩ := h.open_payout row h_mem id h_id
    refine List.mem_map_of_mem (List.mem_filter.mpr ⟨h_payout, ?_⟩)
    simp [h_open, h_owner, h_currency, h_of]
  have h_nodup : ((openPayouts s ownerId currency).map PayoutRow.id).Nodup :=
    s.payouts.nodup.sublist (List.filter_sublist.map _)
  have h_amounts : (openPayouts s ownerId currency).map PayoutRow.amountMinor
      = ((openPayouts s ownerId currency).map PayoutRow.id).map fun id =>
          net (Allotment.held (payoutOf s) (ledgerOf s ownerId currency) id) := by
    rw [List.map_map]
    apply List.map_congr_left
    intro payout h_payout
    obtain ⟨h_mem, h_of⟩ := List.mem_filter.mp h_payout
    have h_of : payout.status ≠ .rejected ∧ payout.ownerId = ownerId ∧
        payout.currency = currency := by simpa using h_of
    have h_own : ∀ row ∈ s.settlements.items, payoutOf s row = some payout.id →
        row.ownerId = ownerId ∧ row.currency = currency := by
      intro row h_row h_id
      obtain ⟨payout', h_mem', h_id', _, h_owner, h_currency⟩ := h.open_payout row h_row _ h_id
      rw [eq_of_mem_of_payout_id h_mem' h_mem h_id'] at h_owner h_currency
      exact ⟨h_owner.symm.trans h_of.2.1, h_currency.symm.trans h_of.2.2⟩
    rw [Function.comp_apply, ledgerOf, Allotment.held_filter h_own]
    exact h.amount payout h_mem h_of.1
  rw [h_amounts]
  exact Allotment.total_held_add_total_free h_nodup h_holders

theorem WellClaimed.conserve (h : WellClaimed s) : PayoutsConserve s where
  claimed_once := by
    intro row _ payout h_payout payout' h_payout' h_claim h_claim'
    have h_eq := (claims_iff.mp h_claim).symm.trans (claims_iff.mp h_claim')
    exact eq_of_mem_of_payout_id h_payout h_payout' (Option.some.inj h_eq)
  claimed_open := by
    intro row h_row payout h_payout h_claim
    obtain ⟨payout', h_mem, h_id, h_open, _⟩ :=
      h.open_payout row h_row payout.id (claims_iff.mp h_claim)
    exact eq_of_mem_of_payout_id h_mem h_payout h_id ▸ h_open
  amount := h.amount
  positive := h.positive
  balance := h.balance

theorem WellClaimed.step {call : PayoutCall} (h : WellClaimed s)
    (h_step : payoutStep s call = .ok s') : WellClaimed s' := by
  cases call with
  | insertSettlement row =>
    rcases insertSettlement_eq_ok h_step with rfl | ⟨h_fresh, rfl⟩
    · exact h
    · exact h.insertSettlement h_fresh
  | createCreatorPayout args =>
    obtain ⟨result, h_create, rfl⟩ := map_eq_ok.mp h_step
    exact h.createCreatorPayout h_create
  | settleCreatorPayout args =>
    obtain ⟨result, h_settle, rfl⟩ := map_eq_ok.mp h_step
    exact h.settleCreatorPayout h_settle

/-- Whatever the calls and their order, a settlement is claimed by at most one payout and that
    one is open, an open payout is the net of what it claims, and open payouts and unclaimed
    settlements make the ledger's net. -/
theorem creator_payouts_conserve (calls : List PayoutCall) :
    PayoutsConserve (Run.final payoutStep .empty calls) := by
  have h_well : WellClaimed (Run.final payoutStep .empty calls) :=
    Run.final_invariant (P := fun _ => True) (fun _ _ _ h _ h_step => h.step h_step)
      WellClaimed.empty fun _ _ => trivial
  exact h_well.conserve

/-! ## A rejected payout keeps its amount -/

def payday : Instant := { currentExpiry with day := 1, day_bounds := by decide }

def sharedPayment : LedgerRow where
  id := "settlement"
  subscriptionId := "subscription"
  listingId := "listing"
  ownerId := "owner"
  purchaserId := "purchaser"
  amountMinor := 1000
  ownerShareMinor := 900
  platformFeeMinor := 100
  currency := .usd
  provider := .stripe
  providerReference := "payment"
  isReversal := false
  reversesReference := none
  settledAt := payday

def weekOfPayment : CreatePayoutArgs where
  ownerId := some "owner"
  periodStart := some payday
  periodEnd := some payday
  newId := fun _ => "payout"

def rejection : SettlePayoutArgs where
  payoutId := "payout"
  status := some "rejected"
  reference := none
  reason := none
  now := payday

/-- The rejected payout claims nothing and still records the 900 it was made for. -/
theorem rejected_payout_keeps_amount :
    ¬ ∀ calls, ∀ payout ∈ (Run.final payoutStep .empty calls).payouts.items,
      payout.amountMinor = net (claimedBy (Run.final payoutStep .empty calls) payout.id) := by
  intro h
  have h_payout := h [.insertSettlement sharedPayment, .createCreatorPayout weekOfPayment,
    .settleCreatorPayout rejection]
  revert h_payout
  decide +kernel

end VyomQuant.Marketplace.CreatorPayouts
