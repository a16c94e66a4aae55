/-
  VyomQuant.Referral.Conservation

  Conservation of the referral wallets: the balances of a wallet are what the commissions
  that stand have earned, less the payouts that were not rejected.

  Every function adds to the balance of one user what it adds to what that user is owed,
  but for two: a reversal takes `taken` from the balance and `standing` from what is owed,
  and a payout debits `approved - round (approved - amount)` and records `round amount`.
  The balances are conserved over every run in which these agree (`referral_wallets_conserved`),
  and a step in which they do not agree breaks it.
-/

import VyomQuant.Referral.Wallet

namespace VyomQuant.Referral

open Except Decimal

/-! ## What a user is owed -/

/-- What a commission has earned its referrer. -/
def creditOf (user : String) (c : Commission) : ℤ :=
  if c.referrerId = user ∧ c.status ≠ .reversed then c.commissionAmount else 0

def debitOf (user : String) (p : Payout) : ℤ :=
  if p.userId = user ∧ p.status ≠ .rejected then p.amount else 0

def owed (s : ReferralStore) (user : String) : ℤ :=
  (s.commissions.items.map (creditOf user)).sum - (s.payouts.items.map (debitOf user)).sum

/-- The two balances of a user's wallet. -/
def balance (s : ReferralStore) (user : String) : ℤ :=
  ((s.wallets.get? user).map fun w => w.pendingBalance + w.approvedBalance).getD 0

/-- Every wallet holds what its user is owed, and neither balance is negative. -/
def Conserved (s : ReferralStore) : Prop :=
  ∀ w ∈ s.wallets.items, w.pendingBalance + w.approvedBalance = owed s w.userId
    ∧ 0 ≤ w.pendingBalance ∧ 0 ≤ w.approvedBalance

/-- The reversal read the commission that is stored, whatever its status is by now. -/
def Recorded (s : ReferralStore) (c : Commission) : Prop :=
  ∃ row, s.commissions.get? c.paymentId = some row ∧ row.referrerId = c.referrerId
    ∧ row.commissionAmount = c.commissionAmount

/-- What the runs keep.  A user without a wallet is owed nothing. -/
structure Consistent (t : ReferralState) : Prop where
  balance_eq : ∀ user, balance t.store user = owed t.store user
  nonneg : ∀ w ∈ t.store.wallets.items, 0 ≤ w.pendingBalance ∧ 0 ≤ w.approvedBalance
  recorded : ∀ r ∈ t.reversals, Recorded t.store r.commission

variable {t : ReferralState}

theorem Consistent.conserved (h : Consistent t) : Conserved t.store := by
  intro w h_w
  have h_balance := h.balance_eq w.userId
  rw [balance, KeyedList.get?_key_of_mem h_w] at h_balance
  exact ⟨h_balance, h.nonneg w h_w⟩

/-! ## What the writes do -/

section Writes

variable {s s' : ReferralStore} {user : String}

theorem owed_putCommission (c : Commission) :
    owed { s with commissions := s.commissions.put c } user
      = owed s user - ((s.commissions.get? c.paymentId).map (creditOf user)).getD 0
        + creditOf user c := by
  simp only [owed, KeyedList.sum_put]
  omega

theorem owed_putPayout (p : Payout) :
    owed { s with payouts := s.payouts.put p } user
      = owed s user + ((s.payouts.get? p.id).map (debitOf user)).getD 0 - debitOf user p := by
  simp only [owed, KeyedList.sum_put]
  omega

theorem balance_putWallet (w : Wallet) :
    balance { s with wallets := s.wallets.put w } user
      = if user = w.userId then w.pendingBalance + w.approvedBalance else balance s user := by
  unfold balance
  rw [KeyedList.get?_put]
  split <;> rfl

theorem balance_of_get? {w : Wallet} (h : s.wallets.get? user = some w) :
    balance s user = w.pendingBalance + w.approvedBalance := by
  rw [balance, h]
  rfl

theorem putWallet_eq_ok {w : Wallet} (h : putWallet s w = .ok s') :
    s' = { s with wallets := s.wallets.put w } ∧ 0 ≤ w.pendingBalance ∧ 0 ≤ w.approvedBalance := by
  unfold putWallet at h
  obtain ⟨_, _, h⟩ := bind_eq_ok.mp h
  obtain ⟨_, h_sign, h⟩ := bind_eq_ok.mp h
  have h_sign := refuseIf_eq_ok.mp h_sign
  exact ⟨(pure_eq_ok.mp h).symm, by omega, by omega⟩

theorem nonneg_putWallet {w : Wallet} (h : putWallet s w = .ok s')
    (h_nonneg : ∀ w ∈ s.wallets.items, 0 ≤ w.pendingBalance ∧ 0 ≤ w.approvedBalance) :
    ∀ w ∈ s'.wallets.items, 0 ≤ w.pendingBalance ∧ 0 ≤ w.approvedBalance := by
  obtain ⟨rfl, h_pending, h_approved⟩ := putWallet_eq_ok h
  intro w' h_w'
  rcases KeyedList.mem_put h_w' with rfl | ⟨h_old, _⟩
  · exact ⟨h_pending, h_approved⟩
  · exact h_nonneg w' h_old

end Writes

/-! ## process_referral_commission -/

variable {paymentId : String}

theorem newCommission_eq_ok {rel : Relationship} {amount : ℚ} {args : CommissionArgs}
    {c : Commission} (h : newCommission rel paymentId amount args = .ok c) :
    c.status = .pending := by
  unfold newCommission at h
  obtain ⟨_, _, h⟩ := bind_eq_ok.mp h
  obtain ⟨_, _, h⟩ := bind_eq_ok.mp h
  obtain ⟨_, _, h⟩ := bind_eq_ok.mp h
  obtain ⟨_, _, h⟩ := bind_eq_ok.mp h
  rw [← pure_eq_ok.mp h]

theorem creditCommission_eq_ok {s : ReferralStore} {c : Commission}
    {r : Option String × ReferralStore} (h : creditCommission s c = .ok r) :
    r.2 = s ∨ (s.commissions.get? c.paymentId = none ∧
      putWallet { s with commissions := s.commissions.put c } (creditedWallet s c) = .ok r.2) := by
  unfold creditCommission at h
  split at h
  · rw [← pure_eq_ok.mp h]
    exact .inl rfl
  · rename_i h_fresh
    obtain ⟨_, _, h⟩ := bind_eq_ok.mp h
    obtain ⟨s', h_wallet, h⟩ := bind_eq_ok.mp h
    rw [← pure_eq_ok.mp h]
    exact .inr ⟨by simpa using h_fresh, h_wallet⟩

theorem processReferralCommission_eq_ok {s : ReferralStore} {args : CommissionArgs}
    {r : Option String × ReferralStore} (h : processReferralCommission s args = .ok r) :
    r.2 = s ∨ ∃ c : Commission, c.status = .pending ∧ s.commissions.get? c.paymentId = none ∧
      putWallet { s with commissions := s.commissions.put c } (creditedWallet s c) = .ok r.2 := by
  unfold processReferralCommission at h
  split at h
  · split at h
    · cases h
      exact .inl rfl
    · split at h
      · cases h
        exact .inl rfl
      · split at h
        · cases h
          exact .inl rfl
        · obtain ⟨c, h_new, h⟩ := bind_eq_ok.mp h
          rcases creditCommission_eq_ok h with h_same | ⟨h_fresh, h_wallet⟩
          · exact .inl h_same
          · exact .inr ⟨c, newCommission_eq_ok h_new, h_fresh, h_wallet⟩
  · cases h
    exact .inl rfl

theorem creditedWallet_userId (s : ReferralStore) (c : Commission) :
    (creditedWallet s c).userId = c.referrerId := by
  unfold creditedWallet
  split
  · rfl
  · rename_i w h_w
    exact (KeyedList.mem_of_get? h_w).2

theorem creditedWallet_balance (s : ReferralStore) (c : Commission) :
    (creditedWallet s c).pendingBalance + (creditedWallet s c).approvedBalance
      = balance s c.referrerId + c.commissionAmount := by
  unfold creditedWallet
  cases h : s.wallets.get? c.referrerId with
  | none =>
    rw [balance, h]
    show c.commissionAmount + 0 = 0 + c.commissionAmount
    omega
  | some w =>
    rw [balance_of_get? h]
    show w.pendingBalance + c.commissionAmount + w.approvedBalance = _
    omega

theorem Consistent.processCommission {args : CommissionArgs} {r : Option String × ReferralStore}
    (h : Consistent t) (h_run : processReferralCommission t.store args = .ok r) :
    Consistent { t with store := r.2 } := by
  rcases processReferralCommission_eq_ok h_run with h_same | ⟨c, h_status, h_fresh, h_wallet⟩
  · rw [h_same]
    exact h
  · have h_store := (putWallet_eq_ok h_wallet).1
    refine ⟨fun user => ?_, nonneg_putWallet h_wallet h.nonneg, fun r' h_r' => ?_⟩
    · show balance r.2 user = owed r.2 user
      have h_owed : owed r.2 user = owed t.store user + creditOf user c := by
        rw [h_store]
        show owed { t.store with commissions := t.store.commissions.put c } user = _
        rw [owed_putCommission, h_fresh]
        show owed t.store user - 0 + creditOf user c = _
        omega
      have h_balance := h.balance_eq user
      rw [h_owed, h_store, balance_putWallet, creditedWallet_userId, creditedWallet_balance]
      by_cases h_user : user = c.referrerId
      · subst h_user
        rw [if_pos rfl, creditOf, if_pos ⟨rfl, by rw [h_status]; nofun⟩]
        omega
      · rw [if_neg h_user, creditOf, if_neg fun h_both => h_user h_both.1.symm, add_zero]
        exact h_balance
    · obtain ⟨row, h_row, h_same⟩ := h.recorded r' h_r'
      refine ⟨row, ?_, h_same⟩
      show r.2.commissions.get? _ = _
      rw [h_store]
      show (t.store.commissions.put c).get? _ = _
      rw [KeyedList.get?_put, if_neg, h_row]
      intro h_eq
      rw [h_eq, h_fresh] at h_row
      cases h_row

/-! ## reverse_referral_commission -/

/-- What the reversal of `c` takes from the balances of the wallet. -/
def taken (s : ReferralStore) (c : Commission) : ℤ :=
  if c.status = .paid then 0
  else
    match s.wallets.get? c.referrerId with
    | none => 0
    | some w => min w.pendingBalance c.commissionAmount + min w.approvedBalance c.commissionAmount

/-- What `c` adds to what its referrer is owed, as long as it is not reversed. -/
def standing (s : ReferralStore) (c : Commission) : ℤ :=
  match s.commissions.get? c.paymentId with
  | none => 0
  | some row => if row.status = .reversed then 0 else c.commissionAmount

section Reversal

variable {s s' : ReferralStore} {c : Commission} {reason : Option String} {user : String}

theorem selectCommission_recorded (h : selectCommission s c.paymentId = some c) :
    Recorded s c := by
  obtain ⟨h_get, _⟩ := Option.filter_eq_some_iff.mp h
  exact ⟨c, h_get, rfl, rfl⟩

theorem paymentId_of_selectCommission (h : selectCommission s paymentId = some c) :
    c.paymentId = paymentId := by
  obtain ⟨h_get, _⟩ := Option.filter_eq_some_iff.mp h
  exact (KeyedList.mem_of_get? h_get).2

theorem markReversed_wallets : (markReversed s c reason).wallets = s.wallets := by
  unfold markReversed
  split <;> rfl

theorem recorded_markReversed (c : Commission) (reason : Option String) {c' : Commission}
    (h : Recorded s c') :
    Recorded (markReversed s c reason) c' := by
  obtain ⟨row', h_row', h_same⟩ := h
  unfold markReversed
  cases h_get : s.commissions.get? c.paymentId with
  | none => exact ⟨row', h_row', h_same⟩
  | some row =>
    have h_key : row.paymentId = c.paymentId := (KeyedList.mem_of_get? h_get).2
    simp only [Recorded, KeyedList.get?_put]
    by_cases h_eq : c'.paymentId = row.paymentId
    · rw [if_pos h_eq]
      rw [h_eq, h_key, h_get] at h_row'
      cases h_row'
      exact ⟨_, rfl, h_same⟩
    · rw [if_neg h_eq]
      exact ⟨row', h_row', h_same⟩

theorem owed_markReversed (reason : Option String) (h : Recorded s c) :
    owed (markReversed s c reason) user
      = owed s user - if user = c.referrerId then standing s c else 0 := by
  obtain ⟨row, h_row, h_referrer, h_amount⟩ := h
  have h_key : row.paymentId = c.paymentId := (KeyedList.mem_of_get? h_row).2
  have h_reversed (row' : Commission) (h_status : row'.status = .reversed) :
      creditOf user row' = 0 := by
    rw [creditOf, if_neg]
    exact fun h_both => h_both.2 h_status
  simp only [markReversed, standing, h_row]
  rw [owed_putCommission, h_reversed _ rfl]
  show owed s user - ((s.commissions.get? row.paymentId).map (creditOf user)).getD 0 + 0 = _
  rw [h_key, h_row]
  show owed s user - creditOf user row + 0 = _
  rw [creditOf, h_referrer, h_amount]
  by_cases h_user : user = c.referrerId
  · subst h_user
    by_cases h_status : row.status = .reversed <;> simp [h_status]
  · have h_user' : ¬ c.referrerId = user := fun h_eq => h_user h_eq.symm
    simp [h_user, h_user']

theorem reverseSelected_eq_ok (h : reverseSelected s c reason = .ok s') :
    s' = markReversed s c reason ∧ taken s c = 0 ∨
      ∃ w, s.wallets.get? c.referrerId = some w ∧ c.status ≠ .paid ∧
        putWallet (markReversed s c reason) (reversedWallet w c.commissionAmount) = .ok s' := by
  unfold reverseSelected at h
  simp only [markReversed_wallets] at h
  unfold taken
  split at h
  · rename_i h_paid
    rw [if_pos h_paid]
    exact .inl ⟨(Except.ok.inj h).symm, rfl⟩
  · rename_i h_paid
    rw [if_neg h_paid]
    cases h_get : s.wallets.get? c.referrerId with
    | none =>
      rw [h_get] at h
      exact .inl ⟨(Except.ok.inj h).symm, rfl⟩
    | some w =>
      rw [h_get] at h
      exact .inr ⟨w, rfl, h_paid, h⟩

theorem reversedWallet_balance (w : Wallet) (amount : ℤ) :
    (reversedWallet w amount).pendingBalance + (reversedWallet w amount).approvedBalance
      = w.pendingBalance + w.approvedBalance
        - (min w.pendingBalance amount + min w.approvedBalance amount) := by
  show max 0 (w.pendingBalance - amount) + max 0 (w.approvedBalance - amount) = _
  omega

theorem balance_reverseSelected (h : reverseSelected s c reason = .ok s') :
    balance s' user = balance s user - if user = c.referrerId then taken s c else 0 := by
  have h_marked : balance (markReversed s c reason) user = balance s user := by
    rw [balance, markReversed_wallets, balance]
  rcases reverseSelected_eq_ok h with ⟨rfl, h_taken⟩ | ⟨w, h_w, h_paid, h_put⟩
  · rw [h_marked, h_taken, ite_self, sub_zero]
  · have h_userId : w.userId = c.referrerId := (KeyedList.mem_of_get? h_w).2
    have h_taken : taken s c
        = min w.pendingBalance c.commissionAmount + min w.approvedBalance c.commissionAmount := by
      rw [taken, if_neg h_paid, h_w]
    rw [(putWallet_eq_ok h_put).1, balance_putWallet, reversedWallet_balance, h_marked]
    show (if user = w.userId then _ else _) = _
    rw [h_userId]
    by_cases h_user : user = c.referrerId
    · subst h_user
      rw [if_pos rfl, if_pos rfl, balance_of_get? h_w, h_taken]
    · rw [if_neg h_user, if_neg h_user, sub_zero]

theorem owed_reverseSelected (h_recorded : Recorded s c) (h : reverseSelected s c reason = .ok s') :
    owed s' user = owed s user - if user = c.referrerId then standing s c else 0 := by
  rw [← owed_markReversed reason h_recorded]
  rcases reverseSelected_eq_ok h with ⟨rfl, _⟩ | ⟨w, _, _, h_put⟩
  · rfl
  · rw [(putWallet_eq_ok h_put).1]
    rfl

theorem commissions_reverseSelected (h : reverseSelected s c reason = .ok s') :
    s'.commissions = (markReversed s c reason).commissions := by
  rcases reverseSelected_eq_ok h with ⟨rfl, _⟩ | ⟨w, _, _, h_put⟩
  · rfl
  · rw [(putWallet_eq_ok h_put).1]

theorem reverseSelected_conserves_iff (h_balance : ∀ user, balance s user = owed s user)
    (h_recorded : Recorded s c) (h : reverseSelected s c reason = .ok s') :
    (∀ user, balance s' user = owed s' user) ↔ taken s c = standing s c := by
  constructor
  · intro h_after
    have h_user := h_after c.referrerId
    rw [balance_reverseSelected h, owed_reverseSelected h_recorded h, if_pos rfl, if_pos rfl,
      h_balance] at h_user
    omega
  · intro h_taken user
    rw [balance_reverseSelected h, owed_reverseSelected h_recorded h, h_taken, h_balance]

end Reversal

theorem Consistent.beginReversal {reason : Option String} {c : Commission} (h : Consistent t)
    (h_select : selectCommission t.store paymentId = some c) :
    Consistent { t with reversals := t.reversals ++ [⟨c, reason⟩] } := by
  refine ⟨h.balance_eq, h.nonneg, fun r h_r => ?_⟩
  rcases List.mem_append.mp h_r with h_old | h_new
  · exact h.recorded r h_old
  · rw [List.mem_singleton.mp h_new]
    have h_key := paymentId_of_selectCommission h_select
    rw [← h_key] at h_select
    exact selectCommission_recorded h_select

theorem Consistent.abortReversal (h : Consistent t) (index : ℕ) :
    Consistent { t with reversals := t.reversals.eraseIdx index } :=
  ⟨h.balance_eq, h.nonneg, fun r h_r => h.recorded r (List.mem_of_mem_eraseIdx h_r)⟩

theorem Consistent.finishReversal {index : ℕ} {r : Reversal} {s' : ReferralStore} (h : Consistent t)
    (h_mem : t.reversals[index]? = some r)
    (h_taken : taken t.store r.commission = standing t.store r.commission)
    (h_run : reverseSelected t.store r.commission r.reason = .ok s') :
    Consistent ⟨s', t.reversals.eraseIdx index⟩ := by
  have h_recorded := h.recorded r (List.mem_of_getElem? h_mem)
  refine ⟨(reverseSelected_conserves_iff h.balance_eq h_recorded h_run).mpr h_taken, ?_,
    fun r' h_r' => ?_⟩
  · rcases reverseSelected_eq_ok h_run with ⟨rfl, _⟩ | ⟨w, _, _, h_put⟩
    · show ∀ w ∈ (markReversed _ _ _).wallets.items, _
      rw [markReversed_wallets]
      exact h.nonneg
    · apply nonneg_putWallet h_put
      rw [markReversed_wallets]
      exact h.nonneg
  · obtain ⟨row, h_row, h_same⟩ :=
      recorded_markReversed r.commission r.reason (h.recorded r' (List.mem_of_mem_eraseIdx h_r'))
    refine ⟨row, ?_, h_same⟩
    rw [← h_row]
    show s'.commissions.get? _ = _
    rw [commissions_reverseSelected h_run]

/-! ## create_referral_payout_request -/

def OddHalfCent (amount : ℚ) : Prop := ∃ n : ℤ, amount * 100 = n + 1 / 2

/-- The payout records what its wallet lost. -/
def Debits (s : ReferralStore) (r : Payout × ReferralStore) : Prop :=
  ∃ w w', s.wallets.get? r.1.userId = some w ∧ r.2.wallets.get? r.1.userId = some w' ∧
    w.approvedBalance - w'.approvedBalance = r.1.amount

theorem insertPayout_eq_ok {s s' : ReferralStore} {payout : Payout}
    (h : insertPayout s payout = .ok s') :
    s.payouts.get? payout.id = none ∧ s' = { s with payouts := s.payouts.put payout } := by
  unfold insertPayout at h
  obtain ⟨_, _, h⟩ := bind_eq_ok.mp h
  obtain ⟨_, h_fresh, h⟩ := bind_eq_ok.mp h
  refine ⟨KeyedList.get?_eq_none_iff.mpr ?_, (pure_eq_ok.mp h).symm⟩
  simpa using refuseIf_eq_ok.mp h_fresh

variable {args : PayoutArgs} {r : Payout × ReferralStore}

theorem createReferralPayoutRequest_eq_ok {s : ReferralStore}
    (h : createReferralPayoutRequest s args = .ok r) :
    ∃ amount w, args.amountUsd = some amount ∧ 0 < amount ∧ s.wallets.get? r.1.userId = some w ∧
      amount * 100 ≤ w.approvedBalance ∧ r.1.amount = cents amount ∧ r.1.status = .pending ∧
      s.payouts.get? r.1.id = none ∧ 0 ≤ w.pendingBalance ∧
      r.2 = { s with
        wallets := s.wallets.put (debited w amount)
        payouts := s.payouts.put r.1 } := by
  unfold createReferralPayoutRequest at h
  obtain ⟨userId, _, h⟩ := bind_eq_ok.mp h
  obtain ⟨amount, h_amount, h⟩ := bind_eq_ok.mp h
  obtain ⟨_, h_pos, h⟩ := bind_eq_ok.mp h
  obtain ⟨_, _, h⟩ := bind_eq_ok.mp h
  obtain ⟨_, _, h⟩ := bind_eq_ok.mp h
  obtain ⟨w, h_w, h⟩ := bind_eq_ok.mp h
  obtain ⟨_, h_enough, h⟩ := bind_eq_ok.mp h
  obtain ⟨s', h_wallet, h⟩ := bind_eq_ok.mp h
  obtain ⟨_, _, h⟩ := bind_eq_ok.mp h
  obtain ⟨s'', h_payout, h_r⟩ := bind_eq_ok.mp h
  obtain ⟨rfl, h_pending, _⟩ := putWallet_eq_ok h_wallet
  obtain ⟨h_fresh, h_store⟩ := insertPayout_eq_ok h_payout
  obtain rfl := pure_eq_ok.mp h_r
  exact ⟨amount, w, ofOption_eq_ok.mp h_amount, not_le.mp (refuseIf_eq_ok.mp h_pos),
    ofOption_eq_ok.mp h_w, not_lt.mp (refuseIf_eq_ok.mp h_enough), rfl, rfl, h_fresh, h_pending,
    h_store⟩

theorem createPayout_debits_iff {s : ReferralStore}
    (h : createReferralPayoutRequest s args = .ok r) :
    Debits s r ↔ ∀ amount ∈ args.amountUsd, ¬ OddHalfCent amount := by
  obtain ⟨amount, w, h_amount, h_pos, h_w, h_le, h_recorded, _, _, _, h_store⟩ :=
    createReferralPayoutRequest_eq_ok h
  have h_userId : w.userId = r.1.userId := (KeyedList.mem_of_get? h_w).2
  have h_w' : r.2.wallets.get? r.1.userId = some (debited w amount) := by
    rw [h_store]
    show (s.wallets.put (debited w amount)).get? _ = _
    rw [KeyedList.get?_put]
    exact if_pos h_userId.symm
  have h_exact := sub_toInt_halfUp_sub_eq_iff (mul_pos h_pos (by norm_num)) h_le
  have h_debits : Debits s r ↔ w.approvedBalance - (debited w amount).approvedBalance
      = r.1.amount := by
    constructor
    · rintro ⟨w₁, w₂, h_w₁, h_w₂, h_eq⟩
      rw [h_w] at h_w₁
      rw [h_w'] at h_w₂
      cases h_w₁
      cases h_w₂
      exact h_eq
    · intro h_eq
      exact ⟨w, _, h_w, h_w', h_eq⟩
  rw [h_debits, h_recorded, h_amount]
  refine h_exact.trans ⟨fun h_odd amount' h_mem => ?_, fun h_all n h_eq => ?_⟩
  · cases h_mem
    rintro ⟨n, h_eq⟩
    exact h_odd n h_eq
  · exact h_all amount rfl ⟨n, h_eq⟩

theorem Consistent.createPayout (h : Consistent t)
    (h_run : createReferralPayoutRequest t.store args = .ok r)
    (h_amount : ∀ amount ∈ args.amountUsd, ¬ OddHalfCent amount) :
    Consistent { t with store := r.2 } := by
  obtain ⟨w₁, w₂, h_w₁, h_w₂, h_debit⟩ := (createPayout_debits_iff h_run).mpr h_amount
  obtain ⟨amount, w, _, _, h_w, h_le, _, h_status, h_fresh, h_pending, h_store⟩ :=
    createReferralPayoutRequest_eq_ok h_run
  rw [h_w] at h_w₁
  obtain rfl : w = w₁ := Option.some.inj h_w₁
  have h_userId : w.userId = r.1.userId := (KeyedList.mem_of_get? h_w).2
  have h_w₂ : debited w amount = w₂ := by
    rw [h_store] at h_w₂
    have h_put : (t.store.wallets.put (debited w amount)).get? r.1.userId = some w₂ := h_w₂
    rw [KeyedList.get?_put] at h_put
    exact Option.some.inj ((if_pos h_userId.symm).symm.trans h_put)
  refine ⟨fun user => ?_, fun w' h_w' => ?_, fun r' h_r' => ?_⟩
  · show balance r.2 user = owed r.2 user
    have h_owed : owed r.2 user = owed t.store user - debitOf user r.1 := by
      rw [h_store]
      show owed { t.store with payouts := t.store.payouts.put r.1 } user = _
      rw [owed_putPayout, h_fresh]
      show owed t.store user + 0 - debitOf user r.1 = _
      omega
    have h_balance : balance r.2 user = if user = w.userId
        then (debited w amount).pendingBalance + (debited w amount).approvedBalance
        else balance t.store user := by
      rw [h_store]
      exact balance_putWallet _
    rw [h_owed, h_balance, h_w₂, debitOf]
    by_cases h_user : user = r.1.userId
    · subst h_user
      have h_before := h.balance_eq r.1.userId
      rw [balance_of_get? h_w] at h_before
      have h_same : w₂.pendingBalance = w.pendingBalance := by rw [← h_w₂]; rfl
      rw [if_pos h_userId.symm, if_pos ⟨rfl, by rw [h_status]; nofun⟩]
      omega
    · rw [if_neg (by rwa [h_userId]), if_neg fun h_both => h_user h_both.1.symm, sub_zero]
      exact h.balance_eq user
  · have h_w' : w' ∈ r.2.wallets.items := h_w'
    rw [h_store] at h_w'
    rcases KeyedList.mem_put h_w' with rfl | ⟨h_old, _⟩
    · have h_left : (0 : ℚ) ≤ w.approvedBalance - amount * 100 := by linarith
      exact ⟨h_pending, RoundingMode.halfUp.toInt_nonneg h_left⟩
    · exact h.nonneg w' h_old
  · obtain ⟨row, h_row, h_same⟩ := h.recorded r' h_r'
    refine ⟨row, ?_, h_same⟩
    show r.2.commissions.get? _ = _
    rw [h_store]
    exact h_row

/-! ## settle_referral_payout -/

theorem settleReferralPayout_eq_ok {s : ReferralStore} {args : SettleArgs}
    (h : settleReferralPayout s args = .ok r) :
    ∃ payout, s.payouts.get? r.1.id = some payout ∧ payout.status ≠ .rejected ∧
      r.1.userId = payout.userId ∧ r.1.amount = payout.amount ∧
      ((r.1.status ≠ .rejected ∧ r.2 = { s with payouts := s.payouts.put r.1 }) ∨
        (r.1.status = .rejected ∧ ∃ w, s.wallets.get? payout.userId = some w ∧
          putWallet { s with payouts := s.payouts.put r.1 }
            { w with approvedBalance := w.approvedBalance + payout.amount } = .ok r.2)) := by
  unfold settleReferralPayout at h
  obtain ⟨_, _, h⟩ := bind_eq_ok.mp h
  obtain ⟨payout, h_payout, h⟩ := bind_eq_ok.mp h
  obtain ⟨_, h_open, h⟩ := bind_eq_ok.mp h
  have h_get := ofOption_eq_ok.mp h_payout
  have h_id : payout.id = args.payoutId := (KeyedList.mem_of_get? h_get).2
  have h_open : payout.status ≠ .rejected := by
    intro h_rejected
    have h_status := refuseIf_eq_ok.mp h_open
    rw [h_rejected] at h_status
    exact h_status (by simp)
  rw [← h_id] at h_get
  split at h
  · obtain ⟨reference, _, h⟩ := bind_eq_ok.mp h
    obtain ⟨_, _, h⟩ := bind_eq_ok.mp h
    rw [← pure_eq_ok.mp h]
    exact ⟨payout, h_get, h_open, rfl, rfl, .inl ⟨by simp, rfl⟩⟩
  · obtain ⟨w, h_w, h⟩ := bind_eq_ok.mp h
    obtain ⟨s', h_wallet, h⟩ := bind_eq_ok.mp h
    rw [← pure_eq_ok.mp h]
    exact ⟨payout, h_get, h_open, rfl, rfl, .inr ⟨rfl, w, ofOption_eq_ok.mp h_w, h_wallet⟩⟩

theorem Consistent.settlePayout {args : SettleArgs} (h : Consistent t)
    (h_run : settleReferralPayout t.store args = .ok r) : Consistent { t with store := r.2 } := by
  obtain ⟨payout, h_get, h_open, h_userId, h_amount, h_writes⟩ := settleReferralPayout_eq_ok h_run
  have h_owed (user : String) : owed { t.store with payouts := t.store.payouts.put r.1 } user
      = owed t.store user + debitOf user payout - debitOf user r.1 := by
    rw [owed_putPayout, h_get]
    rfl
  rcases h_writes with ⟨h_status, h_store⟩ | ⟨h_status, w, h_w, h_wallet⟩
  · refine ⟨fun user => ?_, ?_, ?_⟩
    · show balance r.2 user = owed r.2 user
      have h_debit : debitOf user payout = debitOf user r.1 := by
        simp only [debitOf, h_userId, h_amount, h_open, h_status, ne_eq, not_false_eq_true,
          and_true]
      rw [h_store, h_owed, h_debit, add_sub_cancel_right]
      exact h.balance_eq user
    · show ∀ w ∈ r.2.wallets.items, _
      rw [h_store]
      exact h.nonneg
    · show ∀ r' ∈ t.reversals, Recorded r.2 r'.commission
      rw [h_store]
      exact h.recorded
  · have h_store := (putWallet_eq_ok h_wallet).1
    have h_key : w.userId = payout.userId := (KeyedList.mem_of_get? h_w).2
    refine ⟨fun user => ?_, nonneg_putWallet h_wallet h.nonneg, ?_⟩
    · show balance r.2 user = owed r.2 user
      have h_owed' : owed r.2 user = owed t.store user + debitOf user payout := by
        have h_debit : debitOf user r.1 = 0 := by
          rw [debitOf, if_neg]
          exact fun h_both => h_both.2 h_status
        rw [h_store]
        show owed { t.store with payouts := t.store.payouts.put r.1 } user = _
        rw [h_owed, h_debit, sub_zero]
      rw [h_owed', h_store, balance_putWallet]
      show (if user = w.userId then w.pendingBalance + (w.approvedBalance + payout.amount)
        else balance t.store user) = _
      rw [h_key, debitOf]
      have h_before := h.balance_eq user
      by_cases h_user : user = payout.userId
      · subst h_user
        rw [balance_of_get? h_w] at h_before
        rw [if_pos rfl, if_pos ⟨rfl, h_open⟩]
        omega
      · rw [if_neg h_user, if_neg fun h_both => h_user h_both.1.symm, add_zero]
        exact h_before
    · show ∀ r' ∈ t.reversals, Recorded r.2 r'.commission
      rw [h_store]
      exact h.recorded

/-! ## Runs -/

/-- The condition on one step: a reversal takes from the wallet what its commission still
    stands for, and a payout asks for no odd half of a cent. -/
def Meets (t : ReferralState) : ReferralCall → Prop
  | .finishReversal index =>
    ∀ r ∈ t.reversals[index]?, taken t.store r.commission = standing t.store r.commission
  | .createPayout args => ∀ amount ∈ args.amountUsd, ¬ OddHalfCent amount
  | _ => True

theorem Consistent.step {t' : ReferralState} {call : ReferralCall} (h : Consistent t)
    (h_meets : Meets t call) (h_step : referralStep t call = .ok t') : Consistent t' := by
  cases call with
  | processCommission args =>
    obtain ⟨r, h_run, rfl⟩ := map_eq_ok.mp h_step
    exact h.processCommission h_run
  | beginReversal paymentId reason =>
    cases h_select : selectCommission t.store paymentId with
    | none =>
      simp only [referralStep, h_select] at h_step
      cases h_step
      exact h
    | some c =>
      simp only [referralStep, h_select] at h_step
      cases h_step
      exact h.beginReversal h_select
  | finishReversal index =>
    cases h_mem : t.reversals[index]? with
    | none =>
      simp only [referralStep, h_mem] at h_step
      cases h_step
      exact h
    | some r =>
      simp only [referralStep, h_mem] at h_step
      obtain ⟨s', h_run, rfl⟩ := map_eq_ok.mp h_step
      exact h.finishReversal h_mem (h_meets r h_mem) h_run
  | abortReversal index =>
    cases h_step
    exact h.abortReversal index
  | createPayout args =>
    obtain ⟨r, h_run, rfl⟩ := map_eq_ok.mp h_step
    exact h.createPayout h_run h_meets
  | settlePayout args =>
    obtain ⟨r, h_run, rfl⟩ := map_eq_ok.mp h_step
    exact h.settlePayout h_run

/-- A payout that this call creates debits what it records. -/
def CallDebits (s : ReferralStore) : ReferralCall → Prop
  | .createPayout args => ∀ r, createReferralPayoutRequest s args = .ok r → Debits s r
  | _ => True

/-- In every run whose steps meet the condition, the wallets are conserved in every state, and
    every payout debits what it records. -/
theorem referral_wallets_conserved {t : ReferralState} (h : Consistent t)
    {calls : List ReferralCall} (h_meets : Run.Throughout referralStep Meets t calls) :
    (∀ pre, pre <+: calls → Conserved (Run.final referralStep t pre).store) ∧
      Run.Throughout referralStep (fun t call => CallDebits t.store call) t calls := by
  refine ⟨fun pre h_pre => ?_, fun pre call post h_calls => ?_⟩
  · obtain ⟨rest, rfl⟩ := h_pre
    have h_final : Consistent (Run.final referralStep t pre) :=
      Run.final_invariant_of_throughout
        (fun _ _ _ h h_meets h_step => h.step h_meets h_step) h h_meets.of_prefix
    exact h_final.conserved
  · have h_call := h_meets pre call post h_calls
    cases call with
    | createPayout args => exact fun r h_run => (createPayout_debits_iff h_run).mpr h_call
    | _ => trivial

/-! ### Runs that break the balance, and one that keeps it -/

instance (s : ReferralStore) : Decidable (Conserved s) :=
  inferInstanceAs (Decidable (∀ w ∈ s.wallets.items, _))

def sampleRelationship : Relationship := ⟨"rel", "referrer", "referred"⟩

/-- The referred user pays 50.00, for which the commission is 10.00. -/
def samplePayment (paymentId : String) : CommissionArgs where
  referredId := some "referred"
  paymentId := some paymentId
  subscriptionTier := some "pro"
  paymentAmountUsd := some 50
  newId := paymentId

/-- Nobody has earned anything. -/
def emptyState : ReferralState where
  store := ⟨[sampleRelationship], .empty, .empty, .empty⟩
  reversals := []

/-- An earlier commission of 20.00, whose amount is in the approved balance. -/
def approvedState : ReferralState where
  store := {
    relationships := [sampleRelationship]
    commissions := KeyedList.empty.put {
      id := "pay-0"
      referrerId := "referrer"
      referredId := "referred"
      relationshipId := "rel"
      paymentId := "pay-0"
      subscriptionTier := "pro"
      paymentAmount := 10000
      commissionAmount := 2000
      status := .approved
      reversalReason := none }
    wallets := KeyedList.empty.put ⟨"referrer", 0, 2000, 2000⟩
    payouts := .empty }
  reversals := []

theorem consistent_emptyState : Consistent emptyState where
  balance_eq _ := rfl
  nonneg _ h := absurd h List.not_mem_nil
  recorded _ h := absurd h List.not_mem_nil

theorem consistent_approvedState : Consistent approvedState where
  balance_eq user := by
    by_cases h_user : user = "referrer"
    · subst h_user
      decide
    · have h_user' : ¬ "referrer" = user := fun h_eq => h_user h_eq.symm
      simp [balance, owed, creditOf, approvedState, KeyedList.get?, KeyedList.put,
        KeyedList.putItem, KeyedList.empty, h_user']
  nonneg := by decide
  recorded _ h := absurd h List.not_mem_nil

/-- A reversal takes its commission from both balances, and two reversals of one payment that
    have both read the commission take it twice. -/
theorem reversal_takes_more_than_its_commission :
    (Consistent approvedState ∧ ¬ Conserved (Run.final referralStep approvedState
      [.processCommission (samplePayment "pay-1"), .beginReversal "pay-1" none,
        .finishReversal 0]).store) ∧
    (Consistent emptyState ∧ ¬ Conserved (Run.final referralStep emptyState
      [.processCommission (samplePayment "pay-1"), .processCommission (samplePayment "pay-2"),
        .beginReversal "pay-1" none, .beginReversal "pay-1" none,
        .finishReversal 0, .finishReversal 0]).store) :=
  ⟨⟨consistent_approvedState, by decide +kernel⟩, consistent_emptyState, by decide +kernel⟩

theorem referral_wallets_conserved_sample :
    Conserved (Run.final referralStep emptyState
      [.processCommission (samplePayment "pay-1"), .beginReversal "pay-1" none,
        .finishReversal 0]).store := by
  refine (referral_wallets_conserved consistent_emptyState ?_).1 _ (List.prefix_refl _)
  refine Run.throughout_cons.mpr ⟨trivial, Run.throughout_cons.mpr ⟨trivial,
    Run.throughout_cons.mpr ⟨?_, Run.throughout_nil⟩⟩⟩
  intro r h_r
  revert r
  decide +kernel

end VyomQuant.Referral
