/-
  VyomQuant.Referral.Wallet

  The referral wallets and the four functions that move them:
  `process_referral_commission` (024_remediate_referral_double_commission.sql),
  `reverse_referral_commission` (referral_system_redesign.sql), and
  `create_referral_payout_request` and `settle_referral_payout` (049_ref01_payout_atomic.sql).

  Row locks make the first and the last two atomic.  A reversal reads its commission
  without a lock, so it is two steps, with anything in between.

  What a reversal takes from a wallet is what both balances lose to the commission, each
  clamped at zero.  That is the commission only where the two losses add up to it, and where
  no other reversal took it first (`reverseSelected_conserves_iff`).  A payout debits what it
  records only when it asks for no odd half of a cent (`createPayout_debits_iff`).
-/

import VyomQuant.Lib.KeyedList
import VyomQuant.Lib.Rounding
import VyomQuant.Lib.Run

namespace VyomQuant.Referral

open Except Decimal

/-! ## Rows -/

/-- One row of `referral_relationships`. -/
structure Relationship where
  id : String
  referrerId : String
  referredId : String

/-- The CHECK on `referral_commissions.status`. -/
inductive CommissionStatus where
  | pending
  | approved
  | paid
  | reversed
deriving DecidableEq

/-- One row of `referral_commissions`.  A `DECIMAL(10, 2)` column is a number of cents. -/
structure Commission where
  id : String
  referrerId : String
  referredId : String
  relationshipId : String
  paymentId : String
  subscriptionTier : String
  paymentAmount : ℤ
  commissionAmount : ℤ
  status : CommissionStatus
  reversalReason : Option String

/-- One row of `referral_wallets`. -/
structure Wallet where
  userId : String
  pendingBalance : ℤ
  approvedBalance : ℤ
  lifetimeEarnings : ℤ

/-- The CHECK on `referral_payouts.status`. -/
inductive PayoutStatus where
  | pending
  | processing
  | completed
  | rejected
deriving DecidableEq

/-- One row of `referral_payouts`; `settlement` is the member that settling adds to
    `payout_details`. -/
structure Payout where
  id : String
  userId : String
  amount : ℤ
  status : PayoutStatus
  payoutMethod : String
  settlement : Option (String × String)

/-- The tables; the key of the commissions is `uq_referral_commission_payment`. -/
structure ReferralStore where
  relationships : List Relationship
  commissions : KeyedList Commission.paymentId
  wallets : KeyedList Wallet.userId
  payouts : KeyedList Payout.id

inductive ReferralError where
  /-- `RF001`: insufficient approved balance. -/
  | rf001
  /-- `RF002`: no such wallet or payout. -/
  | rf002
  /-- `RF003`: an argument is missing or out of range. -/
  | rf003
  /-- `RF004`: the payout is already terminal. -/
  | rf004
  /-- `22001`. -/
  | stringDataRightTruncation
  /-- `22003`. -/
  | numericValueOutOfRange
  /-- `23502`. -/
  | notNullViolation
  /-- `23505`. -/
  | uniqueViolation
  /-- `23514`. -/
  | checkViolation

/-! ## Column types -/

/-- The cents of an amount, half a cent away from zero. -/
def cents (amount : ℚ) : ℤ := RoundingMode.halfUp.toInt (amount * 100)

/-- Whether a number of cents fits `DECIMAL(10, 2)`. -/
def fitsDecimal (c : ℤ) : Prop := c.natAbs < 10 ^ 10

instance (c : ℤ) : Decidable (fitsDecimal c) := inferInstanceAs (Decidable (_ < _))

/-- `VARCHAR(n)`: only blanks are cut off. -/
def varchar (n : ℕ) (text : String) : Except ReferralError String :=
  if text.length ≤ n then .ok text
  else if (text.toList.drop n).all fun c => c == ' ' then
    .ok (String.ofList (text.toList.take n))
  else .error .stringDataRightTruncation

/-- `btrim(text) = ''`. -/
def isBlank (text : String) : Bool := text.toList.all fun c => c == ' '

/-- Write a wallet, under `chk_non_negative_balances`. -/
def putWallet (s : ReferralStore) (w : Wallet) : Except ReferralError ReferralStore := do
  refuseIf (¬ (fitsDecimal w.pendingBalance ∧ fitsDecimal w.approvedBalance
    ∧ fitsDecimal w.lifetimeEarnings)) .numericValueOutOfRange
  refuseIf (w.pendingBalance < 0 ∨ w.approvedBalance < 0 ∨ w.lifetimeEarnings < 0) .checkViolation
  return { s with wallets := s.wallets.put w }

/-! ## process_referral_commission -/

structure CommissionArgs where
  referredId : Option String
  paymentId : Option String
  subscriptionTier : Option String
  paymentAmountUsd : Option ℚ
  /-- `gen_random_uuid()`. -/
  newId : String

/-- `v_rate`. -/
def commissionRate : ℚ := 20 / 100

/-- The row that the INSERT forms. -/
def newCommission (rel : Relationship) (paymentId : String) (amount : ℚ) (args : CommissionArgs) :
    Except ReferralError Commission := do
  let paymentId ← varchar 100 paymentId
  let tier ← ofOption .notNullViolation args.subscriptionTier
  let tier ← varchar 50 tier
  let commission : Commission := {
    id := args.newId
    referrerId := rel.referrerId
    referredId := rel.referredId
    relationshipId := rel.id
    paymentId
    subscriptionTier := tier
    paymentAmount := cents amount
    commissionAmount := cents (amount * commissionRate)
    status := .pending
    reversalReason := none }
  refuseIf (¬ (fitsDecimal commission.paymentAmount ∧ fitsDecimal commission.commissionAmount))
    .numericValueOutOfRange
  return commission

/-- The wallet after a commission: `ON CONFLICT (user_id) DO UPDATE`. -/
def creditedWallet (s : ReferralStore) (c : Commission) : Wallet :=
  match s.wallets.get? c.referrerId with
  | none => ⟨c.referrerId, c.commissionAmount, 0, c.commissionAmount⟩
  | some w => { w with
      pendingBalance := w.pendingBalance + c.commissionAmount
      lifetimeEarnings := w.lifetimeEarnings + c.commissionAmount }

/-- Insert the commission and move the wallet, unless the payment already has a commission. -/
def creditCommission (s : ReferralStore) (c : Commission) :
    Except ReferralError (Option String × ReferralStore) := do
  if (s.commissions.get? c.paymentId).isSome then return (none, s)
  else do
    refuseIf (∃ stored ∈ s.commissions.items, stored.id = c.id) .uniqueViolation
    let s' ← putWallet { s with commissions := s.commissions.put c } (creditedWallet s c)
    return (some c.id, s')

/-- `process_referral_commission`: the id of the commission, if one was created. -/
def processReferralCommission (s : ReferralStore) (args : CommissionArgs) :
    Except ReferralError (Option String × ReferralStore) :=
  match args.paymentId, args.paymentAmountUsd with
  | some paymentId, some amount =>
    if isBlank paymentId ∨ amount ≤ 0 then .ok (none, s)
    else
      match s.relationships.find? fun rel => some rel.referredId = args.referredId with
      | none => .ok (none, s)
      | some rel =>
        if rel.referrerId = rel.referredId then .ok (none, s)
        else do
          let commission ← newCommission rel paymentId amount args
          creditCommission s commission
  | _, _ => .ok (none, s)

/-! ## reverse_referral_commission -/

/-- `SELECT * INTO v_commission`. -/
def selectCommission (s : ReferralStore) (paymentId : String) : Option Commission :=
  (s.commissions.get? paymentId).filter fun c => c.status ≠ .reversed

def reversedWallet (w : Wallet) (amount : ℤ) : Wallet where
  userId := w.userId
  pendingBalance := max 0 (w.pendingBalance - amount)
  approvedBalance := max 0 (w.approvedBalance - amount)
  lifetimeEarnings := max 0 (w.lifetimeEarnings - amount)

/-- The UPDATE of the commission, `WHERE id = v_commission.id`. -/
def markReversed (s : ReferralStore) (c : Commission) (reason : Option String) : ReferralStore :=
  match s.commissions.get? c.paymentId with
  | none => s
  | some row => { s with
      commissions := s.commissions.put
        { row with status := .reversed, reversalReason := reason } }

/-- What follows the SELECT, for the commission `c` that it read. -/
def reverseSelected (s : ReferralStore) (c : Commission) (reason : Option String) :
    Except ReferralError ReferralStore :=
  let s := markReversed s c reason
  if c.status = .paid then .ok s
  else
    match s.wallets.get? c.referrerId with
    | none => .ok s
    | some w => putWallet s (reversedWallet w c.commissionAmount)

/-! ## create_referral_payout_request -/

structure PayoutArgs where
  userId : Option String
  amountUsd : Option ℚ
  payoutMethod : Option String
  /-- `gen_random_uuid()`. -/
  newId : String

/-- `approved_balance_usd - p_amount_usd`, as the column stores it. -/
def debited (w : Wallet) (amount : ℚ) : Wallet :=
  { w with approvedBalance := RoundingMode.halfUp.toInt (w.approvedBalance - amount * 100) }

def insertPayout (s : ReferralStore) (payout : Payout) : Except ReferralError ReferralStore := do
  refuseIf (¬ fitsDecimal payout.amount) .numericValueOutOfRange
  refuseIf (∃ stored ∈ s.payouts.items, stored.id = payout.id) .uniqueViolation
  return { s with payouts := s.payouts.put payout }

def createReferralPayoutRequest (s : ReferralStore) (args : PayoutArgs) :
    Except ReferralError (Payout × ReferralStore) := do
  let userId ← ofOption .rf003 args.userId
  let amount ← ofOption .rf003 args.amountUsd
  refuseIf (amount ≤ 0) .rf003
  let payoutMethod ← ofOption .rf003 args.payoutMethod
  refuseIf (isBlank payoutMethod = true) .rf003
  let w ← ofOption .rf002 (s.wallets.get? userId)
  refuseIf ((w.approvedBalance : ℚ) < amount * 100) .rf001
  let s' ← putWallet s (debited w amount)
  let payoutMethod ← varchar 50 payoutMethod
  let payout : Payout := {
    id := args.newId
    userId
    amount := cents amount
    status := .pending
    payoutMethod
    settlement := none }
  let s'' ← insertPayout s' payout
  return (payout, s'')

/-! ## settle_referral_payout -/

structure SettleArgs where
  payoutId : String
  status : Option String
  reference : Option String
  reason : Option String

/-- `settle_referral_payout`.  A null status passes the first check, `NULL NOT IN (..)` being
    null, and takes the rejecting branch. -/
def settleReferralPayout (s : ReferralStore) (args : SettleArgs) :
    Except ReferralError (Payout × ReferralStore) := do
  refuseIf (∃ status ∈ args.status, status ≠ "completed" ∧ status ≠ "rejected") .rf003
  let payout ← ofOption .rf002 (s.payouts.get? args.payoutId)
  refuseIf (payout.status ≠ .pending ∧ payout.status ≠ .processing) .rf004
  if args.status = some "completed" then do
    let reference ← ofOption .rf003 args.reference
    refuseIf (isBlank reference = true) .rf003
    let payout := { payout with
      status := .completed, settlement := some ("settlement_reference", reference) }
    return (payout, { s with payouts := s.payouts.put payout })
  else do
    let payout := { payout with
      status := .rejected
      settlement := some ("rejection_reason", args.reason.getD "Not specified") }
    let w ← ofOption .rf002 (s.wallets.get? payout.userId)
    let s' ← putWallet { s with payouts := s.payouts.put payout }
      { w with approvedBalance := w.approvedBalance + payout.amount }
    return (payout, s')

/-! ## Runs -/

/-- A reversal that has read its commission. -/
structure Reversal where
  commission : Commission
  reason : Option String

structure ReferralState where
  store : ReferralStore
  reversals : List Reversal

inductive ReferralCall where
  | processCommission (args : CommissionArgs)
  | beginReversal (paymentId : String) (reason : Option String)
  | finishReversal (index : ℕ)
  /-- The transaction of a reversal is rolled back. -/
  | abortReversal (index : ℕ)
  | createPayout (args : PayoutArgs)
  | settlePayout (args : SettleArgs)

def referralStep (t : ReferralState) : ReferralCall → Except ReferralError ReferralState
  | .processCommission args =>
    (fun r => { t with store := r.2 }) <$> processReferralCommission t.store args
  | .beginReversal paymentId reason =>
    match selectCommission t.store paymentId with
    | none => .ok t
    | some c => .ok { t with reversals := t.reversals ++ [⟨c, reason⟩] }
  | .finishReversal index =>
    match t.reversals[index]? with
    | none => .ok t
    | some r =>
      (fun s => ⟨s, t.reversals.eraseIdx index⟩) <$> reverseSelected t.store r.commission r.reason
  | .abortReversal index => .ok { t with reversals := t.reversals.eraseIdx index }
  | .createPayout args =>
    (fun r => { t with store := r.2 }) <$> createReferralPayoutRequest t.store args
  | .settlePayout args =>
    (fun r => { t with store := r.2 }) <$> settleReferralPayout t.store args

end VyomQuant.Referral
