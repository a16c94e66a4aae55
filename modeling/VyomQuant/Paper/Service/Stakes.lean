/-
  VyomQuant.Paper.Service.Stakes

  The cash of a resting buy, and what a call that moves it has at stake.

  Locking or releasing the cash is one statement and moving the order another.  `Stake` is
  what a call holds between the two; `Call.step_turn` says how one statement moves the
  stake, the order and the locked balance together.
-/

import VyomQuant.Paper.Accounting.Ledger
import VyomQuant.Paper.Service.Effects

namespace VyomQuant.Paper.Service

open Decimal Except
open Accounting (AccountingConfig AccountingError Account Book Position OrderSide Instant FillResult
  ClosedTrade)

variable {config : AccountingConfig} {s s' : Store}

/-! ## The cash of an order -/

/-- What is reserved for an order: nothing, unless it is a limit buy. -/
def reservedFor (config : AccountingConfig) (order : OrderRow) : ℚ :=
  match reservedOf config order with
  | some (.ok reserved) => reserved
  | _ => 0

theorem reservedOf_congr {order other : OrderRow} (h : termsOf order = termsOf other) :
    reservedOf config order = reservedOf config other := by
  have h_side : order.side = other.side := congrArg OrderTerms.side h
  have h_type : order.orderType = other.orderType := congrArg OrderTerms.orderType h
  have h_limit : order.limitPrice = other.limitPrice := congrArg OrderTerms.limitPrice h
  have h_quantity : order.quantity = other.quantity := congrArg OrderTerms.quantity h
  unfold reservedOf
  rw [h_side, h_type, h_limit, h_quantity]

theorem reservedFor_congr {order other : OrderRow} (h : termsOf order = termsOf other) :
    reservedFor config order = reservedFor config other := by
  unfold reservedFor
  rw [reservedOf_congr h]

theorem reservedFor_of_ok {order : OrderRow} {reserved : ℚ}
    (h : reservedOf config order = some (.ok reserved)) : reservedFor config order = reserved := by
  unfold reservedFor
  rw [h]

theorem reservedFor_money (config : AccountingConfig) (order : OrderRow) :
    reservedFor config order = 0 ∨ ∃ amount, config.money amount = .ok (reservedFor config order) := by
  unfold reservedFor
  split
  · rename_i reserved h_reserved
    unfold reservedOf at h_reserved
    split at h_reserved
    · exact .inr ⟨_, Option.some.inj h_reserved⟩
    · cases h_reserved
  · exact .inl rfl

theorem reservedFor_quantized (config : AccountingConfig) (order : OrderRow) :
    config.money (reservedFor config order) = .ok (reservedFor config order) := by
  rcases reservedFor_money config order with h_zero | ⟨amount, h_amount⟩
  · rw [h_zero]
    simp [AccountingConfig.money, AccountingConfig.quantizeAt, Except.ofOption]
  · exact AccountingConfig.quantizeAt_idem h_amount

theorem reservedFor_onGrid (config : AccountingConfig) (order : OrderRow) :
    OnGrid config.minorUnitExponent (reservedFor config order) :=
  AccountingConfig.quantizeAt_onGrid (reservedFor_quantized config order)

theorem reservedFor_nonneg {order : OrderRow} (h_quantity : 0 < order.quantity)
    (h_limit : ∀ limit ∈ order.limitPrice, 0 < limit) : 0 ≤ reservedFor config order := by
  unfold reservedFor
  split
  · rename_i reserved h_reserved
    unfold reservedOf at h_reserved
    split at h_reserved
    · rename_i limit _ _ h_some
      have h_money : reservation config order.quantity limit = .ok reserved :=
        Option.some.inj h_reserved
      have h_product : 0 ≤ ambientContext.mul order.quantity limit :=
        Context.round_nonneg _ (mul_pos h_quantity (h_limit limit h_some)).le
      have h_factor : 0 ≤ ambientContext.add 1 config.feeRate :=
        Context.round_nonneg _ (by linarith [config.feeRate_nonneg])
      exact AccountingConfig.quantizeAt_nonneg h_money
        (Context.round_nonneg _ (mul_nonneg h_product h_factor))
    · cases h_reserved
  · exact le_rfl

/-! ## The locked balance -/

/-- The balances of an account row, as the columns hold them. -/
structure Balanced (row : AccountRow) : Prop where
  available : IsNumeric row.availableBalance
  available_nonneg : 0 ≤ row.availableBalance
  locked : IsNumeric row.lockedBalance
  locked_nonneg : 0 ≤ row.lockedBalance

variable {payload : AccountUpdate}

theorem AccountWrittenAt.balanced {version : ℕ} {row : AccountRow}
    (h : AccountWrittenAt version payload s row s') : Balanced row where
  available := numeric_isNumeric h.available
  available_nonneg := h.available_nonneg
  locked := numeric_isNumeric h.locked
  locked_nonneg := h.locked_nonneg

theorem moved_exactly {source target amount : ℚ} (h_source : IsNumeric source)
    (h_target : IsNumeric target) (h_amount : OnGrid numericScale amount) (h_nonneg : 0 ≤ amount)
    (h_le : amount ≤ source) (h_target_nonneg : 0 ≤ target) :
    Accounting.accountingContext.sub source amount = source - amount ∧
      Accounting.accountingContext.add target amount = target + amount := by
  refine Accounting.Ledger.moved_exact h_source.1 h_target.1 h_amount h_nonneg h_le h_target_nonneg ?_
  have h_source_lt : |source| < 10 ^ 18 := h_source.2
  have h_target_lt : |target| < 10 ^ 18 := h_target.2
  calc |source| + |target| < 10 ^ 18 + 10 ^ 18 := add_lt_add h_source_lt h_target_lt
    _ ≤ 10 ^ ((Accounting.accountingContext.prec : ℤ) - numericScale) := by
      norm_num [Accounting.accountingContext, Accounting.decimalPrecision, numericScale]

section Amounts

variable {row : AccountRow} {order : OrderRow} (h_minor : config.minorUnitExponent ≤ numericScale)
  (h_row : Balanced row) (h_nonneg : 0 ≤ reservedFor config order)

include h_minor h_row h_nonneg

theorem lock_locked {locked : Account}
    (h : Accounting.lock (accountOf row) (reservedFor config order) config = .ok locked) :
    locked.lockedBalance = row.lockedBalance + reservedFor config order := by
  simp only [Accounting.lock, reservedFor_quantized, bind_eq_ok, refuseIf_eq_ok, pure_eq_ok, not_lt,
    ok.injEq] at h
  obtain ⟨_, rfl, _, -, _, h_le, rfl⟩ := h
  exact (moved_exactly h_row.available h_row.locked ((reservedFor_onGrid config order).mono h_minor)
    h_nonneg h_le h_row.locked_nonneg).2

omit h_nonneg in
theorem locked_sub {amount : ℚ} (h_grid : OnGrid config.minorUnitExponent amount)
    (h_amount : 0 ≤ amount) (h_le : amount ≤ row.lockedBalance) :
    Accounting.accountingContext.sub row.lockedBalance amount = row.lockedBalance - amount :=
  (moved_exactly h_row.locked .zero (h_grid.mono h_minor) h_amount h_le le_rfl).1

omit h_minor h_row in
theorem release_quantized
    (h_release : reservedFor config order ≤ row.lockedBalance ∨ row.lockedBalance = 0) :
    config.money (min (reservedFor config order) row.lockedBalance)
      = .ok (min (reservedFor config order) row.lockedBalance) := by
  rcases h_release with h_le | h_zero
  · rw [min_eq_left h_le]
    exact reservedFor_quantized config order
  · rw [h_zero, min_eq_right h_nonneg]
    simp [AccountingConfig.money, AccountingConfig.quantizeAt, Except.ofOption]

theorem unlock_locked {unlocked : Account}
    (h_release : reservedFor config order ≤ row.lockedBalance ∨ row.lockedBalance = 0)
    (h : unlockOf config order (accountOf row) = .ok unlocked) :
    unlocked.lockedBalance
      = row.lockedBalance - min (reservedFor config order) row.lockedBalance := by
  unfold unlockOf at h
  split at h
  · cases h
  · rename_i reserved h_reserved
    obtain ⟨amount, h_amount, h⟩ := bind_eq_ok.mp h
    obtain rfl := ofAccounting_eq_ok.mp h_amount
    rw [← reservedFor_of_ok h_reserved] at h
    replace h := ofAccounting_eq_ok.mp h
    simp only [Accounting.unlock, accountOf, release_quantized h_nonneg h_release, bind_eq_ok,
      refuseIf_eq_ok, pure_eq_ok, not_lt, ok.injEq] at h
    obtain ⟨_, rfl, -, -, -, -, rfl⟩ := h
    have h_money := release_quantized h_nonneg h_release
    exact locked_sub h_minor h_row (AccountingConfig.quantizeAt_onGrid h_money)
      (le_min h_nonneg h_row.locked_nonneg) (min_le_right _ _)

theorem plan_locked {job : FillJob} {rows : List PositionRow} {filledAt : Instant} {plan : FillPlan}
    (h_job : job.releaseFromLocked = reservedFor config order)
    (h_release : reservedFor config order ≤ row.lockedBalance ∨ row.lockedBalance = 0)
    (h : planOf config job row rows filledAt = .ok plan) :
    plan.result.account.lockedBalance
      = row.lockedBalance - min (reservedFor config order) row.lockedBalance := by
  simp only [planOf, h_job, reservedFor_quantized, bind_eq_ok, pure_eq_ok, ofAccounting_eq_ok,
    ok.injEq] at h
  obtain ⟨positions, -, figures, -, _, rfl, result, h_result, rfl⟩ := h
  simp only [planFill, bind_eq_ok, pure_eq_ok] at h_result
  obtain ⟨_, h_fill, _, -, rfl⟩ := h_result
  obtain ⟨trace⟩ := Accounting.applyFill_eq_ok h_fill
  have h_money := release_quantized h_nonneg h_release
  have h_figures := (Accounting.fillFigures_eq_ok.mp trace.figures_eq).2.2.2.1
  have h_amount : trace.figures.release = min (reservedFor config order) row.lockedBalance :=
    (ok.inj (h_money.symm.trans h_figures)).symm
  rw [trace.locked_eq, h_amount]
  exact locked_sub h_minor h_row (AccountingConfig.quantizeAt_onGrid h_money)
    (le_min h_nonneg h_row.locked_nonneg) (min_le_right _ _)

end Amounts

/-! ## Refusals -/

def refused {α : Type} : Except PaperError α → Bool
  | .ok _ => false
  | .error _ => true

def FillPhase.refused (config : AccountingConfig) (job : FillJob) (s : Store) : FillPhase → Bool
  | .insert plan =>
    Service.refused (do insertFillRow job.order.id (← plan.fillValues config) s)
  | .money plan _ => Service.refused (bumpVersionRow plan.account.version plan.payload s)
  | .event plan fill => Service.refused (insertBalanceEventRow (plan.event fill) s)
  | .closingWrite plan _ existing current =>
    Service.refused (writePositionRow current (plan.closingValues job.order.symbol existing) s)
  | .positionWrite plan _ current =>
    Service.refused (writePositionRow current (plan.positionValues job.order.symbol) s)
  | .trade plan _ closed => Service.refused (do insertTradeRow (← plan.tradeRow config closed) s)
  | .finish plan _ =>
    Service.refused
      (do fillOrderRow job.order.id job.order.orderState (← plan.orderValues config) s)
  | _ => false

/-- The statement that a call is about to issue is refused. -/
def Call.refused (config : AccountingConfig) (s : Store) : Call → Bool
  | .place request (.insert _ price) => Service.refused (insertOrderRow (request.newOrder price) s)
  | .place _ (.lockMoney _ _ before locked _) =>
    Service.refused (bumpVersionRow before.version (transferPayload before locked) s)
  | .place _ (.lockEvent _ _ before locked occurredAt) => Service.refused
      (insertBalanceEventRow (transferEvent .orderLock (accountOf before) locked occurredAt) s)
  | .place _ (.accept order _) => Service.refused (moveOrderRow order.id .accepted .created none s)
  | .place _ (.reject order) => Service.refused
      (moveOrderRow order.id .rejected order.orderState (some .insufficientFunds) s)
  | .place _ (.filling fill) => fill.phase.refused config fill.job s
  | .cancel _ (.money _ before unlocked _) =>
    Service.refused (bumpVersionRow before.version (transferPayload before unlocked) s)
  | .cancel _ (.event _ before unlocked occurredAt) => Service.refused
      (insertBalanceEventRow (transferEvent .orderUnlock (accountOf before) unlocked occurredAt) s)
  | .cancel _ (.move order) =>
    Service.refused (moveOrderRow order.id .cancelled order.orderState none s)
  | .sweep _ _ (.filling fill _ _) => fill.phase.refused config fill.job s
  | .reset _ _ (.cancel order _ _) =>
    Service.refused (moveOrderRow order.id .cancelled order.orderState none s)
  | .reset _ startedAt (.closeWrite row _ current _) =>
    Service.refused (writePositionRow current (closedValues row startedAt) s)
  | .reset capital _ (.money before _) =>
    Service.refused (bumpVersionRow before.version (resetPayload capital) s)
  | .reset capital startedAt (.event before _) =>
    Service.refused (insertBalanceEventRow (resetEvent capital before startedAt) s)
  | _ => false

/-! ## Stakes -/

/-- What a call has at stake: an order that it has placed, whose cash it may have locked; an
    order whose cash it has released and that it has not moved; the orders that it has
    cancelled, whose cash it has yet to return. -/
inductive Stake where
  | none
  | owned (order : OrderRow)
  | holding (order : OrderRow)
  | releasing (order : OrderRow)
  | cancelled (ids : List ℕ)

def FillPhase.stake (job : FillJob) : FillPhase → Stake
  | .event .. | .closingRead .. | .closingWrite .. | .positionRead .. | .positionWrite .. | .trade ..
  | .finish .. => .releasing job.order
  | _ => .none

def Call.stake : Call → Stake
  | .place _ (.lockRead order _ _) => .owned order
  | .place _ (.lockMoney order _ _ _ _) => .owned order
  | .place _ (.lockEvent order _ _ _ _) => .holding order
  | .place _ (.accept order _) => .holding order
  | .place _ (.filling fill) => fill.phase.stake fill.job
  | .cancel _ (.event order _ _ _) => .releasing order
  | .cancel _ (.move order) => .releasing order
  | .sweep _ _ (.filling fill _ _) => fill.phase.stake fill.job
  | .reset _ _ (.cancel _ _ cancelled) => .cancelled cancelled
  | .reset _ _ (.readPositions cancelled) => .cancelled cancelled
  | .reset _ _ (.closeRead _ _ cancelled) => .cancelled cancelled
  | .reset _ _ (.closeWrite _ _ _ cancelled) => .cancelled cancelled
  | .reset _ _ (.readAccount cancelled) => .cancelled cancelled
  | .reset _ _ (.money _ cancelled) => .cancelled cancelled
  | _ => .none

/-- The order whose cash a fill is about to release. -/
def FillPhase.releases (job : FillJob) : FillPhase → Option OrderRow
  | .money _ _ => some job.order
  | _ => none

/-- The order whose cash a call is about to release. -/
def Call.releases : Call → Option OrderRow
  | .place _ (.filling fill) => fill.phase.releases fill.job
  | .cancel _ (.money order _ _ _) => some order
  | .sweep _ _ (.filling fill _ _) => fill.phase.releases fill.job
  | _ => none

/-- The call is about to write the account to the capital. -/
def Call.returns : Call → Bool
  | .reset _ _ (.money _ _) => true
  | _ => false

/-! ## What a call knows -/

/-- The order is in the table, as far as its terms go. -/
def Known (s : Store) (order : OrderRow) : Prop := ∃ row ∈ s.orders, termsOf row = termsOf order

/-- The order was read on the book, and has been accepted. -/
def OpenRead (s : Store) (order : OrderRow) : Prop :=
  order.orderState = .accepted ∧
    ∃ row ∈ s.orders, termsOf row = termsOf order ∧ row.orderState ≠ .created

/-- The account was read, and is as it was read until its version moves. -/
def AccountRead (s : Store) (row : AccountRow) : Prop :=
  row.version ≤ s.account.version ∧ (row.version = s.account.version → row = s.account)

def FillPhase.Knows (config : AccountingConfig) (job : FillJob) (s : Store) : FillPhase → Prop
  | .readPositions account => AccountRead s account
  | .unmoved plan | .lookup plan | .ledger plan _ | .insert plan | .money plan _ =>
    AccountRead s plan.account ∧ ∃ rows filledAt, planOf config job plan.account rows filledAt = .ok plan
  | _ => True

/-- What a resting buy's fill knows. -/
structure Filling.Knows (config : AccountingConfig) (s : Store) (fill : Filling) : Prop where
  order : OpenRead s fill.job.order
  release : fill.job.releaseFromLocked = reservedFor config fill.job.order
  phase : fill.phase.Knows config fill.job s

/-- What a call knows.  A limit order is neither rejected nor filled when it is placed. -/
def Call.Knows (config : AccountingConfig) (s : Store) : Call → Prop
  | .place _ (.lockRead order _ cost) => Known s order ∧ cost = reservedFor config order
  | .place _ (.lockMoney order _ before locked _) => Known s order ∧ AccountRead s before ∧
      Accounting.lock (accountOf before) (reservedFor config order) config = .ok locked
  | .place _ (.lockEvent order _ _ _ _) => Known s order
  | .place _ (.accept order _) => Known s order
  | .place _ (.reject _) => False
  | .place _ (.filling _) => False
  | .cancel _ (.readAccount order) => OpenRead s order
  | .cancel _ (.money order before unlocked _) => OpenRead s order ∧ AccountRead s before ∧
      unlockOf config order (accountOf before) = .ok unlocked
  | .cancel _ (.event order _ _ _) => OpenRead s order
  | .cancel _ (.move order) => OpenRead s order
  | .sweep _ _ (.filling fill rest _) => fill.Knows config s ∧ ∀ order ∈ rest, OpenRead s order
  | .reset _ _ (.cancel order rest _) => OpenRead s order ∧ ∀ order ∈ rest, OpenRead s order
  | _ => True

/-! ## One statement of a fill -/

theorem issue_elim {β κ : Type} {P : κ → Store → Prop} {result : Except PaperError (β × Store)}
    {next : β → κ} {failed : PaperError → κ}
    (h_ok : ∀ answer s', result = .ok (answer, s') → P (next answer) s')
    (h_error : ∀ e, result = .error e → P (failed e) s) :
    P (issue s result next failed).1 (issue s result next failed).2 := by
  rcases issue_cases result next failed with ⟨answer, s', h_result, h_issue⟩ | ⟨e, h_result, h_issue⟩
  · rw [h_issue]
    exact h_ok answer s' h_result
  · rw [h_issue]
    exact h_error e h_result

theorem not_refused {α : Type} {result : Except PaperError α} {answer : α} (h : result = .ok answer) :
    refused result = false := by
  rw [h]
  rfl

theorem refused_of_error {α : Type} {result : Except PaperError α} {e : PaperError}
    (h : result = .error e) : refused result = true := by
  rw [h]
  rfl

/-- A release that found its cash, or nothing locked, took what is reserved. -/
def Releases (config : AccountingConfig) (s : Store) (order : OrderRow) (row : AccountRow) : Prop :=
  0 ≤ reservedFor config order →
    (reservedFor config order ≤ s.account.lockedBalance ∨ s.account.lockedBalance = 0) →
    row.lockedBalance
      = s.account.lockedBalance - min (reservedFor config order) s.account.lockedBalance

/-- What one statement of a fill did, and where it led. -/
inductive FillTurn (config : AccountingConfig) (s : Store) (job : FillJob) (phase : FillPhase) :
    FillStep → Store → Prop
  | kept {next : FillPhase} {s' : Store} (h_orders : s'.orders = s.orders)
      (h_account : s'.account = s.account) (h_stake : next.stake job = phase.stake job)
      (h_knows : next.Knows config job s) : FillTurn config s job phase (.next next) s'
  | released {next : FillPhase} {s' : Store} {version : ℕ} {payload : AccountUpdate}
      {row : AccountRow} (h_releases : phase.releases job = some job.order)
      (h_answered : phase.refused config job s = false) (h : AccountWrittenAt version payload s row s')
      (h_locked : Releases config s job.order row) (h_stake : next.stake job = .releasing job.order)
      (h_knows : next.Knows config job s) : FillTurn config s job phase (.next next) s'
  | failed {e : PaperError} {s' : Store} (h_orders : s'.orders = s.orders)
      (h_account : s'.account = s.account)
      (h_stake : phase.stake job = .none ∨ phase.refused config job s) :
      FillTurn config s job phase (.failed e) s'
  | settled {order : OrderRow} {fills : List FillRow} {s' : Store} (h_orders : s'.orders = s.orders)
      (h_account : s'.account = s.account) (h_stake : phase.stake job = .none) :
      FillTurn config s job phase (.settled order fills) s'
  | filled {order : OrderRow} {fill : FillRow} {s' : Store}
      (h_stake : phase.stake job = .releasing job.order)
      (h : OrderMoved job.order.id .filled job.order.orderState s order s') :
      FillTurn config s job phase (.filled order fill) s'

theorem AccountRead.refl (s : Store) : AccountRead s s.account := ⟨le_rfl, fun _ => rfl⟩

theorem AccountRead.eq {before row : AccountRow} (h : AccountRead s before)
    (h_written : AccountWrittenAt before.version payload s row s') : before = s.account :=
  h.2 h_written.version_eq.symm

theorem AccountWrittenAt.locked_eq {version : ℕ} {row : AccountRow} {locked : ℚ}
    (h : AccountWrittenAt version payload s row s')
    (h_payload : payload.lockedBalance = some locked) (h_grid : OnGrid numericScale locked) :
    row.lockedBalance = locked := by
  have h_stored := h.locked
  rw [h_payload] at h_stored
  exact numeric_eq_of_onGrid h_stored (by decide) h_grid

section Statements

variable (h_minor : config.minorUnitExponent ≤ numericScale) (h_balanced : Balanced s.account)

include h_minor h_balanced

theorem released_onGrid (order : OrderRow) :
    OnGrid numericScale
      (s.account.lockedBalance - min (reservedFor config order) s.account.lockedBalance) := by
  refine h_balanced.locked.1.sub ?_
  rcases min_choice (reservedFor config order) s.account.lockedBalance with h_min | h_min
  · rw [h_min]
    exact (reservedFor_onGrid config order).mono h_minor
  · rw [h_min]
    exact h_balanced.locked.1

theorem FillPhase.step_turn {job : FillJob} (attempt : ℕ) {phase : FillPhase}
    (h_job : job.releaseFromLocked = reservedFor config job.order)
    (h_knows : phase.Knows config job s) :
    FillTurn config s job phase (phase.step config job attempt s).1
      (phase.step config job attempt s).2 := by
  cases phase with
  | readAccount => exact .kept rfl rfl rfl (.refl s)
  | readPositions account =>
    unfold FillPhase.step
    dsimp only
    cases h_plan : planOf config job account (positionRows true s) s.clock with
    | ok plan =>
      have h_account : plan.account = account := by
        simp only [planOf, bind_eq_ok, pure_eq_ok] at h_plan
        obtain ⟨_, -, _, -, _, -, _, -, rfl⟩ := h_plan
        rfl
      refine .kept rfl rfl rfl ⟨?_, positionRows true s, s.clock, ?_⟩
      · rw [h_account]
        exact h_knows
      · rw [h_account]
        exact h_plan
    | error e => exact .failed rfl rfl (.inl rfl)
  | unmoved plan =>
    unfold FillPhase.step
    dsimp only
    split_ifs
    · exact .failed rfl rfl (.inl rfl)
    · exact .kept rfl rfl rfl h_knows
    · exact .kept rfl rfl rfl h_knows
  | lookup plan =>
    unfold FillPhase.step
    dsimp only
    split
    · exact .kept rfl rfl rfl h_knows
    · exact .kept rfl rfl rfl h_knows
  | ledger plan existing =>
    unfold FillPhase.step
    dsimp only
    split_ifs
    · exact .kept rfl rfl rfl trivial
    · exact .kept rfl rfl rfl h_knows
  | insert plan =>
    refine issue_elim (P := FillTurn config s job (.insert plan)) (fun fill s' h_ok => ?_)
      fun e h_error => .failed rfl rfl (.inl rfl)
    obtain ⟨values, -, h_insert⟩ := bind_eq_ok.mp h_ok
    rw [(insertFillRow_eq_ok h_insert).store]
    exact .kept rfl rfl rfl h_knows
  | money plan fill =>
    refine issue_elim (P := FillTurn config s job (.money plan fill)) (fun row s' h_ok => ?_)
      fun e h_error => .failed rfl rfl (.inl rfl)
    obtain ⟨h_read, rows, filledAt, h_plan⟩ := h_knows
    have h_written := bumpVersionRow_written h_ok
    have h_before := h_read.eq h_written
    refine .released rfl (not_refused h_ok) h_written (fun h_nonneg h_release => ?_) rfl trivial
    rw [h_before] at h_plan
    have h_locked := plan_locked h_minor h_balanced h_nonneg h_job h_release h_plan
    rw [h_written.locked_eq rfl (h_locked ▸ released_onGrid h_minor h_balanced job.order), h_locked]
  | event plan fill =>
    refine issue_elim (P := FillTurn config s job (.event plan fill)) (fun row s' h_ok => ?_)
      fun e h_error => .failed rfl rfl (.inr (refused_of_error h_error))
    rw [(insertBalanceEventRow_store h_ok).2.2]
    unfold FillPlan.afterEvent
    split
    · exact .kept rfl rfl rfl trivial
    · exact .kept rfl rfl rfl trivial
  | closingRead plan fill existing => exact .kept rfl rfl rfl trivial
  | closingWrite plan fill existing current =>
    refine issue_elim (P := FillTurn config s job (.closingWrite plan fill existing current))
      (fun row s' h_ok => ?_) fun e h_error => .failed rfl rfl (.inr (refused_of_error h_error))
    obtain ⟨positions, clock, -, rfl⟩ := writePositionRow_store h_ok
    exact .kept rfl rfl rfl trivial
  | positionRead plan fill => exact .kept rfl rfl rfl trivial
  | positionWrite plan fill current =>
    refine issue_elim (P := FillTurn config s job (.positionWrite plan fill current))
      (fun row s' h_ok => ?_) fun e h_error => .failed rfl rfl (.inr (refused_of_error h_error))
    obtain ⟨positions, clock, -, rfl⟩ := writePositionRow_store h_ok
    unfold FillPlan.afterPosition
    split
    · exact .kept rfl rfl rfl trivial
    · exact .kept rfl rfl rfl trivial
  | trade plan fill closed =>
    refine issue_elim (P := FillTurn config s job (.trade plan fill closed)) (fun row s' h_ok => ?_)
      fun e h_error => .failed rfl rfl (.inr (refused_of_error h_error))
    obtain ⟨trade, -, h_insert⟩ := bind_eq_ok.mp h_ok
    rw [insertTradeRow_store h_insert]
    exact .kept rfl rfl rfl trivial
  | finish plan fill =>
    refine issue_elim (P := FillTurn config s job (.finish plan fill)) (fun row s' h_ok => ?_)
      fun e h_error => .failed rfl rfl (.inr (refused_of_error h_error))
    obtain ⟨values, h_values, h_fill⟩ := bind_eq_ok.mp h_ok
    have h_moved := fillOrderRow_eq_ok h_fill
    rw [FillPlan.orderValues_target h_values] at h_moved
    exact .filled rfl h_moved
  | reread => exact .kept rfl rfl rfl trivial
  | rereadFills order => exact .settled rfl rfl rfl

end Statements

/-! ## One statement of a call -/

/-- What one statement of a call did with its stake, the orders and the locked balance. -/
inductive Turn (config : AccountingConfig) (s s' : Store) (call call' : Call) : Prop
  | kept (h_orders : s'.orders = s.orders) (h_account : s'.account = s.account)
      (h_stake : call'.stake = call.stake)
  | began (h_orders : s'.orders = s.orders) (h_account : s'.account = s.account)
      (h_before : call.stake = .none)
      (h_stake : call'.stake = .cancelled [] ∨
        ∃ order, call'.stake = .releasing order ∧ reservedFor config order = 0)
  | dropped (h_orders : s'.orders = s.orders) (h_account : s'.account = s.account)
      (h_before : (∃ order, call.stake = .owned order) ∨ call.refused config s)
      (h_stake : call'.stake = .none)
  | inserted {request : Request} {price : ℚ} {row : OrderRow} (h_before : call.stake = .none)
      (h : OrderInserted (request.newOrder price) s row s')
      (h_stake : call'.stake = .none ∨ call'.stake = .owned row ∨
        call'.stake = .holding row ∧ reservedFor config row = 0)
  | locked {order : OrderRow} {row : AccountRow} {version : ℕ} {payload : AccountUpdate}
      (h_before : call.stake = .owned order) (h : AccountWrittenAt version payload s row s')
      (h_locked : 0 ≤ reservedFor config order →
        row.lockedBalance = s.account.lockedBalance + reservedFor config order)
      (h_stake : call'.stake = .holding order)
  | accepted {order row : OrderRow} (h_before : call.stake = .holding order)
      (h : OrderMoved order.id .accepted .created s row s') (h_stake : call'.stake = .none)
  | released {order : OrderRow} {row : AccountRow} {version : ℕ} {payload : AccountUpdate}
      (h_before : call.stake = .none) (h_releases : call.releases = some order)
      (h_answered : call.refused config s = false) (h : AccountWrittenAt version payload s row s')
      (h_locked : Releases config s order row) (h_stake : call'.stake = .releasing order)
  | left {order row : OrderRow} {target : OrderState} (h_before : call.stake = .releasing order)
      (h : OrderMoved order.id target .accepted s row s') (h_target : target.isTerminal = true)
      (h_stake : call'.stake = .none)
  | cancelled {order row : OrderRow} {ids : List ℕ} (h_before : call.stake = .cancelled ids)
      (h : OrderMoved order.id .cancelled .accepted s row s')
      (h_stake : call'.stake = .cancelled (order.id :: ids))
  | returned {row : AccountRow} {version : ℕ} {payload : AccountUpdate} (h_returns : call.returns = true)
      (h_answered : call.refused config s = false) (h : AccountWrittenAt version payload s row s')
      (h_locked : row.lockedBalance = 0) (h_stake : call'.stake = .none)

/-- What a limit order reserves as it is stored is what it reserves as it was asked for. -/
def Request.StoredAsAsked (config : AccountingConfig) (request : Request) (price : ℚ) : Prop :=
  ∀ quantity limit, numeric request.quantity = .ok quantity → numeric price = .ok limit →
    reservation config quantity limit = reservation config request.quantity price

/-- What a statement did to a call, which knows of the store before it where it leads. -/
def Goes (config : AccountingConfig) (s : Store) (call next : Call) (s' : Store) : Prop :=
  Turn config s s' call next ∧ next.Knows config s

/-- The same for an order that is placed, which may know it of the store behind it. -/
def GoesPlacing (config : AccountingConfig) (s : Store) (request : Request) (phase next : PlacePhase)
    (s' : Store) : Prop :=
  Turn config s s' (.place request phase) (.place request next) ∧
    ((Call.place request next).Knows config s ∨ (Call.place request next).Knows config s')

variable {price capital : ℚ}

theorem inserted_reservedOf {request : Request} {row : OrderRow}
    (h : OrderInserted (request.newOrder price) s row s') (h_limit : request.orderType = .limit)
    (h_stored : request.StoredAsAsked config price) :
    reservedOf config row
      = if request.side = .buy then some (reservation config request.quantity price) else none := by
  have h_side : row.side = request.side := by rw [h.row_eq]; rfl
  have h_type : row.orderType = .limit := by rw [h.row_eq]; exact h_limit
  have h_price : optionalNumeric (some price) = .ok row.limitPrice := by
    have h_new := h.limitPrice
    unfold Request.newOrder at h_new
    dsimp only at h_new
    rw [if_pos h_limit] at h_new
    exact h_new
  obtain ⟨limit, h_numeric, h_row⟩ := bind_eq_ok.mp h_price
  have h_row_limit : row.limitPrice = some limit := (pure_eq_ok.mp h_row).symm
  unfold reservedOf
  rw [h_side, h_type, h_row_limit]
  cases request.side with
  | buy =>
    rw [if_pos rfl]
    exact congrArg some (h_stored row.quantity limit h.quantity h_numeric)
  | sell =>
    rw [if_neg nofun]

theorem inserted_nonneg {new : NewOrder} {row : OrderRow}
    (h : OrderInserted new s row s') : 0 ≤ reservedFor config row :=
  reservedFor_nonneg h.quantity_pos h.limitPrice_pos

theorem Known.of_inserted {new : NewOrder} {row : OrderRow} (h : OrderInserted new s row s') :
    Known s' row := by
  refine ⟨row, ?_, rfl⟩
  rw [h.store]
  exact List.mem_append_right _ (List.mem_singleton.mpr rfl)

section Calls

variable (h_minor : config.minorUnitExponent ≤ numericScale) (h_balanced : Balanced s.account)

theorem Request.inserted_turn (request : Request) (available : ℚ) {row : OrderRow}
    (h_limit : request.orderType = .limit) (h_stored : request.StoredAsAsked config price)
    (h : OrderInserted (request.newOrder price) s row s') :
    Turn config s s' (.place request (.insert available price))
        (.place request (request.inserted config available price row)) ∧
      (Call.place request (request.inserted config available price row)).Knows config s' := by
  have h_reserved := inserted_reservedOf h h_limit h_stored
  have h_nonneg : 0 ≤ reservedFor config row := inserted_nonneg h
  unfold Request.inserted
  rw [h_limit]
  cases h_side : request.side with
  | buy =>
    rw [if_pos h_side] at h_reserved
    dsimp only
    cases h_cost : reservation config request.quantity price with
    | ok cost =>
      rw [h_cost] at h_reserved
      have h_row : reservedFor config row = cost := reservedFor_of_ok h_reserved
      dsimp only
      split_ifs with h_pos
      · exact ⟨.inserted rfl h (.inr (.inl rfl)), .of_inserted h, h_row.symm⟩
      · -- Nothing is locked for a cost that rounds to nothing.
        have h_zero : reservedFor config row = 0 := by linarith
        exact ⟨.inserted rfl h (.inr (.inr ⟨rfl, h_zero⟩)), .of_inserted h⟩
    | error e => exact ⟨.inserted rfl h (.inl rfl), trivial⟩
  | sell =>
    rw [if_neg (by rw [h_side]; exact nofun)] at h_reserved
    have h_zero : reservedFor config row = 0 := by
      unfold reservedFor
      rw [h_reserved]
    exact ⟨.inserted rfl h (.inr (.inr ⟨rfl, h_zero⟩)), .of_inserted h⟩

include h_minor h_balanced

/-- A statement of `place_order`, of a limit order. -/
theorem PlacePhase.step_turn {request : Request} {phase : PlacePhase}
    (h_limit : request.orderType = .limit)
    (h_stored : ∀ available price, phase = .insert available price →
      request.StoredAsAsked config price)
    (h_knows : (Call.place request phase).Knows config s) :
    Turn config s (phase.step config request s).2 (.place request phase)
        (.place request (phase.step config request s).1) ∧
      ((Call.place request (phase.step config request s).1).Knows config s ∨
        (Call.place request (phase.step config request s).1).Knows config
          (phase.step config request s).2) := by
  have h_admit : ∀ account rows,
      (Call.place request (request.admission config account rows)).stake = .none ∧
        (Call.place request (request.admission config account rows)).Knows config s := by
    intro account rows
    unfold Request.admission
    dsimp only
    split
    · exact ⟨rfl, trivial⟩
    · exact ⟨rfl, trivial⟩
  cases phase with
  | readAccount =>
    unfold PlacePhase.step
    dsimp only
    split_ifs
    · exact ⟨.kept rfl rfl rfl, .inl trivial⟩
    · exact ⟨.kept rfl rfl rfl, .inl trivial⟩
  | readPositions account =>
    unfold PlacePhase.step
    dsimp only
    split
    · exact ⟨.kept rfl rfl rfl, .inl trivial⟩
    · obtain ⟨h_stake, h_after⟩ := h_admit account (positionRows false s)
      exact ⟨.kept rfl rfl h_stake, .inl h_after⟩
  | probe account rows =>
    unfold PlacePhase.step
    dsimp only
    split
    · exact ⟨.kept rfl rfl rfl, .inl trivial⟩
    · obtain ⟨h_stake, h_after⟩ := h_admit account rows
      exact ⟨.kept rfl rfl h_stake, .inl h_after⟩
  | insert available price =>
    refine issue_elim (P := GoesPlacing config s request _) (fun row s' h_ok => ?_) fun e h_error => ?_
    · obtain ⟨h_turn, h_after⟩ := request.inserted_turn available h_limit
        (h_stored available price rfl) (insertOrderRow_eq_ok h_ok)
      exact ⟨h_turn, .inr h_after⟩
    · split_ifs
      · exact ⟨.kept rfl rfl rfl, .inl trivial⟩
      · exact ⟨.kept rfl rfl rfl, .inl trivial⟩
  | reprobe =>
    unfold PlacePhase.step
    dsimp only
    split
    · exact ⟨.kept rfl rfl rfl, .inl trivial⟩
    · exact ⟨.kept rfl rfl rfl, .inl trivial⟩
  | answer recorded => exact ⟨.kept rfl rfl rfl, .inl trivial⟩
  | lockRead order price cost =>
    obtain ⟨h_known, rfl⟩ := h_knows
    unfold PlacePhase.step
    dsimp only
    split
    · rename_i locked h_lock
      exact ⟨.kept rfl rfl rfl, .inl ⟨h_known, .refl s, h_lock⟩⟩
    · exact ⟨.dropped rfl rfl (.inl ⟨order, rfl⟩) rfl, .inl trivial⟩
  | lockMoney order price before locked occurredAt =>
    obtain ⟨h_known, h_read, h_lock⟩ := h_knows
    refine issue_elim (P := GoesPlacing config s request _) (fun row s' h_ok => ?_)
      fun e h_error => ⟨.dropped rfl rfl (.inl ⟨order, rfl⟩) rfl, .inl trivial⟩
    have h_written := bumpVersionRow_written h_ok
    have h_before := h_read.eq h_written
    refine ⟨.locked rfl h_written (fun h_nonneg => ?_) rfl, .inl h_known⟩
    rw [h_before] at h_lock
    have h_locked := lock_locked h_minor h_balanced h_nonneg h_lock
    rw [h_written.locked_eq rfl, h_locked]
    rw [h_locked]
    exact h_balanced.locked.1.add ((reservedFor_onGrid config order).mono h_minor)
  | lockEvent order price before locked occurredAt =>
    refine issue_elim (P := GoesPlacing config s request _) (fun row s' h_ok => ?_)
      fun e h_error => ⟨.dropped rfl rfl (.inr (refused_of_error h_error)) rfl, .inl trivial⟩
    rw [(insertBalanceEventRow_store h_ok).2.2]
    exact ⟨.kept rfl rfl rfl, .inl h_knows⟩
  | accept order price =>
    refine issue_elim (P := GoesPlacing config s request _) (fun row s' h_ok => ?_)
      fun e h_error => ⟨.dropped rfl rfl (.inr (refused_of_error h_error)) rfl, .inl trivial⟩
    rw [h_limit]
    exact ⟨.accepted rfl (moveOrderRow_eq_ok h_ok) rfl, .inl trivial⟩
  | reject order => exact h_knows.elim
  | filling fill => exact h_knows.elim
  | ended ending => exact ⟨.kept rfl rfl rfl, .inl trivial⟩

omit h_minor h_balanced

theorem OpenRead.of_mem (h_whole : ∀ order ∈ s.orders, order.orderState ≠ .partiallyFilled)
    {order : OrderRow} (h_mem : order ∈ s.orders) (h_open : order.legacyStatus = .open) :
    OpenRead s order := by
  have h_state : order.orderState = .accepted := by
    rcases OrderState.legacyStatus_eq_open_iff.mp h_open with h_accepted | h_part
    · exact h_accepted
    · exact absurd h_part (h_whole order h_mem)
  exact ⟨h_state, order, h_mem, rfl, by rw [h_state]; exact nofun⟩

theorem mem_openOrders {order : OrderRow} (h : order ∈ openOrders s) :
    order ∈ s.orders ∧ order.legacyStatus = .open := by
  unfold openOrders at h
  rw [List.mem_insertionSort, List.mem_filter] at h
  exact ⟨h.1, of_decide_eq_true h.2⟩

variable (h_whole : ∀ order ∈ s.orders, order.orderState ≠ .partiallyFilled)

include h_minor h_balanced h_whole

theorem CancelPhase.step_turn {orderId : ℕ} {phase : CancelPhase}
    (h_knows : (Call.cancel orderId phase).Knows config s) :
    Turn config s (phase.step config orderId s).2 (.cancel orderId phase)
        (.cancel orderId (phase.step config orderId s).1) ∧
      (Call.cancel orderId (phase.step config orderId s).1).Knows config s := by
  cases phase with
  | readOrder =>
    unfold CancelPhase.step
    dsimp only
    split
    · exact ⟨.kept rfl rfl rfl, trivial⟩
    · rename_i order h_order
      split
      · exact ⟨.kept rfl rfl rfl, trivial⟩
      · rename_i h_open
        have h_read : OpenRead s order := .of_mem h_whole (List.mem_of_find?_eq_some h_order) h_open
        split_ifs with h_reserved
        · exact ⟨.kept rfl rfl rfl, h_read⟩
        · -- What reserves nothing is cancelled without an account write.
          refine ⟨.began rfl rfl rfl (.inr ⟨order, rfl, ?_⟩), h_read⟩
          unfold reservedFor
          rw [Option.not_isSome_iff_eq_none.mp h_reserved]
      · exact ⟨.kept rfl rfl rfl, trivial⟩
  | readAccount order =>
    unfold CancelPhase.step
    dsimp only
    split
    · rename_i unlocked h_unlock
      exact ⟨.kept rfl rfl rfl, h_knows, .refl s, h_unlock⟩
    · exact ⟨.kept rfl rfl rfl, trivial⟩
  | money order before unlocked occurredAt =>
    obtain ⟨h_open, h_read, h_unlock⟩ := h_knows
    refine issue_elim (P := fun next => Goes config s (.cancel orderId _) (.cancel orderId next))
      (fun row s' h_ok => ?_)
      fun e h_error => ⟨.kept rfl rfl rfl, trivial⟩
    have h_written := bumpVersionRow_written h_ok
    have h_before := h_read.eq h_written
    refine ⟨.released rfl rfl (not_refused h_ok) h_written (fun h_nonneg h_release => ?_) rfl, h_open⟩
    rw [h_before] at h_unlock
    have h_locked := unlock_locked h_minor h_balanced h_nonneg h_release h_unlock
    rw [h_written.locked_eq rfl (h_locked ▸ released_onGrid h_minor h_balanced order), h_locked]
  | event order before unlocked occurredAt =>
    refine issue_elim (P := fun next => Goes config s (.cancel orderId _) (.cancel orderId next))
      (fun row s' h_ok => ?_)
      fun e h_error => ⟨.dropped rfl rfl (.inr (refused_of_error h_error)) rfl, trivial⟩
    rw [(insertBalanceEventRow_store h_ok).2.2]
    exact ⟨.kept rfl rfl rfl, h_knows⟩
  | move order =>
    refine issue_elim (P := fun next => Goes config s (.cancel orderId _) (.cancel orderId next))
      (fun row s' h_ok => ?_)
      fun e h_error => ⟨.dropped rfl rfl (.inr (refused_of_error h_error)) rfl, trivial⟩
    have h_moved := moveOrderRow_eq_ok h_ok
    rw [h_knows.1] at h_moved
    exact ⟨.left rfl h_moved rfl rfl, trivial⟩
  | answer order => exact ⟨.kept rfl rfl rfl, trivial⟩
  | ended ending => exact ⟨.kept rfl rfl rfl, trivial⟩

omit h_minor h_balanced h_whole in
theorem sweepNext_knows {symbol : String} {asked : ℚ} {orders filled : List OrderRow}
    (h : ∀ order ∈ orders, OpenRead s order) :
    (Call.sweep symbol asked (sweepNext config price orders filled)).stake = .none ∧
      (Call.sweep symbol asked (sweepNext config price orders filled)).Knows config s := by
  induction orders with
  | nil => exact ⟨rfl, trivial⟩
  | cons order rest ih =>
    have h_rest : ∀ other ∈ rest, OpenRead s other :=
      fun other h_other => h other (List.mem_cons_of_mem _ h_other)
    unfold sweepNext
    split_ifs
    · split
      · rename_i reserved h_reserved
        refine ⟨rfl, ⟨h order List.mem_cons_self, ?_, trivial⟩, h_rest⟩
        show reserved = reservedFor config order
        unfold reservedFor
        cases h_of : reservedOf config order with
        | none =>
          rw [h_of] at h_reserved
          exact (ok.inj h_reserved).symm
        | some result =>
          rw [h_of] at h_reserved
          rw [show result = .ok reserved from h_reserved]
      · exact ⟨rfl, trivial⟩
    · exact ih h_rest

theorem SweepPhase.step_turn {symbol : String} {phase : SweepPhase}
    (h_knows : (Call.sweep symbol price phase).Knows config s) :
    Turn config s (phase.step config symbol price s).2 (.sweep symbol price phase)
        (.sweep symbol price (phase.step config symbol price s).1) ∧
      (Call.sweep symbol price (phase.step config symbol price s).1).Knows config s := by
  cases phase with
  | readOrders =>
    unfold SweepPhase.step
    dsimp only
    split
    · have h_open : ∀ order ∈ (openOrders s).filter fun order => order.symbol = symbol,
          OpenRead s order := by
        intro order h_order
        obtain ⟨h_mem, h_status⟩ := mem_openOrders (List.mem_filter.mp h_order).1
        exact .of_mem h_whole h_mem h_status
      obtain ⟨h_stake, h_after⟩ := sweepNext_knows h_open
      exact ⟨.kept rfl rfl h_stake, h_after⟩
    · exact ⟨.kept rfl rfl rfl, trivial⟩
  | filling fill rest filled =>
    obtain ⟨⟨h_open, h_job, h_phase⟩, h_rest⟩ := h_knows
    have h_turn := FillPhase.step_turn h_minor h_balanced fill.attempt h_job h_phase
    unfold SweepPhase.step Filling.step
    dsimp only
    generalize fill.phase.step config fill.job fill.attempt s = step at h_turn ⊢
    obtain ⟨next, s'⟩ := step
    cases h_turn with
    | kept h_orders h_account h_stake h_next =>
      exact ⟨.kept h_orders h_account h_stake, ⟨h_open, h_job, h_next⟩, h_rest⟩
    | released h_releases h_answered h h_locked h_stake h_next =>
      have h_before : fill.phase.stake fill.job = .none := by
        revert h_releases
        cases fill.phase with
        | money plan anchor => exact fun _ => rfl
        | _ => exact nofun
      exact ⟨.released h_before h_releases h_answered h h_locked h_stake, ⟨h_open, h_job, h_next⟩,
        h_rest⟩
    | failed h_orders h_account h_stake =>
      dsimp only
      -- A conflict begins the next attempt; the cash, if it was released, stays so.
      have h_turn : ∀ call, call.stake = .none →
          Turn config s s' (.sweep symbol price (.filling fill rest filled)) call := by
        intro call h_call
        rcases h_stake with h_none | h_refused
        · exact .kept h_orders h_account (h_call.trans h_none.symm)
        · exact .dropped h_orders h_account (.inr h_refused) h_call
      split_ifs
      · exact ⟨h_turn _ rfl, ⟨h_open, h_job, trivial⟩, h_rest⟩
      · exact ⟨h_turn _ rfl, trivial⟩
    | settled h_orders h_account h_stake =>
      obtain ⟨h_next, h_after⟩ := sweepNext_knows h_rest
      exact ⟨.kept h_orders h_account (h_next.trans h_stake.symm), h_after⟩
    | filled h_stake h =>
      obtain ⟨h_next, h_after⟩ := sweepNext_knows h_rest
      rw [h_open.1] at h
      exact ⟨.left h_stake h rfl h_next, h_after⟩
  | ended ending => exact ⟨.kept rfl rfl rfl, trivial⟩

variable {startedAt : Instant}

omit h_minor h_balanced h_whole in
theorem cancelNext_knows {orders : List OrderRow} {ids : List ℕ}
    (h : ∀ order ∈ orders, OpenRead s order) :
    (Call.reset capital startedAt (cancelNext ids orders)).stake = .cancelled ids ∧
      (Call.reset capital startedAt (cancelNext ids orders)).Knows config s := by
  cases orders with
  | nil => exact ⟨rfl, trivial⟩
  | cons order rest =>
    exact ⟨rfl, h order List.mem_cons_self, fun other h_other => h other (List.mem_cons_of_mem _ h_other)⟩

omit h_minor h_balanced h_whole in
theorem closeNext_stake (rows : List PositionRow) (ids : List ℕ) :
    (Call.reset capital startedAt (closeNext ids rows)).stake = .cancelled ids := by
  cases rows with
  | nil => rfl
  | cons row rest => rfl

omit h_minor h_balanced h_whole in
theorem closeNext_knows (rows : List PositionRow) (ids : List ℕ) :
    (Call.reset capital startedAt (closeNext ids rows)).Knows config s := by
  cases rows with
  | nil => exact trivial
  | cons row rest => exact trivial

omit h_minor h_balanced in
theorem ResetPhase.step_turn {phase : ResetPhase}
    (h_knows : (Call.reset capital startedAt phase).Knows config s) :
    Turn config s (phase.step capital startedAt s).2 (.reset capital startedAt phase)
        (.reset capital startedAt (phase.step capital startedAt s).1) ∧
      (Call.reset capital startedAt (phase.step capital startedAt s).1).Knows config s := by
  cases phase with
  | readOrders =>
    have h_open : ∀ order ∈ openOrders s, OpenRead s order := by
      intro order h_order
      obtain ⟨h_mem, h_status⟩ := mem_openOrders h_order
      exact .of_mem h_whole h_mem h_status
    obtain ⟨h_stake, h_after⟩ := cancelNext_knows h_open
    exact ⟨.began rfl rfl rfl (.inl h_stake), h_after⟩
  | cancel order rest ids =>
    obtain ⟨h_open, h_rest⟩ := h_knows
    refine issue_elim (P := fun next => Goes config s (.reset capital startedAt _)
      (.reset capital startedAt next)) (fun row s' h_ok => ?_)
      fun e h_error => ⟨.dropped rfl rfl (.inr (refused_of_error h_error)) rfl, trivial⟩
    have h_moved := moveOrderRow_eq_ok h_ok
    rw [h_open.1] at h_moved
    obtain ⟨h_stake, h_after⟩ := cancelNext_knows h_rest
    exact ⟨.cancelled rfl h_moved h_stake, h_after⟩
  | readPositions ids => exact ⟨.kept rfl rfl (closeNext_stake _ _), closeNext_knows _ _⟩
  | closeRead row rest ids => exact ⟨.kept rfl rfl rfl, trivial⟩
  | closeWrite row rest current ids =>
    refine issue_elim (P := fun next => Goes config s (.reset capital startedAt _)
      (.reset capital startedAt next)) (fun written s' h_ok => ?_)
      fun e h_error => ⟨.dropped rfl rfl (.inr (refused_of_error h_error)) rfl, trivial⟩
    obtain ⟨positions, clock, -, rfl⟩ := writePositionRow_store h_ok
    exact ⟨.kept rfl rfl (closeNext_stake _ _), closeNext_knows _ _⟩
  | readAccount ids => exact ⟨.kept rfl rfl rfl, trivial⟩
  | money before ids =>
    refine issue_elim (P := fun next => Goes config s (.reset capital startedAt _)
      (.reset capital startedAt next)) (fun row s' h_ok => ?_)
      fun e h_error => ⟨.dropped rfl rfl (.inr (refused_of_error h_error)) rfl, trivial⟩
    have h_written := bumpVersionRow_written h_ok
    exact ⟨.returned rfl (not_refused h_ok) h_written
      (h_written.locked_eq rfl (.zero numericScale)) rfl, trivial⟩
  | event before updated =>
    refine issue_elim (P := fun next => Goes config s (.reset capital startedAt _)
      (.reset capital startedAt next)) (fun row s' h_ok => ?_)
      fun e h_error => ⟨.kept rfl rfl rfl, trivial⟩
    rw [(insertBalanceEventRow_store h_ok).2.2]
    exact ⟨.kept rfl rfl rfl, trivial⟩
  | ended ending => exact ⟨.kept rfl rfl rfl, trivial⟩

theorem Call.step_turn {call : Call}
    (h_limit : ∀ request phase, call = .place request phase → request.orderType = .limit)
    (h_stored : ∀ request available price, call = .place request (.insert available price) →
      request.StoredAsAsked config price) (h_knows : call.Knows config s) :
    Turn config s (call.step config s).2 call (call.step config s).1 ∧
      ((call.step config s).1.Knows config s ∨
        (call.step config s).1.Knows config (call.step config s).2) := by
  cases call with
  | place request phase =>
    refine PlacePhase.step_turn h_minor h_balanced (h_limit request phase rfl)
      (fun available price h_phase => ?_) h_knows
    rw [h_phase] at h_stored
    exact h_stored request available price rfl
  | cancel orderId phase =>
    exact (CancelPhase.step_turn h_minor h_balanced h_whole h_knows).imp_right .inl
  | sweep symbol price phase =>
    exact (SweepPhase.step_turn h_minor h_balanced h_whole h_knows).imp_right .inl
  | reset capital startedAt phase =>
    exact (ResetPhase.step_turn h_whole h_knows).imp_right .inl

end Calls

end VyomQuant.Paper.Service
