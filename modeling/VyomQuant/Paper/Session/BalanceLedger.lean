/-
  VyomQuant.Paper.Session.BalanceLedger

  The balance ledger and the account it should reconstruct: opening figures plus the sum of
  the recorded deltas.

  A fill writes both in one statement.  An order lock and a reset write the account and then
  its ledger row (`Pending` between the two), so what is stopped there leaves a movement that
  nothing records: a submission run again finds its order under its key, and a reset run
  again reads the balances it has already returned.  `ledger_reconstructs_account` asks that
  nothing is stopped there unless the movement is zero.
-/

import VyomQuant.Lib.Crashes
import VyomQuant.Paper.Accounting.Equity
import VyomQuant.Paper.Session.Reset

namespace VyomQuant.Paper

open Decimal Except Program
open Accounting (Instant AccountingConfig Account Book FillRequest FillResult FillTrace
  PositionCase PositionChange accountingContext)

/-! ## The law -/

/-- The available, locked and realized figures of an account. -/
def AccountRow.figures (account : AccountRow) : ℚ × ℚ × ℚ :=
  (account.availableBalance, account.lockedBalance, account.realizedPnl)

/-- What a ledger row says they moved by. -/
def BalanceEventRow.deltas (event : BalanceEventRow) : ℚ × ℚ × ℚ :=
  (event.availableDelta, event.lockedDelta, event.realizedDelta)

def AccountUpdate.figures (payload : AccountUpdate) (account : AccountRow) : ℚ × ℚ × ℚ :=
  (payload.availableBalance.getD account.availableBalance,
    payload.lockedBalance.getD account.lockedBalance,
    payload.realizedPnl.getD account.realizedPnl)

/-- What the recorded movements add up to, from the opening figures on. -/
def reconstructed (opening : ℚ × ℚ × ℚ) (events : List BalanceEventRow) : ℚ × ℚ × ℚ :=
  opening + (events.map BalanceEventRow.deltas).sum

/-- The ledger reconstructs the account. -/
def Reconstructs (opening : ℚ × ℚ × ℚ) (s : Store) : Prop :=
  s.account.figures = reconstructed opening s.balanceEvents

instance (opening : ℚ × ℚ × ℚ) (s : Store) : Decidable (Reconstructs opening s) :=
  inferInstanceAs (Decidable (_ = _))

theorem reconstructed_append (opening : ℚ × ℚ × ℚ) (events : List BalanceEventRow)
    (event : BalanceEventRow) :
    reconstructed opening (events ++ [event]) = reconstructed opening events + event.deltas := by
  unfold reconstructed
  rw [List.map_append, List.sum_append, List.map_singleton, List.sum_singleton, add_assoc]

/-- What the columns and the checks of `paper_accounts` hold. -/
structure AccountStored (account : AccountRow) : Prop where
  available : IsNumeric account.availableBalance
  locked : IsNumeric account.lockedBalance
  realized : IsNumeric account.realizedPnl
  available_nonneg : 0 ≤ account.availableBalance
  locked_nonneg : 0 ≤ account.lockedBalance

/-- The law, on an account as its table holds it. -/
structure LedgerKept (opening : ℚ × ℚ × ℚ) (s : Store) : Prop where
  stored : AccountStored s.account
  reconstructs : Reconstructs opening s

/-- A movement that the account has made and the ledger does not record yet. -/
structure Pending (opening : ℚ × ℚ × ℚ) (event : BalanceEventRow) (s : Store) : Prop where
  stored : AccountStored s.account
  moved : s.account.figures = reconstructed opening s.balanceEvents + event.deltas
  deltas : IsNumeric event.availableDelta ∧ IsNumeric event.lockedDelta ∧
    IsNumeric event.realizedDelta
  after : IsNumeric event.availableAfter ∧ IsNumeric event.lockedAfter ∧
    IsNumeric event.realizedAfter

variable {opening : ℚ × ℚ × ℚ} {s s' : Store}

theorem figures_eq_iff {a b : AccountRow} : a.figures = b.figures ↔
    a.availableBalance = b.availableBalance ∧ a.lockedBalance = b.lockedBalance ∧
      a.realizedPnl = b.realizedPnl := by
  simp [AccountRow.figures, Prod.ext_iff]

theorem AccountStored.congr {a b : AccountRow} (h : AccountStored a) (h_figures : b.figures = a.figures) :
    AccountStored b := by
  obtain ⟨h_available, h_locked, h_realized⟩ := figures_eq_iff.mp h_figures
  exact ⟨h_available ▸ h.available, h_locked ▸ h.locked, h_realized ▸ h.realized,
    h_available ▸ h.available_nonneg, h_locked ▸ h.locked_nonneg⟩

theorem LedgerKept.congr (h : LedgerKept opening s)
    (h_figures : s'.account.figures = s.account.figures)
    (h_events : s'.balanceEvents = s.balanceEvents) : LedgerKept opening s' := by
  refine ⟨h.stored.congr h_figures, ?_⟩
  unfold Reconstructs
  rw [h_figures, h_events]
  exact h.reconstructs

variable {event : BalanceEventRow}

theorem Pending.kept (h : Pending opening event s) (h_zero : event.deltas = 0) :
    LedgerKept opening s := by
  refine ⟨h.stored, ?_⟩
  unfold Reconstructs
  rw [h.moved, h_zero, add_zero]

/-! ## Statements that move nothing -/

/-- Whether a statement writes neither the account nor the ledger. -/
def RepoOp.isQuiet : RepoOp → Bool
  | .bumpVersion .. | .insertBalanceEvent _ | .applyFillAtomic _ => false
  | _ => true

variable {op : RepoOp}

theorem statement_of_isQuiet {answer : Res op} (h : op.isQuiet = true)
    (h_ok : statement op s = .ok (answer, s')) :
    s'.account = s.account ∧ s'.balanceEvents = s.balanceEvents := by
  cases op with
  | bumpVersion => cases h
  | insertBalanceEvent => cases h
  | applyFillAtomic => cases h
  | insertOrder order =>
    obtain rfl := (insertOrderRow_eq_ok h_ok).store
    exact ⟨rfl, rfl⟩
  | updateOrder orderId target expected reason =>
    simp only [statement, updateOrderRow, bind_eq_ok, pure_eq_ok, Prod.mk.injEq] at h_ok
    obtain ⟨_, _, _, _, _, rfl⟩ := h_ok
    exact ⟨rfl, rfl⟩
  | insertEquitySnapshot snapshot =>
    obtain rfl := writeSnapshot_eq_ok h_ok
    exact ⟨rfl, rfl⟩
  | updatePosition rowId version values =>
    simp only [statement, updatePositionRow, bind_eq_ok, pure_eq_ok, Prod.mk.injEq] at h_ok
    obtain ⟨_, _, _, _, _, _, _, _, _, _, _, _, _, rfl⟩ := h_ok
    exact ⟨rfl, rfl⟩
  | insertPosition values =>
    simp only [statement, insertPositionRow, bind_eq_ok, pure_eq_ok, Prod.mk.injEq] at h_ok
    obtain ⟨_, _, _, _, _, _, _, _, _, _, _, _, _, rfl⟩ := h_ok
    exact ⟨rfl, rfl⟩
  | transitionSession current target =>
    simp only [statement, transitionSessionRow, bind_eq_ok, pure_eq_ok, Prod.mk.injEq] at h_ok
    obtain ⟨_, _, _, rfl⟩ := h_ok
    exact ⟨rfl, rfl⟩
  | _ =>
    cases h_ok
    exact ⟨rfl, rfl⟩

theorem LedgerKept.quiet (h : LedgerKept opening s) (h_quiet : op.isQuiet = true) :
    LedgerKept opening (handle op s).2 := by
  rcases handle_cases op s with ⟨answer, s', h_ok, h_handle⟩ | ⟨e, _, h_handle⟩
  · obtain ⟨h_account, h_events⟩ := statement_of_isQuiet h_quiet h_ok
    rw [h_handle]
    exact h.congr (by rw [h_account]) h_events
  · rw [h_handle]
    exact h

/-! ## What a fill moves -/

variable {fillPrice : ℚ}

section Fill

variable {account : Account} {positions : Book} {request : FillRequest} {config : AccountingConfig}
  {result : FillResult} {d : ℕ}

theorem realized_onGrid {symbol : String} {side : Accounting.PositionSide} {fillQty fillFee : ℚ}
    {filledAt : Option Instant} {existing : Option Accounting.Position} {change : PositionChange}
    (h : PositionCase symbol side fillQty fillPrice fillFee config filledAt existing change) :
    OnGrid config.minorUnitExponent change.realized := by
  cases h with
  | opened h_new => exact OnGrid.zero _
  | added h_side h_size h_entry h_new => exact OnGrid.zero _
  | reduced h_side h_le h_realized h_remaining h_new =>
    exact AccountingConfig.quantizeAt_onGrid h_realized
  | reversed h_side h_lt h_realized h_surplus h_new =>
    exact AccountingConfig.quantizeAt_onGrid h_realized

theorem oldValue_onGrid {oldValue : ℚ} {existing : Option Accounting.Position}
    (h : Accounting.oldValueOf config fillPrice existing = .ok oldValue) :
    OnGrid config.minorUnitExponent oldValue := by
  cases existing with
  | none =>
    cases h
    exact OnGrid.zero _
  | some position => exact AccountingConfig.quantizeAt_onGrid h

/-- The figures a fill leads to are on every grid that holds the balances before and the
    session's money, however far the arithmetic was rounded. -/
theorem fill_onGrid (trace : FillTrace account positions request config result)
    (h_places : config.minorUnitExponent ≤ d) (h_available : OnGrid d account.availableBalance)
    (h_locked : OnGrid d account.lockedBalance) (h_realized : OnGrid d account.realizedPnl) :
    OnGrid d result.account.availableBalance ∧ OnGrid d result.account.lockedBalance ∧
      OnGrid d result.account.realizedPnl ∧ OnGrid d result.realizedDelta := by
  obtain ⟨-, -, h_fee, h_release, -⟩ := Accounting.fillFigures_eq_ok.mp trace.figures_eq
  have h_money : ∀ {value stored : ℚ}, config.money value = .ok stored → OnGrid d stored :=
    fun h => (AccountingConfig.quantizeAt_onGrid h).mono h_places
  have h_change : OnGrid d trace.change.realized :=
    (realized_onGrid (Accounting.changePosition_cases trace.change_eq)).mono h_places
  have h_old : OnGrid d trace.oldValue := (oldValue_onGrid trace.oldValue_eq).mono h_places
  have h_cash : OnGrid d (Accounting.cashDelta trace.newValue trace.oldValue trace.figures.fillFee) := by
    refine Context.round_onGrid _ (OnGrid.sub (Context.round_onGrid _ (OnGrid.neg ?_)) (h_money h_fee))
    exact Context.round_onGrid _ ((h_money trace.newValue_eq).sub h_old)
  refine ⟨?_, ?_, ?_, ?_⟩
  · rw [trace.available_eq]
    exact Context.round_onGrid _ ((Context.round_onGrid _ (h_available.add (h_money h_release))).add h_cash)
  · rw [trace.locked_eq]
    exact Context.round_onGrid _ (h_locked.sub (h_money h_release))
  · rw [trace.realized_eq]
    exact Context.round_onGrid _ (h_realized.add h_change)
  · rw [trace.realizedDelta_eq]
    exact h_change

end Fill

theorem accounting_round_of_recorded {value : ℚ} (h_grid : OnGrid numericScale value)
    (h_lt : |value| < 10 ^ 24) : accountingContext.round value = value :=
  accountingContext.round_of_onGrid h_grid
    (by simpa [accountingContext, Accounting.decimalPrecision, numericScale] using h_lt)

theorem IsNumeric.accounting_sub {x y : ℚ} (hx : IsNumeric x) (hy : IsNumeric y)
    (hx_nonneg : 0 ≤ x) (hy_nonneg : 0 ≤ y) : accountingContext.sub x y = x - y := by
  have h_sub := hx.sub hy hx_nonneg hy_nonneg
  exact accounting_round_of_recorded h_sub.1 (h_sub.2.trans (by norm_num))

theorem IsNumeric.accounting_add {x y : ℚ} (hx : IsNumeric x) (hy : IsNumeric y) :
    accountingContext.add x y = x + y := by
  refine accounting_round_of_recorded (hx.1.add hy.1) ?_
  calc |x + y| ≤ |x| + |y| := abs_add_le x y
    _ < 10 ^ 18 + 10 ^ 18 := add_lt_add hx.2 hy.2
    _ ≤ 10 ^ 24 := by norm_num

theorem moved_of_numeric {before after delta : ℚ} (h_before : IsNumeric before)
    (h_after : IsNumeric after) (h_before_nonneg : 0 ≤ before) (h_after_nonneg : 0 ≤ after)
    (h : numeric (accountingContext.sub after before) = .ok delta) : delta = after - before := by
  rw [h_after.accounting_sub h_before h_after_nonneg h_before_nonneg,
    numeric_of_isNumeric (h_after.sub h_before h_after_nonneg h_before_nonneg)] at h
  exact (Except.ok.inj h).symm

theorem LedgerKept.filled {config : SessionConfig} {call : FillCall} {fillQty : ℚ}
    {context : FillContext} {rows : List PositionRow} {prepared : PreparedFill}
    {commit : FillCommit} (h : LedgerKept opening s)
    (h_prepared : prepareFill config call fillQty fillPrice context rows = .ok prepared)
    (h_account : context.account = s.account)
    (h_commit : applyFillAtomic prepared.args s = .ok (commit, s')) : LedgerKept opening s' := by
  obtain ⟨decision⟩ := prepareFill_eq_ok h_prepared
  obtain ⟨trace⟩ := Accounting.applyFill_eq_ok (engineFill_eq_ok decision.result_eq)
  have h_before := h.stored
  rw [← h_account] at h_before
  have h_committed := applyFillAtomic_eq_ok h_commit
  obtain ⟨h_available, h_locked, h_realized, h_delta⟩ := fill_onGrid trace
    (show config.accounting.minorUnitExponent ≤ numericScale from config.minorUnitExponent_le)
    h_before.available.1 h_before.locked.1 h_before.realized.1
  have h_row := h_committed.account
  have h_event := h_committed.movement
  have h_available_delta := h_event.available
  have h_locked_delta := h_event.locked
  have h_realized_delta := h_event.realized
  rw [decision.movement_eq] at h_available_delta h_locked_delta h_realized_delta
  -- The columns hold the engine's own figures, as these are on their grid.
  obtain ⟨h_available_eq, h_available⟩ := isNumeric_of_onGrid
    (decision.available_eq ▸ h_row.available) le_rfl h_available
  obtain ⟨h_locked_eq, h_locked⟩ := isNumeric_of_onGrid
    (decision.locked_eq ▸ h_row.locked) le_rfl h_locked
  obtain ⟨h_realized_eq, h_realized⟩ := isNumeric_of_onGrid
    (decision.realized_eq ▸ h_row.realized) le_rfl h_realized
  obtain ⟨h_delta_eq, h_delta⟩ := isNumeric_of_onGrid h_realized_delta le_rfl h_delta
  have h_available_moved : commit.balanceEvent.availableDelta
      = prepared.result.account.availableBalance - context.account.availableBalance :=
    moved_of_numeric h_before.available h_available h_before.available_nonneg trace.available_nonneg
      (trace.availableDelta_eq ▸ h_available_delta)
  have h_locked_moved : commit.balanceEvent.lockedDelta
      = prepared.result.account.lockedBalance - context.account.lockedBalance :=
    moved_of_numeric h_before.locked h_locked h_before.locked_nonneg trace.locked_nonneg
      (trace.lockedDelta_eq ▸ h_locked_delta)
  have h_realized_moved : prepared.result.account.realizedPnl
      = context.account.realizedPnl + prepared.result.realizedDelta := by
    rw [trace.realizedDelta_eq] at h_delta ⊢
    rw [trace.realized_eq]
    exact h_before.realized.accounting_add h_delta
  have h_reconstructs := h.reconstructs
  unfold Reconstructs at h_reconstructs
  rw [← h_account] at h_reconstructs
  refine ⟨?_, ?_⟩
  · rw [h_committed.account_eq]
    exact ⟨h_available_eq ▸ h_available, h_locked_eq ▸ h_locked, h_realized_eq ▸ h_realized,
      h_row.available_nonneg, h_row.locked_nonneg⟩
  · unfold Reconstructs
    rw [h_committed.account_eq, h_committed.balanceEvents, reconstructed_append, ← h_reconstructs]
    ext
    · simp [AccountRow.figures, BalanceEventRow.deltas, h_available_eq, h_available_moved]
    · simp [AccountRow.figures, BalanceEventRow.deltas, h_locked_eq, h_locked_moved]
    · simp [AccountRow.figures, BalanceEventRow.deltas, h_realized_eq, h_realized_moved, h_delta_eq]

/-! ## A movement of two statements -/

/-- Where an operation may be stopped: anywhere but before the ledger row of a movement. -/
def MayStop : RepoOp → Store → Prop
  | .insertBalanceEvent event, _ => event.deltas = 0
  | _, _ => True

/-- Where a statement that took effect may lose its answer: anywhere but at the account
    update of a movement. -/
def MayLose : RepoOp → Store → Prop
  | .bumpVersion _ payload, s => payload.figures s.account = s.account.figures
  | _, _ => True

/-- Whatever is stopped or lost where it may be, the program keeps the law. -/
abbrev KeepsLedger {α : Type} (opening : ℚ × ℚ × ℚ) (p : Repo α) (s : Store) : Prop :=
  p.WithstandsWhere handle MayStop MayLose (LedgerKept opening) (fun _ => LedgerKept opening) s

section Programs

variable {α β : Type}

theorem keepsLedger_ret (h : LedgerKept opening s) (a : α) :
    KeepsLedger opening (.ret a : Repo α) s := ⟨h, h⟩

theorem keepsLedger_raise (h : LedgerKept opening s) (e : PaperError) :
    KeepsLedger opening (.raise e : Repo α) s := ⟨h, h⟩

theorem KeepsLedger.bind {p : Repo β} {f : β → Repo α} (h : KeepsLedger opening p s)
    (h_f : ∀ b t, LedgerKept opening t → KeepsLedger opening (f b) t) :
    KeepsLedger opening (p.bind f) s := by
  refine WithstandsWhere.bind (h.mono fun r t _ h_kept => ?_)
  cases r with
  | ok b => exact h_f b t h_kept
  | error e => exact h_kept

theorem keepsLedger_lift_bind {x : Except PaperError β} {f : β → Repo α} (h : LedgerKept opening s)
    (h_f : ∀ b, x = .ok b → KeepsLedger opening (f b) s) :
    KeepsLedger opening ((Program.lift x).bind f) s :=
  WithstandsWhere.lift_bind h (fun _ => h) h_f

theorem keepsLedger_read_bind {f : Res op → Repo α} (h_read : op.isRead = true)
    (h : LedgerKept opening s)
    (h_f : ∀ answer, statement op s = .ok (answer, s) → KeepsLedger opening (f answer) s) :
    KeepsLedger opening ((issue op).bind f) s :=
  WithstandsWhere.read_bind (handle_of_isRead h_read s) h (fun _ => h)
    fun answer h_answer => h_f answer (handle_eq_ok.mp h_answer)

theorem keepsLedger_read {next : Except PaperError (Res op) → Repo α} (h_read : op.isRead = true)
    (h : LedgerKept opening s) (h_next : ∀ answer, KeepsLedger opening (next answer) s) :
    KeepsLedger opening (.call op next) s := by
  have h_same := handle_of_isRead h_read s
  refine .call_of h ?_ (fun e _ => ?_) fun e => h_next _
  · rw [h_same]
    exact h_next _
  · rw [h_same]
    exact h_next _

theorem keepsLedger_last {next : Except PaperError (Res op) → Repo α} (h : LedgerKept opening s)
    (h_op : ∀ answer s', statement op s = .ok (answer, s') → LedgerKept opening s')
    (h_ends : ∀ answer, (∃ a, next answer = .ret a) ∨ ∃ e, next answer = .raise e) :
    KeepsLedger opening (.call op next) s := by
  have h_end : ∀ answer t, LedgerKept opening t → KeepsLedger opening (next answer) t := by
    intro answer t h_kept
    rcases h_ends answer with ⟨a, h_next⟩ | ⟨e, h_next⟩
    · rw [h_next]
      exact keepsLedger_ret h_kept a
    · rw [h_next]
      exact keepsLedger_raise h_kept e
  have h_after : LedgerKept opening (handle op s).2 := by
    rcases handle_cases op s with ⟨answer, s', h_ok, h_handle⟩ | ⟨e, _, h_handle⟩
    · rw [h_handle]
      exact h_op answer s' h_ok
    · rw [h_handle]
      exact h
  exact .call_of h (h_end _ _ h_after) (fun e _ => h_end _ _ h_after) fun e => h_end _ _ h

theorem keepsLedger_of_quiet {p : Repo α} (h_quiet : p.Issues fun op => op.isQuiet = true)
    (h : LedgerKept opening s) : KeepsLedger opening p s :=
  .of_issues h_quiet (fun _ _ h_op h => h.quiet h_op) h

structure AccountBumped (payload : AccountUpdate) (s : Store) (row : AccountRow) (s' : Store) :
    Prop where
  available : numeric (payload.availableBalance.getD s.account.availableBalance)
    = .ok row.availableBalance
  locked : numeric (payload.lockedBalance.getD s.account.lockedBalance) = .ok row.lockedBalance
  realized : numeric (payload.realizedPnl.getD s.account.realizedPnl) = .ok row.realizedPnl
  available_nonneg : 0 ≤ row.availableBalance
  locked_nonneg : 0 ≤ row.lockedBalance
  account : s'.account = row
  balanceEvents : s'.balanceEvents = s.balanceEvents

variable {payload : AccountUpdate} {row : AccountRow}

theorem bumpVersionRow_eq_ok {version : ℕ} (h : bumpVersionRow version payload s = .ok (row, s')) :
    AccountBumped payload s row s' := by
  simp only [bumpVersionRow, bind_eq_ok, pure_eq_ok, refuseIf_eq_ok, Prod.mk.injEq, not_or,
    not_lt] at h
  obtain ⟨_, _, _, h_available, _, h_locked, _, h_realized, _, _, _, ⟨h_nonneg, h_nonneg'⟩, rfl,
    rfl⟩ := h
  exact ⟨h_available, h_locked, h_realized, h_nonneg, h_nonneg', rfl, rfl⟩

theorem AccountBumped.stored (h : AccountBumped payload s row s') : AccountStored s'.account := by
  rw [h.account]
  exact ⟨numeric_isNumeric h.available, numeric_isNumeric h.locked, numeric_isNumeric h.realized,
    h.available_nonneg, h.locked_nonneg⟩

theorem AccountBumped.figures (h : AccountBumped payload s row s')
    (h_available : OnGrid numericScale (payload.figures s.account).1)
    (h_locked : OnGrid numericScale (payload.figures s.account).2.1)
    (h_realized : OnGrid numericScale (payload.figures s.account).2.2) :
    s'.account.figures = payload.figures s.account := by
  rw [h.account]
  ext
  · exact numeric_eq_of_onGrid h.available le_rfl h_available
  · exact numeric_eq_of_onGrid h.locked le_rfl h_locked
  · exact numeric_eq_of_onGrid h.realized le_rfl h_realized

theorem AccountBumped.pending (h : LedgerKept opening s) (h_bumped : AccountBumped payload s row s')
    (h_moves : payload.figures s.account = s.account.figures + event.deltas)
    (h_deltas : IsNumeric event.availableDelta ∧ IsNumeric event.lockedDelta ∧ IsNumeric event.realizedDelta)
    (h_after : IsNumeric event.availableAfter ∧ IsNumeric event.lockedAfter ∧ IsNumeric event.realizedAfter) :
    Pending opening event s' := by
  refine ⟨h_bumped.stored, ?_, h_deltas, h_after⟩
  have h_figures : s'.account.figures = payload.figures s.account := by
    refine h_bumped.figures ?_ ?_ ?_
    · rw [h_moves]
      exact h.stored.available.1.add h_deltas.1.1
    · rw [h_moves]
      exact h.stored.locked.1.add h_deltas.2.1.1
    · rw [h_moves]
      exact h.stored.realized.1.add h_deltas.2.2.1
  rw [h_figures, h_moves, h_bumped.balanceEvents]
  congr 1
  exact h.reconstructs

theorem AccountBumped.kept (h : LedgerKept opening s) (h_bumped : AccountBumped payload s row s')
    (h_same : payload.figures s.account = s.account.figures) : LedgerKept opening s' := by
  refine h.congr ?_ h_bumped.balanceEvents
  rw [← h_same]
  refine h_bumped.figures ?_ ?_ ?_
  · rw [h_same]
    exact h.stored.available.1
  · rw [h_same]
    exact h.stored.locked.1
  · rw [h_same]
    exact h.stored.realized.1

theorem keepsLedger_bump_bind {version : ℕ} (event : BalanceEventRow) {f : AccountRow → Repo α}
    (h : LedgerKept opening s)
    (h_moves : ∀ row s', AccountBumped payload s row s' → Pending opening event s')
    (h_f : ∀ row t, Pending opening event t → KeepsLedger opening (f row) t) :
    KeepsLedger opening ((issue (.bumpVersion version payload)).bind f) s := by
  have h_error : ∀ e, KeepsLedger opening (.raise e : Repo α) s := keepsLedger_raise h
  rcases handle_cases (.bumpVersion version payload) s with ⟨row, s', h_ok, h_handle⟩ | ⟨e, _, h_handle⟩
  · have h_bumped : AccountBumped payload s row s' := bumpVersionRow_eq_ok h_ok
    refine WithstandsWhere.call_of h ?_ (fun e h_same => ?_) h_error
    · rw [h_handle]
      exact h_f row s' (h_moves row s' h_bumped)
    · rw [h_handle]
      exact keepsLedger_raise (AccountBumped.kept h h_bumped h_same) e
  · refine WithstandsWhere.call_of h ?_ (fun e' _ => ?_) h_error
    · rw [h_handle]
      exact h_error e
    · rw [h_handle]
      exact h_error e'

theorem insertBalanceEventRow_eq (h : Pending opening event s) :
    insertBalanceEventRow event s = .ok (event, { s with balanceEvents := s.balanceEvents ++ [event] }) := by
  obtain ⟨h_available, h_locked, h_realized⟩ := h.deltas
  obtain ⟨h_available', h_locked', h_realized'⟩ := h.after
  simp only [insertBalanceEventRow, numeric_of_isNumeric h_available, numeric_of_isNumeric h_locked,
    numeric_of_isNumeric h_realized, numeric_of_isNumeric h_available', numeric_of_isNumeric h_locked',
    numeric_of_isNumeric h_realized']
  rfl

theorem Pending.recorded (h : Pending opening event s) :
    KeepsLedger opening (issue (.insertBalanceEvent event)) s := by
  have h_handle : handle (.insertBalanceEvent event) s
      = (.ok event, { s with balanceEvents := s.balanceEvents ++ [event] }) :=
    handle_of_ok (insertBalanceEventRow_eq h)
  have h_kept : LedgerKept opening { s with balanceEvents := s.balanceEvents ++ [event] } := by
    refine ⟨h.stored, ?_⟩
    show s.account.figures = reconstructed opening (s.balanceEvents ++ [event])
    rw [reconstructed_append, h.moved]
  refine ⟨fun h_zero => ⟨h.kept h_zero, fun e => keepsLedger_raise (h.kept h_zero) e⟩, ?_, ?_⟩
  · rw [h_handle]
    exact keepsLedger_ret h_kept event
  · intro e _
    rw [h_handle]
    exact keepsLedger_raise h_kept e

/-! ## Order locks -/

/-- A lock moves its amount from the available to the locked balance, exactly. -/
theorem lock_pending {config : SessionConfig} {required amount : ℚ} {locked : Account}
    (h : LedgerKept opening s)
    (h_locked : lockedAccount (accountOf s.account) required config = .ok locked)
    (h_amount : config.accounting.money required = .ok amount)
    (h_bumped : AccountBumped { availableBalance := some locked.availableBalance
                                lockedBalance := some locked.lockedBalance } s row s')
    (occurredAt : Instant) :
    Pending opening {
      cause := .orderLock, availableDelta := -amount, lockedDelta := amount, realizedDelta := 0
      availableAfter := locked.availableBalance, lockedAfter := locked.lockedBalance
      realizedAfter := locked.realizedPnl, fillId := none, occurredAt } s' := by
  have h_lock : Accounting.lock (accountOf s.account) required config.accounting = .ok locked := by
    unfold lockedAccount at h_locked
    split at h_locked
    · rename_i h_lock
      cases h_locked
      exact h_lock
    · cases h_locked
    · cases h_locked
  simp only [Accounting.lock, bind_eq_ok, pure_eq_ok, Except.refuseIf_eq_ok, not_lt, h_amount,
    Except.ok.injEq] at h_lock
  obtain ⟨_, rfl, _, h_nonneg, _, h_le, rfl⟩ := h_lock
  have h_amount_numeric : IsNumeric amount := by
    refine ⟨(AccountingConfig.quantizeAt_onGrid h_amount).mono config.minorUnitExponent_le, ?_⟩
    rw [abs_of_nonneg h_nonneg]
    exact lt_of_le_of_lt h_le (abs_lt.mp h.stored.available.2).2
  have h_available : accountingContext.sub s.account.availableBalance amount
      = s.account.availableBalance - amount :=
    h.stored.available.accounting_sub h_amount_numeric h.stored.available_nonneg h_nonneg
  have h_locked_sum : accountingContext.add s.account.lockedBalance amount
      = s.account.lockedBalance + amount := h.stored.locked.accounting_add h_amount_numeric
  refine AccountBumped.pending h h_bumped ?_ ⟨h_amount_numeric.neg, h_amount_numeric, .zero⟩ ?_
  · ext
    · exact h_available.trans (sub_eq_add_neg _ _)
    · exact h_locked_sum
    · exact (add_zero _).symm
  · refine ⟨?_, ?_, h.stored.realized⟩
    · show IsNumeric (accountingContext.sub s.account.availableBalance amount)
      rw [h_available]
      exact h.stored.available.sub h_amount_numeric h.stored.available_nonneg h_nonneg
    · show IsNumeric (accountingContext.add s.account.lockedBalance amount)
      refine (isNumeric_of_onGrid h_bumped.locked le_rfl ?_).2
      show OnGrid numericScale (accountingContext.add s.account.lockedBalance amount)
      rw [h_locked_sum]
      exact h.stored.locked.1.add h_amount_numeric.1

theorem lockAttempt_keeps (config : SessionConfig) (required : ℚ) (occurredAt : Option Instant)
    (h : LedgerKept opening s) : KeepsLedger opening (lockAttempt config required occurredAt) s := by
  refine keepsLedger_read_bind rfl h fun account h_account => ?_
  cases h_account
  refine keepsLedger_lift_bind h fun locked h_locked => ?_
  refine keepsLedger_lift_bind h fun amount h_amount => ?_
  refine keepsLedger_bump_bind _ h (fun row t h_bumped =>
    lock_pending h h_locked (ofAccounting_eq_ok.mp h_amount) h_bumped
      (occurredAt.getD s.account.updatedAt)) fun row t h_pending => ?_
  refine KeepsLedger.bind (WithstandsWhere.tryCatch (h_pending.recorded.mono ?_)) fun event t h_kept =>
    keepsLedger_ret h_kept _
  intro r t' _ h_kept
  cases r with
  | ok event => exact h_kept
  | error e => exact keepsLedger_raise h_kept _

theorem lockForOrder_keeps (config : SessionConfig) (required : ℚ) (occurredAt : Option Instant)
    (h : LedgerKept opening s) : KeepsLedger opening (lockForOrder config required occurredAt) s := by
  refine WithstandsWhere.tryCatch (WithstandsWhere.mono (WithstandsWhere.retrying
    (fun t h_kept => lockAttempt_keeps config required occurredAt h_kept) _ h) ?_)
  intro r t _ h_kept
  cases r with
  | ok result => exact h_kept
  | error e => cases e <;> exact keepsLedger_raise h_kept _

/-! ## Resets -/

theorem reset_pending {capital : ℚ} {minor : ℤ} {currency : String} (h : LedgerKept opening s)
    (h_capital : recordedCapital minor currency = .ok capital)
    (h_bumped : AccountBumped (resetPayload capital) s row s') (instant : Instant) :
    Pending opening (resetEvent capital s.account instant) s' := by
  have h_grid : OnGrid numericScale capital := by
    simp only [recordedCapital, bind_eq_ok, pure_eq_ok, ofOption_eq_ok] at h_capital
    obtain ⟨exponent, h_exponent, _, _, rfl⟩ := h_capital
    have h_two : exponent = 2 := by
      unfold minorUnitExponent at h_exponent
      split_ifs at h_exponent <;> cases h_exponent <;> rfl
    rw [h_two]
    exact OnGrid.mono ⟨minor, rfl⟩ (by decide)
  obtain ⟨h_eq, h_capital_numeric⟩ := isNumeric_of_onGrid h_bumped.available le_rfl h_grid
  have h_nonneg : 0 ≤ capital := by
    have h_row := h_bumped.available_nonneg
    rw [h_eq] at h_row
    exact h_row
  have h_sub := h_capital_numeric.sub h.stored.available h_nonneg h.stored.available_nonneg
  have h_exact : ∀ {value : ℚ}, IsNumeric value → ambientContext.round value = value :=
    fun h_numeric => ambient_round_of_recorded le_rfl h_numeric.1 h_numeric.2
  have h_available : ambientContext.sub capital s.account.availableBalance
      = capital - s.account.availableBalance := h_exact h_sub
  have h_locked : ambientContext.neg s.account.lockedBalance = -s.account.lockedBalance :=
    h_exact h.stored.locked.neg
  have h_realized : ambientContext.neg s.account.realizedPnl = -s.account.realizedPnl :=
    h_exact h.stored.realized.neg
  refine AccountBumped.pending h h_bumped ?_ ⟨?_, ?_, ?_⟩ ⟨h_capital_numeric, .zero, .zero⟩
  · ext
    · show capital = s.account.availableBalance + ambientContext.sub capital s.account.availableBalance
      rw [h_available]
      ring
    · show (0 : ℚ) = s.account.lockedBalance + ambientContext.neg s.account.lockedBalance
      rw [h_locked]
      ring
    · show (0 : ℚ) = s.account.realizedPnl + ambientContext.neg s.account.realizedPnl
      rw [h_realized]
      ring
  · show IsNumeric (ambientContext.sub capital s.account.availableBalance)
    rw [h_available]
    exact h_sub
  · show IsNumeric (ambientContext.neg s.account.lockedBalance)
    rw [h_locked]
    exact h.stored.locked.neg
  · show IsNumeric (ambientContext.neg s.account.realizedPnl)
    rw [h_realized]
    exact h.stored.realized.neg

theorem returnBalances_keeps {capital : ℚ} {minor : ℤ} {currency : String}
    (h_capital : recordedCapital minor currency = .ok capital) (instant : Instant)
    (h : LedgerKept opening s) : KeepsLedger opening (returnBalances capital instant) s := by
  refine keepsLedger_read_bind rfl h fun before h_before => ?_
  cases h_before
  refine keepsLedger_bump_bind _ h (fun row t h_bumped => reset_pending h h_capital h_bumped instant)
    fun row t h_pending => ?_
  exact h_pending.recorded.bind fun event t h_kept => keepsLedger_ret h_kept _

abbrev Quiet (op : RepoOp) : Prop := op.isQuiet = true

theorem updateOrder_quiet (orderId : ℕ) (target expected : OrderState)
    (reason : Option RejectionReason) : (updateOrder orderId target expected reason).Issues Quiet :=
  Issues.refuseIf_bind fun _ => Issues.perform rfl

theorem cancelOpenOrders_quiet (orders : List OrderRow) : (cancelOpenOrders orders).Issues Quiet := by
  induction orders with
  | nil => exact .ret _
  | cons order rest ih =>
    show Issues Quiet (if _ then _ else if _ then _ else _)
    split
    · exact (updateOrder_quiet ..).bind fun _ => ih.bind fun _ => .ret _
    · split
      · exact ih.bind fun _ => .ret _
      · exact ih

theorem upsertPosition_quiet (values : PositionValues) : (upsertPosition values).Issues Quiet := by
  refine Issues.bind (Issues.perform rfl) fun found => ?_
  cases found with
  | some current => exact Issues.perform rfl
  | none => exact Issues.perform rfl

theorem closePositions_quiet (instant : Instant) (positions : List Accounting.Position) :
    (closePositions instant positions).Issues Quiet := by
  induction positions with
  | nil => exact .ret _
  | cons position rest ih =>
    show Issues Quiet (if _ then _ else _)
    split
    · exact (upsertPosition_quiet _).bind fun _ => ih.bind fun _ => .ret _
    · exact ih

theorem applyOperation_quiet (operation : SessionOperation) :
    (applyOperation operation).Issues Quiet := by
  refine Issues.bind (Issues.perform rfl) fun session => ?_
  split
  · exact .ret _
  · exact Issues.bind (Issues.perform rfl) fun _ => .ret _

theorem resetBody_keeps (config : SessionConfig) (instant : Instant) (lifecycle : SessionRow)
    (h : LedgerKept opening s) : KeepsLedger opening (resetBody config instant lifecycle) s := by
  refine keepsLedger_read_bind rfl h fun accountRow _ => ?_
  refine keepsLedger_lift_bind h fun capital h_capital => ?_
  refine keepsLedger_read_bind rfl h fun snapshots _ => ?_
  refine keepsLedger_read_bind rfl h fun orders _ => ?_
  refine (keepsLedger_of_quiet (cancelOpenOrders_quiet orders) h).bind fun cancelled t h => ?_
  refine (returnBalances_keeps h_capital instant h).bind fun returned t h => ?_
  -- Past the balances nothing moves them.
  refine keepsLedger_of_quiet ?_ h
  refine Issues.bind (Issues.perform rfl) fun rows => ?_
  refine Issues.bind (Issues.lift _) fun positions => ?_
  refine Issues.bind (closePositions_quiet instant _) fun closed => ?_
  refine Issues.bind (Issues.perform rfl) fun opening => ?_
  refine Issues.bind (Issues.perform rfl) fun rowsAfter => ?_
  refine Issues.bind (Issues.lift _) fun positionsAfter => ?_
  refine Issues.bind (Issues.lift _) fun _ => ?_
  refine Issues.bind (applyOperation_quiet .reset) fun ended => ?_
  cases ended with
  | error rejected => exact .ret _
  | ok session => exact .ret _

theorem resetSession_keeps (config : SessionConfig) (instant : Instant) (h : LedgerKept opening s) :
    KeepsLedger opening (resetSession config instant) s := by
  refine keepsLedger_read_bind rfl h fun session _ => ?_
  split
  · exact keepsLedger_ret h _
  · refine keepsLedger_read_bind rfl h fun lifecycle _ => ?_
    exact resetBody_keeps config instant lifecycle h

/-! ## Fills -/

theorem commitFill_keeps (config : SessionConfig) (call : FillCall) (fillQty fillPrice : ℚ)
    (order : OrderRow) (otherFills : List FillRow) (resumeFillId : Option ℕ)
    (h : LedgerKept opening s) : KeepsLedger opening
      (commitFill config call fillQty fillPrice s.account order otherFills resumeFillId) s := by
  refine keepsLedger_read_bind rfl h fun session _ => ?_
  refine keepsLedger_lift_bind h fun _ _ => ?_
  refine keepsLedger_lift_bind h fun context h_context => ?_
  refine keepsLedger_read_bind rfl h fun rows _ => ?_
  refine keepsLedger_lift_bind h fun prepared h_prepared => ?_
  refine keepsLedger_last h (fun commit s' h_ok => ?_) fun answer => ?_
  · exact h.filled h_prepared (fillContext_eq_ok h_context).account_eq h_ok
  · cases answer with
    | ok commit => exact Or.inl ⟨_, rfl⟩
    | error e => cases e <;> first | exact Or.inl ⟨_, rfl⟩ | exact Or.inr ⟨_, rfl⟩

theorem applyFillAttempt_keeps (config : SessionConfig) (call : FillCall) (fillQty fillPrice : ℚ)
    (h : LedgerKept opening s) :
    KeepsLedger opening (applyFillAttempt config call fillQty fillPrice) s := by
  refine keepsLedger_read_bind rfl h fun account h_account => ?_
  cases h_account
  refine keepsLedger_read_bind rfl h fun found _ => ?_
  cases found with
  | none => exact keepsLedger_raise h _
  | some order =>
    show KeepsLedger opening (if _ then _ else _) s
    split
    · exact keepsLedger_ret h _
    · refine keepsLedger_read_bind rfl h fun fills _ => ?_
      unfold eventStatus
      split
      · exact commitFill_keeps config call fillQty fillPrice order fills none h
      · rename_i fill _
        refine keepsLedger_read rfl h fun answer => ?_
        cases answer with
        | error e => exact keepsLedger_raise h e
        | ok ledger =>
          show KeepsLedger opening (Program.bind (if _ then _ else _) _) s
          split
          · exact keepsLedger_ret h _
          · exact commitFill_keeps config call fillQty fillPrice order _ _ h

theorem applyFill_keeps (config : SessionConfig) (call : FillCall) (h : LedgerKept opening s) :
    KeepsLedger opening (applyFill config call) s := by
  unfold applyFill
  split
  · exact keepsLedger_raise h _
  · exact .retrying (fun t h_kept => applyFillAttempt_keeps config call _ _ h_kept) _ h

/-! ## Submissions -/

theorem insertAndMove_quiet (intent : OrderIntent) (key : Option String) (referencePrice : Option ℚ)
    (target : OrderState) (reason : Option RejectionReason) :
    (insertAndMove intent key referencePrice target reason).Issues Quiet := by
  refine Issues.bind (Issues.lift _) fun order => ?_
  refine Issues.bind (Issues.perform rfl) fun created => ?_
  exact updateOrder_quiet _ _ _ _

theorem reject_quiet (intent : OrderIntent) (key : Option String) (reason : RejectionReason)
    (referencePrice requiredFunds : Option ℚ) :
    (reject intent key reason referencePrice requiredFunds).Issues Quiet :=
  Issues.refuseIf_bind fun _ => (insertAndMove_quiet ..).bind fun _ => .ret _

theorem feedGate_quiet (intent : OrderIntent) : (feedGate intent).Issues Quiet := by
  unfold feedGate
  split
  · exact Issues.bind (Issues.perform rfl) fun session => Issues.lift _
  · exact .ret _

theorem probeKey_quiet (key : Option String) : (probeKey key).Issues Quiet := by
  cases key with
  | none => exact .ret _
  | some key => exact Issues.perform rfl

theorem acceptOrder_keeps (config : SessionConfig) (submission : Submission) (key : Option String)
    (ref required : ℚ) (h : LedgerKept opening s) :
    KeepsLedger opening (acceptOrder config submission key ref required) s := by
  refine (keepsLedger_of_quiet (insertAndMove_quiet ..) h).bind fun accepted t h => ?_
  dsimp only
  split
  · exact (lockForOrder_keeps config required _ h).bind fun locked t h => keepsLedger_ret h _
  · exact keepsLedger_ret h _

theorem submitAttempt_keeps (config : SessionConfig) (submission : Submission) (key : Option String)
    (h : LedgerKept opening s) : KeepsLedger opening (submitAttempt config submission key) s := by
  refine keepsLedger_read_bind rfl h fun account _ => ?_
  refine (keepsLedger_of_quiet (probeKey_quiet key) h).bind fun existing t h => ?_
  cases existing with
  | some existing => exact keepsLedger_of_quiet (Issues.lift _) h
  | none =>
    refine keepsLedger_lift_bind h fun assessment _ => ?_
    cases assessment with
    | rejected reason ref required => exact keepsLedger_of_quiet (reject_quiet ..) h
    | accepted ref required =>
      exact (keepsLedger_of_quiet (feedGate_quiet submission.intent) h).bind fun _ t h =>
        acceptOrder_keeps config submission key ref required h

theorem fillAccepted_keeps (config : SessionConfig) (submission : Submission)
    (outcome : SubmitOutcome) (h : LedgerKept opening s) :
    KeepsLedger opening (fillAccepted config submission outcome) s := by
  refine keepsLedger_lift_bind h fun instant _ => ?_
  refine keepsLedger_lift_bind h fun reference _ => ?_
  refine keepsLedger_lift_bind h fun side _ => ?_
  refine keepsLedger_lift_bind h fun price _ => ?_
  exact (applyFill_keeps config _ h).bind fun fill t h => keepsLedger_ret h _

theorem submitIntent_keeps (config : SessionConfig) (submission : Submission)
    (h : LedgerKept opening s) : KeepsLedger opening (submitIntent config submission) s := by
  refine keepsLedger_lift_bind h fun key _ => ?_
  refine KeepsLedger.bind (WithstandsWhere.retrying
    (fun t h => submitAttempt_keeps config submission key h) _ h) fun outcome t h => ?_
  split
  · exact fillAccepted_keeps config submission outcome h
  · exact keepsLedger_ret h _

end Programs

/-! ## Every run -/

/-- One operation on the account, from its start to its end or its death: an order is
    submitted, a fill applied, the session reset; or something writes neither the balances nor
    the ledger.  A retry is the operation again. -/
inductive LedgerStep (config : SessionConfig) (stops loses : RepoOp → Store → Prop) :
    Store → Store → Prop
  | submitted {s t : Store} (submission : Submission) {r : Option (Except PaperError SubmitOutcome)}
      (h_run : (submitIntent config submission).ExecutesWhere handle stops loses s r t) :
      LedgerStep config stops loses s t
  | filled {s t : Store} (call : FillCall) {r : Option (Except PaperError FillOutcome)}
      (h_run : (applyFill config call).ExecutesWhere handle stops loses s r t) :
      LedgerStep config stops loses s t
  | reset {s t : Store} (instant : Instant)
      {r : Option (Except PaperError (Except OperationRejected ResetOutcome))}
      (h_run : (resetSession config instant).ExecutesWhere handle stops loses s r t) :
      LedgerStep config stops loses s t
  | elsewhere {s t : Store} (h_figures : t.account.figures = s.account.figures)
      (h_events : t.balanceEvents = s.balanceEvents) : LedgerStep config stops loses s t

theorem LedgerKept.step {config : SessionConfig} (h : LedgerKept opening s)
    (h_step : LedgerStep config MayStop MayLose s s') : LedgerKept opening s' := by
  cases h_step with
  | submitted submission h_run => exact ((submitIntent_keeps config submission h).executes h_run).1
  | filled call h_run => exact ((applyFill_keeps config call h).executes h_run).1
  | reset instant h_run => exact ((resetSession_keeps config instant h).executes h_run).1
  | elsewhere h_figures h_events => exact h.congr h_figures h_events

/-- Over every run of submissions, fills and resets, whatever fails, loses its answer or dies,
    the figures of the account are the opening ones plus the recorded deltas, if nothing stops
    between the account update of a movement and its ledger row. -/
theorem ledger_reconstructs_account {config : SessionConfig} {s₀ s : Store}
    (h_stored : AccountStored s₀.account) (h_opening : s₀.balanceEvents = [])
    (h_run : Relation.ReflTransGen (LedgerStep config MayStop MayLose) s₀ s) :
    Reconstructs s₀.account.figures s := by
  have h_start : LedgerKept s₀.account.figures s₀ := by
    refine ⟨h_stored, ?_⟩
    unfold Reconstructs reconstructed
    rw [h_opening, List.map_nil, List.sum_nil, add_zero]
  have h_end : LedgerKept s₀.account.figures s := by
    induction h_run with
    | refl => exact h_start
    | tail _ h_step ih => exact ih.step h_step
  exact h_end.reconstructs

/-! ## A reset that is run again -/

/-- Buy one bitcoin at forty or below, under a key. -/
def restingBuy : Submission where
  intent := {
    symbol := "BTC/USDT", side := .recognised .buy, orderType := .recognised .limit, quantity := 1
    limitPrice := some 40, timeInForce := "gtc", idempotencyKey := some "key", signalId := none }

def stopSession (s : Store) : Store :=
  { s with session := { s.session with sessionState := .stopped } }

/-- A session of a hundred with the order resting, and stopped. -/
def restingStopped : Store :=
  stopSession ((submitIntent spotConfig restingBuy).run handle (.started 100)).2

theorem restingStopped_run {stops loses : RepoOp → Store → Prop} :
    Relation.ReflTransGen (LedgerStep spotConfig stops loses) (.started 100) restingStopped :=
  .tail (.tail .refl (.submitted restingBuy (.run _ _))) (.elsewhere rfl rfl)

/-- The reset dies between its first two reads, and is run again. -/
def resetTwice : Store := ((resetSession spotConfig 8).run handle restingStopped).2

theorem ledger_reconstructs_account_of_reset :
    resetTwice.balanceEvents.length = 2 ∧ Reconstructs (100, 0, 0) resetTwice := by
  have h_stored : AccountStored (Store.started 100).account := by
    have h_capital : IsNumeric 100 := ⟨by decide +kernel, by norm_num⟩
    exact ⟨h_capital, .zero, .zero, by norm_num [Store.started], le_rfl⟩
  have h_died : LedgerStep spotConfig MayStop MayLose restingStopped restingStopped :=
    .reset 7 (.answered (.died trivial))
  have h_run : Relation.ReflTransGen (LedgerStep spotConfig MayStop MayLose) (.started 100) resetTwice :=
    .tail (.tail restingStopped_run h_died) (.reset 8 (.run _ _))
  exact ⟨by decide +kernel, ledger_reconstructs_account h_stored rfl h_run⟩

/-- The reset dies after its eighth statement, the account update. -/
def resetDied : Store := afterOperations handle 8 (resetSession spotConfig 7) restingStopped

def resetRetried : Store := ((resetSession spotConfig 8).run handle resetDied).2

/-- The reset run again completes, and records that nothing moved: the ledger still holds
    the cash of the order locked. -/
theorem retried_reset_breaks_ledger :
    Relation.ReflTransGen (LedgerStep spotConfig (fun _ _ => True) fun _ _ => False) (.started 100)
        resetRetried ∧
      resetRetried.session.sessionState = .created ∧
      resetRetried.account.figures = (100, 0, 0) ∧
      resetRetried.balanceEvents.map BalanceEventRow.deltas
        = [(-(2003 / 50), 2003 / 50, 0), (0, 0, 0)] ∧
      ¬ Reconstructs (100, 0, 0) resetRetried := by
  have h_died : LedgerStep spotConfig (fun _ _ => True) (fun _ _ => False) restingStopped resetDied :=
    .reset 7 (executes_afterOperations (by decide +kernel))
  exact ⟨.tail (.tail restingStopped_run h_died) (.reset 8 (.run _ _)), by decide +kernel,
    by decide +kernel, by decide +kernel, by decide +kernel⟩

end VyomQuant.Paper
