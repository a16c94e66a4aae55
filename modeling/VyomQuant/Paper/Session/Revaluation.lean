/-
  VyomQuant.Paper.Session.Revaluation

  `_revalue` of `paper_session_service.py` among the fills of its account.

  The positions are read first and the account's version after them; each open position is
  then written whole, by an `upsert_position` that takes its guard version from a read of its
  own; only the account update at the end is guarded by the version that was read.  A fill
  between the first read and the second is overwritten.  `Current` says that there is none, and
  then the revaluation leaves every holding to the fills (`revaluation_keeps_fills`).
-/

import VyomQuant.Lib.RelyGuarantee
import VyomQuant.Paper.Accounting.Ledger
import VyomQuant.Paper.Simulator.StoredPositions

namespace VyomQuant.Paper

open Decimal Except Program
open Accounting (Instant PositionSide AccountingError Position Book Prices Valuation)

/-! ## `_revalue` -/

/-- The prices of a bar: its close, and the price recorded on each position of another symbol. -/
def barPrices (positions : Book) (event : MarketEvent) : Prices :=
  Function.update (Accounting.lastValidatedPrices positions) event.symbol event.close

/-- `stale`: an open position is on a symbol that the bar is not for. -/
def isStale (positions : Book) (event : MarketEvent) : Bool :=
  positions.items.any fun position => position.isOpen ∧ position.symbol ≠ event.symbol

/-- The arguments of `upsert_position` for an open position that was revalued. -/
def revaluedValues (event : MarketEvent) (position : Position) : PositionValues where
  symbol := position.symbol
  side := position.side
  size := position.size
  entryPrice := position.entryPrice
  openedAt := position.openedAt.getD event.eventTimestamp
  currentPrice := position.currentPrice
  unrealizedPnl := position.unrealizedPnl
  priceAt := some (position.priceAt.getD event.eventTimestamp)
  closedAt := position.closedAt

/-- Each open position is written in turn. -/
def upsertOpen (event : MarketEvent) : List Position → Repo Unit
  | [] => .ret ()
  | position :: rest =>
    if position.isOpen then
      (upsertPosition (revaluedValues event position)).bind fun _ => upsertOpen event rest
    else upsertOpen event rest

/-- What `_revalue` returns of the book: nothing when nothing was revalued. -/
structure Revalued where
  valuation : Option Valuation
  snapshot : Option SnapshotRow
  stale : Bool

/-- The writes of a valuation: the positions, the account, the equity point. -/
def writeValuation (event : MarketEvent) (seriesIndex : ℤ) (stale : Bool) (version : ℕ)
    (valuation : Valuation) : Repo Revalued := do
  upsertOpen event valuation.positions.items
  let _ ← issue (.bumpVersion version {
    totalEquity := some valuation.account.totalEquity
    lastPriceAt := some (some (valuation.priceAt.getD event.eventTimestamp))
    stale := some stale })
  let snapshot ← issue (.insertEquitySnapshot {
    seriesIndex
    totalEquity := valuation.account.totalEquity
    availableBalance := valuation.account.availableBalance
    lockedBalance := valuation.account.lockedBalance
    positionMarketValue := valuation.positionMarketValue
    stale, cause := .revaluation, takenAt := event.eventTimestamp })
  return { valuation := some valuation, snapshot := some snapshot, stale }

/-- `_revalue`, without the metrics and the frames it emits. -/
def revalue (config : SessionConfig) (event : MarketEvent) (seriesIndex : ℤ) : Repo Revalued := do
  let rows ← issue (.getPositions false)
  let positions ← lift (ofAccounting (positionsOf rows))
  if positions.items.any fun position => position.isOpen then do
    let account ← issue .lockAccountForUpdate
    let prices := barPrices positions event
    match Accounting.recalculate (accountOf account) positions prices config.accounting
        (some event.eventTimestamp) with
    | .error (.stalePrice _) => return { valuation := none, snapshot := none, stale := true }
    | .error e => .raise (.accounting e)
    | .ok valuation => do
      lift (ofAccounting (Accounting.assertInvariants valuation.account valuation.positions.items
        prices config.accounting))
      writeValuation event seriesIndex (isStale positions event) account.version valuation
  else
    return { valuation := none, snapshot := none, stale := false }

/-! ## Among the fills -/

/-- What a revaluation has read: the position rows, and the open row its `upsert_position` is
    about to update. -/
structure Reading where
  rows : List PositionRow
  target : Option PositionRow

/-- What the answer of a statement adds to it. -/
def Reading.after (reading : Reading) : (op : RepoOp) → Except PaperError (Res op) → Reading
  | .getPositions _, .ok rows => { reading with rows }
  | .readOpenPosition _, .ok found => { reading with target := found }
  | _, _ => reading

/-- A revaluation among the fills of its account: what it has still to do, what it has read, and
    the fills that were committed meanwhile. -/
structure Interleaving where
  store : Store
  revaluation : Repo Revalued
  reading : Reading
  committed : List FillCommit

/-- Before its first statement. -/
def Interleaving.begun (config : SessionConfig) (event : MarketEvent) (seriesIndex : ℤ)
    (s : Store) : Interleaving :=
  ⟨s, revalue config event seriesIndex, ⟨[], none⟩, []⟩

/-- A fill is committed, or the revaluation issues its next statement, which may fail or lose
    its answer. -/
inductive Interleaving.Step (P : Interleaving → RepoOp → Prop) : Interleaving → Interleaving → Prop
  | fill {c : Interleaving} {args : AtomicFill} {commit : FillCommit} {t : Store}
      (h : applyFillAtomic args c.store = .ok (commit, t)) :
      Step P c { c with store := t, committed := c.committed ++ [commit] }
  | revaluation {c : Interleaving} {op : RepoOp}
      {next : Except PaperError (Res op) → Repo Revalued} {answer : Except PaperError (Res op)}
      {t : Store} (h : c.revaluation = .call op next) (h_P : P c op)
      (h_responds : Responds handle (fun _ => True) op c.store answer t) :
      Step P c { c with
        store := t, revaluation := next answer, reading := c.reading.after op answer }

/-- When `upsert_position` reads the open row of its symbol, it finds a row as `_revalue` read
    it. -/
def Current (c : Interleaving) : RepoOp → Prop
  | .readOpenPosition symbol =>
    ∃ row ∈ c.reading.rows, findOpenPosition symbol c.store.positions = some row
  | _ => True

/-! ## Holdings -/

/-- What the fills decide of a position. -/
structure Holding where
  symbol : String
  side : PositionSide
  size : ℚ
  entryPrice : ℚ
  closedAt : Option Instant

def PositionRow.holding (row : PositionRow) : Holding where
  symbol := row.symbol
  side := row.side
  size := row.size
  entryPrice := row.entryPrice
  closedAt := row.closedAt

/-- The holdings of the table, in its order. -/
def Store.holdings (s : Store) : List Holding := s.positions.map PositionRow.holding

/-- A holding in the place of the open one of its symbol, or after the others. -/
def putOpen (new : Holding) : List Holding → List Holding
  | [] => [new]
  | holding :: rest =>
    if holding.symbol = new.symbol ∧ holding.closedAt = none then new :: rest
    else holding :: putOpen new rest

/-- What a fill makes of the holdings: the closed leg of a reversal, and the position. -/
def FillCommit.settle (commit : FillCommit) (holdings : List Holding) : List Holding :=
  putOpen commit.position.holding
    (holdings ++ commit.closedPosition.toList.map PositionRow.holding)

/-- The holdings are those that the fills alone produce. -/
def FollowsFills (start : Store) (c : Interleaving) : Prop :=
  c.store.holdings = c.committed.foldl (fun holdings commit => commit.settle holdings) start.holdings

/-- What the table's own constraints say: its keys, and figures as the columns hold them. -/
structure Tabled (s : Store) : Prop extends RowsKeyed s where
  numeric : ∀ row ∈ s.positions, IsNumeric row.size ∧ IsNumeric row.entryPrice

/-! ## A fill among the holdings -/

theorem putOpen_of_none {new : Holding} {holdings : List Holding}
    (h : ∀ holding ∈ holdings, ¬ (holding.symbol = new.symbol ∧ holding.closedAt = none)) :
    putOpen new holdings = holdings ++ [new] := by
  induction holdings with
  | nil => rfl
  | cons holding rest ih =>
    rw [List.forall_mem_cons] at h
    rw [putOpen, if_neg h.1, ih h.2, List.cons_append]

/-- Updating the open row of a symbol in place puts its holding in the place of the open one. -/
theorem map_holding_replace {rows : List PositionRow} {row old : PositionRow}
    (h_nodup : (rows.map PositionRow.id).Nodup) (h_id : row.id = old.id)
    (h_old : findOpenPosition row.symbol rows = some old) :
    (rows.map fun other => if other.id = row.id then row else other).map PositionRow.holding
      = putOpen row.holding (rows.map PositionRow.holding) := by
  induction rows with
  | nil => cases h_old
  | cons first rest ih =>
    rw [List.map_cons, List.nodup_cons] at h_nodup
    obtain ⟨h_first, h_rest⟩ := h_nodup
    unfold findOpenPosition at h_old
    by_cases h_open : first.isOpenFor row.symbol = true
    · rw [List.find?_cons_of_pos (p := fun other => PositionRow.isOpenFor other row.symbol) h_open]
        at h_old
      obtain rfl := Option.some.inj h_old
      have h_same : (rest.map fun other => if other.id = row.id then row else other) = rest := by
        conv_rhs => rw [← List.map_id rest]
        apply List.map_congr_left
        intro other h_other
        refine if_neg fun h_eq => h_first ?_
        rw [← h_id, ← h_eq]
        exact List.mem_map_of_mem h_other
      rw [List.map_cons, if_pos h_id.symm, h_same, List.map_cons, List.map_cons, putOpen, if_pos]
      exact of_decide_eq_true h_open
    · rw [List.find?_cons_of_neg (p := fun other => PositionRow.isOpenFor other row.symbol) h_open]
        at h_old
      have h_mem : old ∈ rest := List.mem_of_find?_eq_some h_old
      have h_ne : first.id ≠ row.id := by
        intro h_eq
        apply h_first
        rw [h_eq, h_id]
        exact List.mem_map_of_mem h_mem
      rw [List.map_cons, if_neg h_ne, List.map_cons, List.map_cons, putOpen, if_neg, ih h_rest h_old]
      exact fun h => h_open (decide_eq_true h)

theorem Committed.holdings {s t : Store} {args : AtomicFill} {commit : FillCommit}
    (h : Committed args s commit t) (h_keyed : RowsKeyed s) :
    t.holdings = commit.settle s.holdings := by
  obtain ⟨clock, _, _, h_written⟩ := h.position
  have h_nodup := h.ids_nodup_legs h_keyed
  have h_before : s.holdings ++ commit.closedPosition.toList.map PositionRow.holding
      = (s.positions ++ commit.closedPosition.toList).map PositionRow.holding :=
    List.map_append.symm
  unfold FillCommit.settle Store.holdings
  rw [show s.positions.map PositionRow.holding = s.holdings from rfl, h_before]
  cases h_written with
  | updated h_old h_row h_id _ h_after =>
    rw [← h_row.symbol] at h_old
    rw [h_after, map_holding_replace h_nodup h_id h_old]
  | inserted h_none h_row _ _ h_after =>
    rw [h_after, List.map_append, List.map_singleton, putOpen_of_none]
    intro holding h_mem h_open
    obtain ⟨row, h_row_mem, rfl⟩ := List.mem_map.mp h_mem
    have h_not := List.find?_eq_none.mp h_none row h_row_mem
    rw [← h_row.symbol] at h_not
    exact h_not (decide_eq_true h_open)

theorem applyFillAtomic_versions {s t : Store} {args : AtomicFill} {commit : FillCommit}
    (h : applyFillAtomic args s = .ok (commit, t)) {row : PositionRow} (h_row : row ∈ t.positions) :
    row ∈ s.positions ∨ s.clock ≤ row.id ∨
      ∃ old ∈ s.positions, row.id = old.id ∧ old.version < row.version := by
  simp only [applyFillAtomic, bind_eq_ok, pure_eq_ok, Prod.exists, Prod.mk.injEq] at h
  obtain ⟨_, _, _, _, _, _, fill, s₁, h_fill, account, s₂, h_account, event, s₃, h_event, closed, s₄,
    h_closed, position, s₅, h_position, order, s₆, h_order, trade, s₇, h_trade, snapshot, s₈,
    h_snapshot, _, rfl⟩ := h
  obtain ⟨_, _, _, clock₁, h_clock₁, h_s₁⟩ := writeFill_eq_ok h_fill
  obtain ⟨_, clock₂, h_clock₂, h_s₂⟩ := writeAccount_eq_ok h_account
  obtain ⟨_, h_s₃⟩ := writeBalanceEvent_eq_ok h_event
  obtain ⟨h_leg, _, clock₄, h_clock₄, h_s₄⟩ := writeClosedLeg_eq_ok h_closed
  have h_s₆ := (writeOrder_eq_ok h_order).2
  have h_s₇ := (writeTrade_eq_ok h_trade).2
  have h_s₈ := writeSnapshot_eq_ok h_snapshot
  have h_written : s₅.positions = s₈.positions := by rw [h_s₈, h_s₇, h_s₆, replaceOrder]
  have h_clock₃ : s.clock ≤ s₃.clock := by
    rw [h_s₁] at h_clock₂ h_s₂
    rw [h_s₃, h_s₂]
    exact h_clock₁.trans h_clock₂.le
  have h_before : ∀ old ∈ s₄.positions, old ∈ s.positions ∨ s.clock ≤ old.id := by
    intro old h_old
    rw [h_s₄] at h_old
    rcases List.mem_append.mp h_old with h_mem | h_new
    · rw [h_s₃, h_s₂, h_s₁] at h_mem
      exact Or.inl h_mem
    · obtain ⟨_, _, _, h_id⟩ := h_leg old (Option.mem_toList.mp h_new)
      exact Or.inr (h_id ▸ h_clock₃)
  have h_kept : ∀ old ∈ s₄.positions, old ∈ s.positions ∨ s.clock ≤ old.id ∨
      ∃ old' ∈ s.positions, old.id = old'.id ∧ old'.version < old.version := fun old h_old =>
    (h_before old h_old).imp_right Or.inl
  rw [← h_written] at h_row
  simp only [writePosition, bind_eq_ok] at h_position
  obtain ⟨_, _, _, _, _, _, _, _, _, _, h_position⟩ := h_position
  split at h_position
  · rename_i old h_old
    simp only [pure_eq_ok, Prod.mk.injEq] at h_position
    obtain ⟨rfl, rfl⟩ := h_position
    obtain ⟨other, h_other, h_eq⟩ := List.mem_map.mp h_row
    split at h_eq
    · rw [← h_eq]
      rcases h_before old (List.mem_of_find?_eq_some h_old) with h_mem | h_new
      · exact Or.inr (Or.inr ⟨old, h_mem, rfl, Nat.lt_succ_self _⟩)
      · exact Or.inr (Or.inl h_new)
    · rw [← h_eq]
      exact h_kept other h_other
  · simp only [pure_eq_ok, Prod.mk.injEq] at h_position
    obtain ⟨rfl, rfl⟩ := h_position
    rcases List.mem_append.mp h_row with h_old | h_new
    · exact h_kept row h_old
    · rw [List.mem_singleton.mp h_new]
      have h_clock : s₃.clock ≤ s₄.clock := by
        rw [h_s₄]
        exact (Nat.le_add_right _ _).trans h_clock₄
      exact Or.inr (Or.inl (h_clock₃.trans h_clock))

namespace Tabled

variable {s t : Store} {args : AtomicFill} {commit : FillCommit}

theorem congr (h : Tabled s) (h_positions : t.positions = s.positions) (h_clock : s.clock ≤ t.clock) :
    Tabled t where
  ids_nodup := by
    rw [h_positions]
    exact h.ids_nodup
  ids_drawn := by
    rw [h_positions]
    intro row h_row
    exact (h.ids_drawn row h_row).trans_le h_clock
  open_unique := by
    rw [h_positions]
    exact h.open_unique
  numeric := by
    rw [h_positions]
    exact h.numeric

theorem committed (h : Tabled s) (h_commit : Committed args s commit t) : Tabled t := by
  have h_written := h_commit.positionsWritten h.toRowsKeyed
  obtain ⟨_, _, _, h_position⟩ := h_commit.position
  have h_columns : PositionColumns args commit.position := by
    cases h_position with
    | updated _ h_row => exact h_row
    | inserted _ h_row => exact h_row
  have h_closed := h_commit.closedLeg_new
  constructor
  case toRowsKeyed =>
    refine ⟨h_written.ids_nodup, h_written.ids_drawn, ?_⟩
    -- An open row is the one written, or an old one of another symbol.
    have h_cases : ∀ r ∈ t.positions, r.closedAt = none → r = commit.position ∨
        (r ∈ s.positions ∧ r.symbol ≠ commit.position.symbol) := by
      intro r h_r h_open
      rcases (h_written.mem_iff r).mp h_r with h_eq | h_leg | ⟨h_mem, h_not⟩
      · exact Or.inl h_eq
      · exact absurd h_open (h_closed r h_leg).2
      · rw [h_columns.symbol]
        exact Or.inr ⟨h_mem, fun h_symbol => h_not ⟨h_symbol, h_open⟩⟩
    intro r h_r r' h_r' h_open h_open' h_symbol
    rcases h_cases r h_r h_open with rfl | ⟨h_mem, h_ne⟩
    · rcases h_cases r' h_r' h_open' with rfl | ⟨_, h_ne'⟩
      · rfl
      · exact absurd h_symbol.symm h_ne'
    · rcases h_cases r' h_r' h_open' with rfl | ⟨h_mem', _⟩
      · exact absurd h_symbol h_ne
      · exact h.open_unique r h_mem r' h_mem' h_open h_open' h_symbol
  case numeric =>
    intro r h_r
    rcases (h_written.mem_iff r).mp h_r with rfl | h_leg | ⟨h_mem, _⟩
    · exact ⟨numeric_isNumeric h_columns.size, numeric_isNumeric h_columns.entryPrice⟩
    · obtain ⟨leg, _, h_row, _⟩ := h_commit.closedLeg r h_leg
      rw [h_row.size]
      exact ⟨.zero, numeric_isNumeric h_row.entryPrice⟩
    · exact h.numeric r h_mem

end Tabled

/-! ## What a revaluation writes -/

theorem mem_positionsOf {rows : List PositionRow} {positions : Book}
    (h : positionsOf rows = .ok positions) {position : Position} (h_mem : position ∈ positions.items) :
    ∃ row ∈ rows, position.toPositionFields = row.fields := by
  have h_fold : ∀ {rest : List PositionRow} {resolved result : Book},
      rest.foldlM addPosition resolved = .ok result → ∀ p ∈ result.items,
        p ∈ resolved.items ∨ ∃ row ∈ rest, p.toPositionFields = row.fields := by
    intro rest
    induction rest with
    | nil =>
      intro resolved result h_result p h_p
      rw [List.foldlM_nil, pure_eq_ok] at h_result
      rw [h_result]
      exact Or.inl h_p
    | cons row rest ih =>
      intro resolved result h_result p h_p
      rw [List.foldlM_cons, bind_eq_ok] at h_result
      obtain ⟨next, h_next, h_result⟩ := h_result
      rcases ih h_result p h_p with h_old | ⟨row', h_row', h_fields⟩
      · simp only [addPosition, bind_eq_ok] at h_next
        obtain ⟨made, h_made, h_next⟩ := h_next
        have h_put : p ∈ (resolved.put made).items →
            p ∈ resolved.items ∨ ∃ row' ∈ row :: rest, p.toPositionFields = row'.fields := by
          intro h_in
          rcases KeyedList.mem_put h_in with rfl | h_in
          · exact Or.inr ⟨row, List.mem_cons_self, Position.make_eq_ok h_made⟩
          · exact Or.inl h_in.1
        split at h_next
        · rw [pure_eq_ok] at h_next
          exact h_put (h_next ▸ h_old)
        · split at h_next
          · rw [pure_eq_ok] at h_next
            exact h_put (h_next ▸ h_old)
          · rw [pure_eq_ok] at h_next
            exact Or.inl (h_next ▸ h_old)
      · exact Or.inr ⟨row', List.mem_cons_of_mem _ h_row', h_fields⟩
  rcases h_fold h position h_mem with h_none | h_row
  · cases h_none
  · exact h_row

/-- What is written over a row restates it: only its price, the price's time and the unrealized
    profit are new. -/
structure Restates (row : PositionRow) (values : PositionValues) : Prop where
  symbol : values.symbol = row.symbol
  side : values.side = row.side
  size : values.size = row.size
  entryPrice : values.entryPrice = row.entryPrice
  closedAt : values.closedAt = row.closedAt

theorem recalculate_restates {account : Accounting.Account} {rows : List PositionRow}
    {positions : Book} {prices : Prices} {config : Accounting.AccountingConfig}
    {event : MarketEvent} {priceAt : Option Instant} {valuation : Valuation}
    (h_positions : positionsOf rows = .ok positions)
    (h : Accounting.recalculate account positions prices config priceAt = .ok valuation)
    {position : Position} (h_mem : position ∈ valuation.positions.items) :
    ∃ row ∈ rows, Restates row (revaluedValues event position) := by
  simp only [Accounting.recalculate, bind_eq_ok, pure_eq_ok] at h
  obtain ⟨final, h_loop, rfl⟩ := h
  obtain ⟨restated, h_restated, h_items, _⟩ := Accounting.Ledger.foldlM_revaluePosition_eq_ok h_loop
    positions.nodup (by simp [KeyedList.empty])
  rw [KeyedList.empty, List.nil_append] at h_items
  have h_mem' : position ∈ restated := by
    rw [← h_items]
    exact h_mem
  obtain ⟨old, h_old, h_same⟩ := exists_of_mem_forall₂ h_restated.flip h_mem'
  obtain ⟨row, h_row, h_fields⟩ := mem_positionsOf h_positions h_old
  refine ⟨row, h_row, ?_⟩
  constructor
  · exact h_same.symbol.trans (by rw [h_fields]; rfl)
  · exact h_same.side.trans (by rw [h_fields]; rfl)
  · exact h_same.size.trans (by rw [h_fields]; rfl)
  · exact h_same.entryPrice.trans (by rw [h_fields]; rfl)
  · exact h_same.closedAt.trans (by rw [h_fields]; rfl)

/-! ## The statements of a revaluation -/

/-- Beside reads and the account's figures, a position is updated over the row that was read
    for it. -/
def Allowed (reading : Reading) : RepoOp → Prop
  | .updatePosition rowId version values => ∃ row, reading.target = some row ∧ rowId = row.id ∧
      version = row.version ∧ Restates row values
  | .bumpVersion _ _ => True
  | .insertEquitySnapshot _ => True
  | op => op.isRead = true

/-- What is relied on of an answer: open rows are read one for a symbol, and the open row of a
    symbol is among those read before. -/
def Relied (reading : Reading) : (op : RepoOp) → Except PaperError (Res op) → Prop
  | .getPositions false, .ok rows => ∀ row ∈ rows, ∀ row' ∈ rows, row.symbol = row'.symbol → row = row'
  | .readOpenPosition symbol, .ok found => ∃ row ∈ reading.rows, found = some row ∧ row.symbol = symbol
  | _, _ => True

/-- The rows that were read are one for a symbol. -/
def Reading.Distinct (reading : Reading) : Prop :=
  ∀ row ∈ reading.rows, ∀ row' ∈ reading.rows, row.symbol = row'.symbol → row = row'

/-- The program issues allowed statements only, as long as its answers can be relied on. -/
def Restating : Repo Revalued → Reading → Prop
  | .ret _, _ => True
  | .raise _, _ => True
  | .call op next, reading => Allowed reading op ∧
      ∀ answer, Relied reading op answer → Restating (next answer) (reading.after op answer)

namespace Restating

variable {α : Type} {reading : Reading}

theorem perform_bind {op : RepoOp} {f : Res op → Repo Revalued} (h_op : Allowed reading op)
    (h : ∀ answer, Relied reading op (.ok answer) →
      Restating (f answer) (reading.after op (.ok answer))) :
    Restating ((perform op).bind f) reading := by
  refine ⟨h_op, fun answer h_answer => ?_⟩
  cases answer with
  | ok answer => exact h answer h_answer
  | error e => exact trivial

theorem lift_bind {x : Except PaperError α} {f : α → Repo Revalued}
    (h : ∀ a, x = .ok a → Restating (f a) reading) :
    Restating ((Program.lift x).bind f) reading := by
  cases x with
  | ok a => exact h a rfl
  | error e => exact trivial

theorem upsertOpen {event : MarketEvent} {positions : List Position} {f : Unit → Repo Revalued}
    (h_distinct : reading.Distinct)
    (h_positions : ∀ p ∈ positions, ∃ row ∈ reading.rows, Restates row (revaluedValues event p))
    (h : ∀ target, Restating (f ()) { reading with target }) :
    Restating ((Paper.upsertOpen event positions).bind f) reading := by
  induction positions generalizing reading with
  | nil => exact h reading.target
  | cons p rest ih =>
    rw [List.forall_mem_cons] at h_positions
    obtain ⟨⟨row, h_row, h_restates⟩, h_rest⟩ := h_positions
    unfold Paper.upsertOpen
    split
    · rw [Program.bind_assoc]
      unfold upsertPosition
      rw [bind_eq_bind, Program.bind_assoc]
      refine perform_bind rfl fun found h_found => ?_
      obtain ⟨row', h_row', rfl, h_symbol⟩ := h_found
      -- The row found is the one that the position was made from.
      obtain rfl : row = row' :=
        h_distinct row h_row row' h_row' (h_restates.symbol.symm.trans h_symbol.symm)
      refine perform_bind ⟨row, rfl, rfl, rfl, h_restates⟩ fun _ _ => ?_
      exact ih h_distinct h_rest h
    · exact ih h_distinct h_rest h

end Restating

theorem revalue_restating (config : SessionConfig) (event : MarketEvent) (seriesIndex : ℤ)
    (reading : Reading) : Restating (revalue config event seriesIndex) reading := by
  refine Restating.perform_bind rfl fun rows h_rows => ?_
  refine Restating.lift_bind fun positions h_positions => ?_
  split
  · refine Restating.perform_bind rfl fun account _ => ?_
    dsimp only
    split
    · trivial
    · trivial
    · rename_i valuation h_valuation
      refine Restating.lift_bind fun _ _ => ?_
      refine Restating.upsertOpen h_rows (fun p h_p => ?_) fun target => ?_
      · exact recalculate_restates (ofAccounting_eq_ok.mp h_positions) h_valuation h_p
      · refine Restating.perform_bind trivial fun _ _ => ?_
        exact Restating.perform_bind trivial fun _ _ => trivial
  · trivial

/-! ## What a statement leaves -/

/-- The row that was read is still the one of its identity, or that one's version has moved. -/
structure Held (s : Store) (row : PositionRow) : Prop where
  drawn : row.id < s.clock
  numeric : IsNumeric row.size ∧ IsNumeric row.entryPrice
  same : ∀ old ∈ s.positions, old.id = row.id → old = row ∨ row.version < old.version

section Statements

variable {s t : Store} {row : PositionRow} {reading : Reading}

theorem Tabled.held (h : Tabled s) (h_mem : row ∈ s.positions) : Held s row where
  drawn := h.ids_drawn row h_mem
  numeric := h.numeric row h_mem
  same := fun _ h_old h_id => Or.inl (List.inj_on_of_nodup_map h.ids_nodup h_old h_mem h_id)

theorem Held.later (h : Held s row) (h_clock : s.clock ≤ t.clock)
    (h_rows : ∀ new ∈ t.positions, new ∈ s.positions ∨ s.clock ≤ new.id ∨
      ∃ old ∈ s.positions, new.id = old.id ∧ old.version < new.version) : Held t row where
  drawn := h.drawn.trans_le h_clock
  numeric := h.numeric
  same := by
    intro new h_new h_id
    rcases h_rows new h_new with h_old | h_fresh | ⟨old, h_old, h_same, h_lt⟩
    · exact h.same new h_old h_id
    · have h_drawn := h.drawn
      omega
    · rcases h.same old h_old (h_same.symm.trans h_id) with rfl | h_moved
      · exact Or.inr h_lt
      · exact Or.inr (h_moved.trans h_lt)

theorem Tabled.rewritten (h : Tabled s) {g : PositionRow → PositionRow}
    (h_positions : t.positions = s.positions.map g) (h_clock : s.clock ≤ t.clock)
    (h_g : ∀ old ∈ s.positions, (g old).id = old.id ∧ (g old).holding = old.holding) :
    Tabled t ∧ t.holdings = s.holdings := by
  have h_ids : t.positions.map PositionRow.id = s.positions.map PositionRow.id := by
    rw [h_positions, List.map_map]
    exact List.map_congr_left fun old h_old => (h_g old h_old).1
  have h_holdings : t.holdings = s.holdings := by
    unfold Store.holdings
    rw [h_positions, List.map_map]
    exact List.map_congr_left fun old h_old => (h_g old h_old).2
  refine ⟨⟨⟨h_ids ▸ h.ids_nodup, ?_, ?_⟩, ?_⟩, h_holdings⟩
  · rw [h_positions, List.forall_mem_map]
    intro old h_old
    rw [(h_g old h_old).1]
    exact (h.ids_drawn old h_old).trans_le h_clock
  · rw [h_positions, List.forall_mem_map]
    intro old h_old
    rw [List.forall_mem_map]
    intro old' h_old' h_open h_open' h_symbol
    obtain ⟨h_symbol_eq, -, -, -, h_closed_eq⟩ := Holding.mk.inj (h_g old h_old).2
    obtain ⟨h_symbol_eq', -, -, -, h_closed_eq'⟩ := Holding.mk.inj (h_g old' h_old').2
    rw [h_closed_eq] at h_open
    rw [h_closed_eq'] at h_open'
    rw [h_symbol_eq, h_symbol_eq'] at h_symbol
    rw [h.open_unique old h_old old' h_old' h_open h_open' h_symbol]
  · rw [h_positions, List.forall_mem_map]
    intro old h_old
    obtain ⟨-, -, h_size, h_entry, -⟩ := Holding.mk.inj (h_g old h_old).2
    rw [h_size, h_entry]
    exact h.numeric old h_old

/-- What a statement of a revaluation leaves: the constraints of the table and its holdings. -/
structure Left (s t : Store) : Prop where
  tabled : Tabled t
  holdings : t.holdings = s.holdings
  clock : s.clock ≤ t.clock
  rows : ∀ new ∈ t.positions, new ∈ s.positions ∨ s.clock ≤ new.id ∨
    ∃ old ∈ s.positions, new.id = old.id ∧ old.version < new.version

theorem Left.of_positions (h : Tabled s) (h_positions : t.positions = s.positions)
    (h_clock : s.clock ≤ t.clock) : Left s t where
  tabled := h.congr h_positions h_clock
  holdings := by
    unfold Store.holdings
    rw [h_positions]
  clock := h_clock
  rows := by
    rw [h_positions]
    exact fun new h_new => Or.inl h_new

/-- Updating the row that was read restates it, unless its version has moved: then nothing is
    updated. -/
theorem updatePosition_left {values : PositionValues} (h : Tabled s) (h_held : Held s row)
    (h_restates : Restates row values) :
    Left s (handle (.updatePosition row.id row.version values) s).2 := by
  rcases handle_cases (.updatePosition row.id row.version values) s with
    ⟨new, t, h_ran, h_handle⟩ | ⟨e, _, h_handle⟩
  · rw [h_handle]
    simp only [statement, updatePositionRow, bind_eq_ok, pure_eq_ok, refuseIf_eq_ok, ofOption_eq_ok,
      Prod.mk.injEq] at h_ran
    obtain ⟨size, h_size, entryPrice, h_entry, currentPrice, _, unrealizedPnl, _, _, _, old, h_find,
      h_new, h_t⟩ := h_ran
    have h_mem : old ∈ s.positions := List.mem_of_find?_eq_some h_find
    have h_key : old.id = row.id ∧ old.version = row.version := by simpa using List.find?_some h_find
    obtain rfl : old = row := by
      rcases h_held.same old h_mem h_key.1 with h_eq | h_lt
      · exact h_eq
      · omega
    -- The columns hold what was read of them.
    obtain rfl : old.size = size := by
      rw [h_restates.size, numeric_of_isNumeric h_held.numeric.1] at h_size
      exact ok.inj h_size
    obtain rfl : old.entryPrice = entryPrice := by
      rw [h_restates.entryPrice, numeric_of_isNumeric h_held.numeric.2] at h_entry
      exact ok.inj h_entry
    rw [h_new] at h_t
    have h_id : new.id = old.id := by rw [← h_new]
    have h_version : old.version < new.version := by
      rw [← h_new]
      exact Nat.lt_succ_self _
    have h_holding : new.holding = old.holding := by
      rw [← h_new]
      unfold PositionRow.holding
      rw [h_restates.side, h_restates.closedAt]
    have h_positions : t.positions = s.positions.map fun other =>
        if other.id = new.id then new else other := by
      rw [← h_t]
      rfl
    have h_clock : s.clock ≤ t.clock := by
      rw [← h_t]
      exact le_rfl
    obtain ⟨h_tabled, h_holdings⟩ := h.rewritten h_positions h_clock fun other h_other => by
      split
      · rename_i h_same
        have h_other_eq : other = old :=
          List.inj_on_of_nodup_map h.ids_nodup h_other h_mem (h_same.trans h_id)
        rw [h_other_eq]
        exact ⟨h_id, h_holding⟩
      · exact ⟨rfl, rfl⟩
    refine ⟨h_tabled, h_holdings, h_clock, ?_⟩
    rw [h_positions, List.forall_mem_map]
    intro other h_other
    split
    · exact Or.inr (Or.inr ⟨old, h_mem, h_id, h_version⟩)
    · exact Or.inl h_other
  · rw [h_handle]
    exact .of_positions h rfl le_rfl

theorem allowed_left {op : RepoOp} (h : Tabled s)
    (h_held : ∀ target, reading.target = some target → Held s target) (h_op : Allowed reading op) :
    Left s (handle op s).2 := by
  have h_read : op.isRead = true → Left s (handle op s).2 := fun h_isRead => by
    rw [handle_of_isRead h_isRead]
    exact .of_positions h rfl le_rfl
  cases op with
  | updatePosition rowId version values =>
    obtain ⟨target, h_target, rfl, rfl, h_restates⟩ := h_op
    exact updatePosition_left h (h_held target h_target) h_restates
  | bumpVersion version payload =>
    rcases handle_cases (.bumpVersion version payload) s with ⟨_, t, h_ran, h_handle⟩ | ⟨e, _, h_handle⟩
    · rw [h_handle]
      simp only [statement, bumpVersionRow, bind_eq_ok, pure_eq_ok, Prod.mk.injEq] at h_ran
      obtain ⟨_, _, _, _, _, _, _, _, _, _, _, _, _, rfl⟩ := h_ran
      exact .of_positions h rfl (Nat.le_succ _)
    · rw [h_handle]
      exact .of_positions h rfl le_rfl
  | insertEquitySnapshot snapshot =>
    rcases handle_cases (.insertEquitySnapshot snapshot) s with
      ⟨_, t, h_ran, h_handle⟩ | ⟨e, _, h_handle⟩
    · rw [h_handle, writeSnapshot_eq_ok h_ran]
      exact .of_positions h rfl le_rfl
    · rw [h_handle]
      exact .of_positions h rfl le_rfl
  | _ => exact h_read h_op

end Statements

/-! ## Every interleaving -/

/-- What holds at every step of an interleaving that is `Current`. -/
structure Kept (start : Store) (c : Interleaving) : Prop where
  tabled : Tabled c.store
  held : ∀ target, c.reading.target = some target → Held c.store target
  restating : Restating c.revaluation c.reading
  follows : FollowsFills start c

variable {start : Store} {c c' : Interleaving}

theorem Kept.fill {args : AtomicFill} {commit : FillCommit} {t : Store} (h : Kept start c)
    (h_ran : applyFillAtomic args c.store = .ok (commit, t)) :
    Kept start { c with store := t, committed := c.committed ++ [commit] } := by
  have h_commit := applyFillAtomic_eq_ok h_ran
  refine ⟨h.tabled.committed h_commit, fun target h_target => ?_, h.restating, ?_⟩
  · exact (h.held target h_target).later h_commit.clock.le fun _ h_new =>
      applyFillAtomic_versions h_ran h_new
  · show t.holdings = (c.committed ++ [commit]).foldl _ start.holdings
    rw [List.foldl_append, ← h.follows]
    exact h_commit.holdings h.tabled.toRowsKeyed

/-- What an answer can be relied on for, and what it makes of the row that is held. -/
theorem Kept.answered {op : RepoOp} {answer : Except PaperError (Res op)} {t : Store}
    (h : Kept start c) (h_current : Current c op) (h_left : Left c.store t)
    (h_answer : answer = (handle op c.store).1 ∨ ∃ e, answer = .error e) :
    Relied c.reading op answer ∧
      ∀ target, (c.reading.after op answer).target = some target → Held t target := by
  have h_later : ∀ target, c.reading.target = some target → Held t target := fun target h_target =>
    (h.held target h_target).later h_left.clock h_left.rows
  rcases h_answer with rfl | ⟨e, rfl⟩
  · cases op with
    | getPositions includeClosed =>
      refine ⟨?_, h_later⟩
      cases includeClosed with
      | true => trivial
      | false =>
        intro row h_row row' h_row' h_symbol
        have h_open : ∀ r ∈ (c.store.positions.filter fun row => false ∨ row.closedAt = none).insertionSort
            (fun a b => b.openedAt ≤ a.openedAt), r ∈ c.store.positions ∧ r.closedAt = none := by
          intro r h_r
          have h_mem := List.mem_filter.mp ((List.perm_insertionSort _ _).mem_iff.mp h_r)
          exact ⟨h_mem.1, by simpa using h_mem.2⟩
        obtain ⟨h_mem, h_none⟩ := h_open row h_row
        obtain ⟨h_mem', h_none'⟩ := h_open row' h_row'
        exact h.tabled.open_unique row h_mem row' h_mem' h_none h_none' h_symbol
    | readOpenPosition symbol =>
      obtain ⟨row, h_row, h_found⟩ := h_current
      have h_mem := h.tabled.toRowsKeyed.findOpenPosition_eq_some.mp h_found
      refine ⟨⟨row, h_row, h_found, h_mem.2.1⟩, fun target h_target => ?_⟩
      obtain rfl : row = target := Option.some.inj (h_found.symm.trans h_target)
      exact (h.tabled.held h_mem.1).later h_left.clock h_left.rows
    | _ => exact ⟨trivial, h_later⟩
  · cases op with
    | getPositions includeClosed => cases includeClosed <;> exact ⟨trivial, h_later⟩
    | _ => exact ⟨trivial, h_later⟩

theorem Kept.step (h : Kept start c) (h_step : Interleaving.Step Current c c') : Kept start c' := by
  cases h_step with
  | fill h_ran => exact h.fill h_ran
  | @revaluation op next answer t h_call h_current h_responds =>
    have h_program := h.restating
    rw [h_call] at h_program
    have h_effect := allowed_left h.tabled h.held h_program.1
    have h_left : Left c.store t := by
      rcases h_responds.store with rfl | rfl
      · exact h_effect
      · exact .of_positions h.tabled rfl le_rfl
    have h_answer : answer = (handle op c.store).1 ∨ ∃ e, answer = .error e := by
      cases h_responds with
      | answered => exact Or.inl rfl
      | lost => exact Or.inr ⟨_, rfl⟩
      | failed => exact Or.inr ⟨_, rfl⟩
    obtain ⟨h_relied, h_held⟩ := h.answered h_current h_left h_answer
    refine ⟨h_left.tabled, h_held, h_program.2 answer h_relied, ?_⟩
    show t.holdings = c.committed.foldl _ start.holdings
    rw [h_left.holdings]
    exact h.follows

/-- However a revaluation and the fills of its account interleave: as long as each upsert meets
    its symbol's row as the revaluation first read it, the sides, sizes and entry prices are
    those that the fills alone produce, and no closed position is opened again. -/
theorem revaluation_keeps_fills {config : SessionConfig} {event : MarketEvent} {seriesIndex : ℤ}
    (h_start : Tabled start)
    (h_run : Relation.ReflTransGen (Interleaving.Step Current)
      (.begun config event seriesIndex start) c) : FollowsFills start c := by
  have h_begun : Kept start (.begun config event seriesIndex start) :=
    ⟨h_start, fun target h_none => (Option.some_ne_none target h_none.symm).elim,
      revalue_restating config event seriesIndex _, rfl⟩
  have h_kept : Kept start c := by
    induction h_run with
    | refl => exact h_begun
    | tail _ h_step ih => exact ih.step h_step
  exact h_kept.follows

/-! ## A fill between the reads -/

instance (c : Interleaving) (op : RepoOp) : Decidable (Current c op) :=
  match op with
  | .readOpenPosition symbol => inferInstanceAs (Decidable
      (∃ row ∈ c.reading.rows, findOpenPosition symbol c.store.positions = some row))
  | .lockAccountForUpdate | .readOrder _ | .readSession | .getFills _ | .getBalanceEvents _
  | .getPositions _ | .getOrders _ | .getEquitySnapshots | .probeIdempotencyKey _ | .insertOrder _
  | .updateOrder .. | .bumpVersion .. | .insertBalanceEvent _ | .insertEquitySnapshot _
  | .updatePosition .. | .insertPosition _ | .applyFillAtomic _ | .transitionSession .. =>
    inferInstanceAs (Decidable True)

namespace Interleaving

/-- The revaluation issues its next statement. -/
def issue (c : Interleaving) : Interleaving :=
  match c.revaluation with
  | .call op next => { c with
      store := (handle op c.store).2, revaluation := next (handle op c.store).1
      reading := c.reading.after op (handle op c.store).1 }
  | _ => c

/-- Whether its next statement is `Current`. -/
def isCurrent (c : Interleaving) : Bool :=
  match c.revaluation with
  | .call op _ => Current c op
  | _ => true

/-- The revaluation issues `n` statements. -/
def advance : ℕ → Interleaving → Interleaving
  | 0, c => c
  | n + 1, c => advance n c.issue

/-- They are all `Current`. -/
def allCurrent : ℕ → Interleaving → Bool
  | 0, _ => true
  | n + 1, c => c.isCurrent && allCurrent n c.issue

theorem advance_reaches {P : Interleaving → RepoOp → Prop} (n : ℕ) (c : Interleaving)
    (h : ∀ c op, P c op) : Relation.ReflTransGen (Step P) c (advance n c) := by
  induction n generalizing c with
  | zero => exact .refl
  | succ n ih =>
    refine .trans ?_ (ih c.issue)
    unfold issue
    split
    · rename_i op next h_call
      exact .single (.revaluation h_call (h c op) .answered)
    · exact .refl

theorem advance_current {n : ℕ} {c : Interleaving} (h : allCurrent n c = true) :
    Relation.ReflTransGen (Step Current) c (advance n c) := by
  induction n generalizing c with
  | zero => exact .refl
  | succ n ih =>
    obtain ⟨h_current, h_rest⟩ := Bool.and_eq_true_iff.mp h
    refine .trans ?_ (ih h_rest)
    unfold issue
    unfold isCurrent at h_current
    split
    · rename_i op next h_call
      rw [h_call] at h_current
      exact .single (.revaluation h_call (of_decide_eq_true h_current) .answered)
    · exact .refl

end Interleaving

/-- Ten held at 90.00, and an accepted order to sell four of them. -/
def heldTen : Store :=
  { Store.started 1000 with
    orders := [acceptedMarketOrder 0 .sell 4]
    positions := [{
      id := 1, symbol := "BTC/USDT", side := .long, size := 10, entryPrice := 90
      currentPrice := some 90, unrealizedPnl := some 0, priceAt := some 0, openedAt := 0
      closedAt := none, version := 1 }]
    clock := 2 }

def hundredBar : MarketEvent where
  sourceEventId := "bar"
  symbol := "BTC/USDT"
  eventTimestamp := 1
  high := none
  low := none
  close := some 100
  volume := none
  ask := none
  bid := none
  last := none

/-- `apply_fill` sells the four. -/
def soldFour (s : Store) : Except PaperError FillOutcome × Store :=
  (applyFill spotConfig (wholeFill 0 4 100 1)).run handle s

/-- What the fill writes of the positions, if it is applied. -/
def soldCommit : Except PaperError FillOutcome → Option FillCommit
  | .ok (.applied fill) => some fill.commit
  | _ => none

/-- The four are sold. -/
def Interleaving.sell (c : Interleaving) (commit : FillCommit) : Interleaving :=
  { c with store := (soldFour c.store).2, committed := c.committed ++ [commit] }

theorem step_of_soldFour {P : Interleaving → RepoOp → Prop} {c : Interleaving} {commit : FillCommit}
    (h : soldCommit (soldFour c.store).1 = some commit) : Interleaving.Step P c (c.sell commit) := by
  unfold Interleaving.sell
  rcases h_run : soldFour c.store with ⟨result, t⟩
  rw [h_run] at h
  cases result with
  | error e => cases h
  | ok outcome =>
    cases outcome with
    | terminal order => cases h
    | duplicate order => cases h
    | applied fill =>
      obtain ⟨_, _, _, ⟨run⟩⟩ := applyFill_applied h_run
      cases h
      exact .fill run.committed

/-- The sizes the fills alone produce. -/
def Interleaving.settledSizes (c : Interleaving) : List ℚ :=
  (c.committed.foldl (fun holdings commit => commit.settle holdings) heldTen.holdings).map Holding.size

/-- The revaluation issues `n` statements, the four are sold, and it issues `m` more: whether it
    has ended, whether the latter are `Current`, the sizes in the table, and those the fills alone
    produce. -/
def sellAfter (n m : ℕ) : Option (Bool × Bool × List ℚ × List ℚ) :=
  let c := Interleaving.advance n (.begun spotConfig hundredBar 0 heldTen)
  (soldCommit (soldFour c.store).1).map fun commit =>
    let c' := Interleaving.advance m (c.sell commit)
    (c'.revaluation.Ended, Interleaving.allCurrent m (c.sell commit),
      c'.store.holdings.map Holding.size, c'.settledSizes)

theorem heldTen_tabled : Tabled heldTen where
  ids_nodup := by decide
  ids_drawn := by decide
  open_unique := by
    intro row h_row row' h_row' _ _ _
    rw [List.mem_singleton.mp h_row, List.mem_singleton.mp h_row']
  numeric := by
    intro row h_row
    rw [List.mem_singleton.mp h_row]
    have h_ten : numeric 10 = .ok 10 := by decide +kernel
    have h_ninety : numeric 90 = .ok 90 := by decide +kernel
    exact ⟨numeric_isNumeric h_ten, numeric_isNumeric h_ninety⟩

/-- Four are sold after the positions and the account were read: the revaluation writes the ten
    back, and ends. -/
theorem fill_overwritten :
    Tabled heldTen ∧ ∃ c, Relation.ReflTransGen (Interleaving.Step fun _ _ => True)
      (.begun spotConfig hundredBar 0 heldTen) c ∧ c.revaluation.Ended ∧ ¬ FollowsFills heldTen c := by
  refine ⟨heldTen_tabled, ?_⟩
  have h_after : sellAfter 2 5 = some (true, false, [10], [6]) := by decide +kernel
  obtain ⟨commit, h_commit, h_result⟩ := Option.map_eq_some_iff.mp h_after
  simp only [Prod.mk.injEq] at h_result
  obtain ⟨h_ended, -, h_sizes, h_settled⟩ := h_result
  have h_reads := Interleaving.advance_reaches (P := fun _ _ => True) 2
    (.begun spotConfig hundredBar 0 heldTen) fun _ _ => trivial
  refine ⟨_, (h_reads.tail (step_of_soldFour h_commit)).trans
    (Interleaving.advance_reaches 5 _ fun _ _ => trivial), of_decide_eq_true h_ended, fun h_follows => ?_⟩
  have h_same : ([10] : List ℚ) = [6] :=
    h_sizes.symm.trans ((congrArg (List.map Holding.size) h_follows).trans h_settled)
  norm_num at h_same

/-- Four are sold after `upsert_position` has read its row: the update finds the version moved. -/
theorem revaluation_keeps_fills_sample :
    ∃ c, Relation.ReflTransGen (Interleaving.Step Current)
      (.begun spotConfig hundredBar 0 heldTen) c ∧ c.revaluation.Ended ∧
      c.store.holdings.map Holding.size = [6] ∧ FollowsFills heldTen c := by
  have h_after : sellAfter 3 5 = some (true, true, [6], [6]) := by decide +kernel
  obtain ⟨commit, h_commit, h_result⟩ := Option.map_eq_some_iff.mp h_after
  simp only [Prod.mk.injEq] at h_result
  obtain ⟨h_ended, h_current, h_sizes, -⟩ := h_result
  have h_reads : Relation.ReflTransGen (Interleaving.Step Current)
      (.begun spotConfig hundredBar 0 heldTen)
      (Interleaving.advance 3 (.begun spotConfig hundredBar 0 heldTen)) :=
    Interleaving.advance_current (by decide +kernel)
  have h_run := (h_reads.tail (step_of_soldFour h_commit)).trans
    (Interleaving.advance_current h_current)
  exact ⟨_, h_run, of_decide_eq_true h_ended, h_sizes, revaluation_keeps_fills heldTen_tabled h_run⟩

end VyomQuant.Paper
