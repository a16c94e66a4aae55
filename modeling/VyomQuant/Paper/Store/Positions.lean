/-
  VyomQuant.Paper.Store.Positions

  The position table and the positions the simulator reads from it.

  `PositionsSound` is the table's own invariant: a row is open exactly when it holds
  quantity, and a symbol has at most one open row (`uq_paper_position_open`).  On a
  sound table `positions_of` returns, and the open position of a symbol is its open
  row (`PositionsSound.openFields_positionsOf`), whatever history the symbol has and in whatever
  order the rows are read.
-/

import VyomQuant.Paper.Store.Repository

namespace VyomQuant.Paper

open Decimal Except
open Accounting (Instant PositionSide AccountingError Position PositionFields Book openPosition)

/-! ## Rows as positions -/

/-- The fields `position_of` builds a position from. -/
def PositionRow.fields (row : PositionRow) : PositionFields where
  symbol := row.symbol
  side := row.side
  size := row.size
  entryPrice := row.entryPrice
  currentPrice := row.currentPrice
  unrealizedPnl := row.unrealizedPnl
  priceAt := row.priceAt
  openedAt := some row.openedAt
  closedAt := row.closedAt

/-- `get_positions` with closed positions included. -/
def Store.positionRows (s : Store) : List PositionRow :=
  s.positions.insertionSort fun a b => b.openedAt ≤ a.openedAt

/-- What a symbol's open position is made of, if it has one. -/
def openFields (positions : Book) (symbol : String) : Option PositionFields :=
  (openPosition positions symbol).map Position.toPositionFields

theorem openFields_empty (symbol : String) : openFields KeyedList.empty symbol = none := rfl

theorem openFields_put (positions : Book) (position : Position) (symbol : String) :
    openFields (positions.put position) symbol
      = if symbol = position.symbol then
          if position.isOpen then some position.toPositionFields else none
        else openFields positions symbol := by
  unfold openFields openPosition
  rw [KeyedList.get?_put]
  by_cases h : symbol = position.symbol
  · rw [if_pos (show symbol = position.key from h), if_pos h]
    by_cases h_open : position.isOpen
    · simp [h_open]
    · simp [h_open]
  · rw [if_neg (show ¬ symbol = position.key from h), if_neg h]

/-- One row of `positions_of`: it is taken when its symbol has nothing open yet. -/
theorem openFields_addPosition {resolved next : Book} {row : PositionRow}
    (h : addPosition resolved row = .ok next) (symbol : String) :
    openFields next symbol = (openFields resolved symbol).or
      (if row.symbol = symbol ∧ 0 < row.size then some row.fields else none) := by
  simp only [addPosition, bind_eq_ok] at h
  obtain ⟨position, h_position, h⟩ := h
  have h_fields : position.toPositionFields = row.fields := Position.make_eq_ok h_position
  have h_symbol : position.symbol = row.symbol := by rw [h_fields]; rfl
  have h_size : position.size = row.size := by rw [h_fields]; rfl
  -- A row that is taken meets a symbol without an open position.
  have h_taken : openFields resolved position.symbol = none →
      openFields (resolved.put position) symbol = (openFields resolved symbol).or
        (if row.symbol = symbol ∧ 0 < row.size then some row.fields else none) := by
    intro h_none
    have h_open : position.isOpen ↔ 0 < row.size := by
      rw [← h_size]
      rfl
    rw [openFields_put, h_symbol, h_fields]
    rw [h_symbol] at h_none
    by_cases h_eq : symbol = row.symbol
    · rw [if_pos h_eq, h_eq, h_none, Option.none_or]
      simp [h_open]
    · rw [if_neg h_eq, if_neg fun h_and => h_eq h_and.1.symm, Option.or_none]
  cases h_get : resolved.get? position.symbol with
  | none =>
    rw [h_get] at h
    simp only [pure_eq_ok] at h
    subst h
    exact h_taken (by simp [openFields, openPosition, h_get])
  | some existing =>
    rw [h_get] at h
    simp only at h
    split at h
    · rename_i h_wins
      rw [pure_eq_ok] at h
      subst h
      exact h_taken (by simp [openFields, openPosition, h_get, h_wins.2])
    · rename_i h_loses
      rw [pure_eq_ok] at h
      subst h
      by_cases h_row : row.symbol = symbol ∧ 0 < row.size
      · -- The symbol has an open position already, and it stays.
        have h_open : position.isOpen := by rw [Position.isOpen, h_size]; exact h_row.2
        have h_existing : existing.isOpen := by
          by_contra h_closed
          exact h_loses ⟨h_open, h_closed⟩
        have h_resolved : openFields resolved symbol = some existing.toPositionFields := by
          rw [← h_row.1, ← h_symbol]
          simp [openFields, openPosition, h_get, h_existing]
        rw [h_resolved, Option.some_or]
      · rw [if_neg h_row, Option.or_none]

theorem openFields_foldlM {rows : List PositionRow} {resolved result : Book}
    (h : rows.foldlM addPosition resolved = .ok result) (symbol : String) :
    openFields result symbol = (openFields resolved symbol).or
      ((rows.find? fun row => row.symbol = symbol ∧ 0 < row.size).map PositionRow.fields) := by
  induction rows generalizing resolved with
  | nil =>
    rw [List.foldlM_nil, pure_eq_ok] at h
    simp [h]
  | cons row rest ih =>
    rw [List.foldlM_cons, bind_eq_ok] at h
    obtain ⟨next, h_next, h⟩ := h
    rw [ih h, openFields_addPosition h_next]
    by_cases h_row : row.symbol = symbol ∧ 0 < row.size
    · rw [if_pos h_row, List.find?_cons_of_pos (by simpa using h_row), Option.or_assoc]
      rfl
    · rw [if_neg h_row, List.find?_cons_of_neg (by simpa using h_row), Option.or_none]

theorem exists_foldlM_addPosition {rows : List PositionRow}
    (h : ∀ row ∈ rows, Accounting.isBlank row.symbol = false ∧ 0 ≤ row.size) (resolved : Book) :
    ∃ result, rows.foldlM addPosition resolved = .ok result := by
  induction rows generalizing resolved with
  | nil => exact ⟨resolved, rfl⟩
  | cons row rest ih =>
    rw [List.forall_mem_cons] at h
    obtain ⟨⟨h_symbol, h_size⟩, h_rest⟩ := h
    obtain ⟨next, h_next⟩ : ∃ next, addPosition resolved row = .ok next := by
      obtain ⟨position, h_position⟩ : ∃ position, positionOf row = .ok position :=
        ⟨_, Position.make_of_wellFormed h_symbol h_size⟩
      simp only [addPosition, bind_eq_ok]
      cases h_get : resolved.get? position.symbol with
      | none => exact ⟨_, position, h_position, by rw [h_get]; rfl⟩
      | some existing =>
        by_cases h_wins : position.isOpen ∧ ¬ existing.isOpen
        · exact ⟨_, position, h_position, by simp only [h_get, if_pos h_wins]; rfl⟩
        · exact ⟨_, position, h_position, by simp only [h_get, if_neg h_wins]; rfl⟩
    obtain ⟨result, h_result⟩ := ih h_rest next
    exact ⟨result, by rw [List.foldlM_cons, h_next]; exact h_result⟩

/-! ## The table -/

/-- What the table's own keys say: identities from the sequence, and one open row for a symbol
    (`uq_paper_position_open`). -/
structure RowsKeyed (s : Store) : Prop where
  ids_nodup : (s.positions.map PositionRow.id).Nodup
  ids_drawn : ∀ row ∈ s.positions, row.id < s.clock
  open_unique : ∀ row ∈ s.positions, ∀ row' ∈ s.positions, row.closedAt = none →
    row'.closedAt = none → row.symbol = row'.symbol → row = row'

theorem RowsKeyed.findOpenPosition_eq_some {s : Store} (h : RowsKeyed s) {symbol : String}
    {row : PositionRow} :
    findOpenPosition symbol s.positions = some row ↔
      row ∈ s.positions ∧ row.symbol = symbol ∧ row.closedAt = none := by
  constructor
  · intro h_find
    refine ⟨List.mem_of_find?_eq_some h_find, ?_⟩
    simpa [PositionRow.isOpenFor] using List.find?_some h_find
  · rintro ⟨h_mem, h_symbol, h_open⟩
    cases h_find : findOpenPosition symbol s.positions with
    | none =>
      have h_not := List.find?_eq_none.mp h_find row h_mem
      simp [PositionRow.isOpenFor, h_symbol, h_open] at h_not
    | some other =>
      have h_other : other.symbol = symbol ∧ other.closedAt = none := by
        simpa [PositionRow.isOpenFor] using List.find?_some h_find
      rw [h.open_unique other (List.mem_of_find?_eq_some h_find) row h_mem h_other.2 h_open
        (h_other.1.trans h_symbol.symm)]

structure RowSound (config : SessionConfig) (row : PositionRow) : Prop where
  symbol_nonblank : Accounting.isBlank row.symbol = false
  size_nonneg : 0 ≤ row.size
  size_grid : OnGrid config.quantityPrecision row.size
  entry_numeric : IsNumeric row.entryPrice
  open_iff : row.closedAt = none ↔ 0 < row.size

/-- The invariant of the position table. -/
structure PositionsSound (config : SessionConfig) (s : Store) : Prop where
  ids_nodup : (s.positions.map PositionRow.id).Nodup
  ids_drawn : ∀ row ∈ s.positions, row.id < s.clock
  rows : ∀ row ∈ s.positions, RowSound config row
  open_unique : ∀ row ∈ s.positions, ∀ row' ∈ s.positions, row.closedAt = none →
    row'.closedAt = none → row.symbol = row'.symbol → row = row'

variable {config : SessionConfig} {s s' : Store}

theorem PositionsSound.of_empty (h : s.positions = []) : PositionsSound config s := by
  constructor <;> simp [h]

theorem PositionsSound.congr (h : PositionsSound config s) (h_positions : s'.positions = s.positions)
    (h_clock : s.clock ≤ s'.clock) : PositionsSound config s' := by
  constructor
  case ids_drawn =>
    rw [h_positions]
    intro row h_row
    exact (h.ids_drawn row h_row).trans_le h_clock
  all_goals rw [h_positions]
  · exact h.ids_nodup
  · exact h.rows
  · exact h.open_unique

theorem PositionsSound.keyed (h : PositionsSound config s) : RowsKeyed s :=
  ⟨h.ids_nodup, h.ids_drawn, h.open_unique⟩

theorem PositionsSound.find?_positionRows (h : PositionsSound config s) (symbol : String) :
    (s.positionRows.find? fun row => row.symbol = symbol ∧ 0 < row.size)
      = findOpenPosition symbol s.positions := by
  have h_perm : s.positionRows.Perm s.positions := List.perm_insertionSort _ _
  cases h_find : s.positionRows.find? fun row => row.symbol = symbol ∧ 0 < row.size with
  | none =>
    rw [eq_comm, findOpenPosition, List.find?_eq_none]
    intro row h_row h_open
    have h_not := List.find?_eq_none.mp h_find row (h_perm.mem_iff.mpr h_row)
    simp only [PositionRow.isOpenFor, decide_eq_true_eq] at h_open h_not
    exact h_not ⟨h_open.1, (h.rows row h_row).open_iff.mp h_open.2⟩
  | some row =>
    have h_mem := h_perm.mem_iff.mp (List.mem_of_find?_eq_some h_find)
    have h_row : row.symbol = symbol ∧ 0 < row.size := by simpa using List.find?_some h_find
    exact (h.keyed.findOpenPosition_eq_some.mpr
      ⟨h_mem, h_row.1, (h.rows row h_mem).open_iff.mpr h_row.2⟩).symm

/-- What is open in the table, as `position_of` reads it. -/
def openRowFields (s : Store) (symbol : String) : Option PositionFields :=
  (findOpenPosition symbol s.positions).map PositionRow.fields

theorem PositionsSound.exists_positionsOf (h : PositionsSound config s) :
    ∃ positions, positionsOf s.positionRows = .ok positions := by
  apply exists_foldlM_addPosition
  intro row h_row
  have h_mem := (List.perm_insertionSort _ _).mem_iff.mp h_row
  exact ⟨(h.rows row h_mem).symbol_nonblank, (h.rows row h_mem).size_nonneg⟩

theorem PositionsSound.openFields_positionsOf (h : PositionsSound config s) {positions : Book}
    (h_positions : positionsOf s.positionRows = .ok positions) (symbol : String) :
    openFields positions symbol = openRowFields s symbol := by
  rw [openFields_foldlM h_positions symbol, openFields_empty, Option.none_or,
    h.find?_positionRows]
  rfl

end VyomQuant.Paper
