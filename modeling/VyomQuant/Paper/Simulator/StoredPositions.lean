/-
  VyomQuant.Paper.Simulator.StoredPositions

  The positions a fill computes and the rows it leaves.

  `paper_apply_fill_atomic` writes the position the engine computed, all but one
  column: the UPDATE of an open row leaves `opened_at` as it was.  That is the engine's
  own `opened_at` for an addition and for a close, and it is not for a reversal through
  zero, whose new leg was opened by the fill.  `refines_iff` is the whole account of
  it: over any history of fills the rows agree with the computed positions, and every
  trade carries the opening of the leg it closes, exactly when no fill reverses a
  position at an instant other than its opening.
-/

import VyomQuant.Paper.Simulator.ApplyFill
import VyomQuant.Paper.Store.Positions

namespace VyomQuant.Paper

open Decimal Except Program
open Accounting (Instant OrderSide PositionSide AccountingConfig AccountingError Position
  PositionFields Book ClosedTrade PositionChange PositionCase openPosition sideForOrder)

/-! ## What the position cases keep -/

section Cases

variable {symbol : String} {side : PositionSide} {fillQty fillPrice fillFee quantity price : ℚ}
  {accounting : AccountingConfig} {filledAt : Instant} {existing : Option Position}
  {change : PositionChange}

theorem size_grid_of_case
    (h : PositionCase symbol side fillQty fillPrice fillFee accounting (some filledAt) existing
      change) (h_qty : accounting.qty quantity = .ok fillQty) :
    OnGrid accounting.quantityPrecision change.newPosition.size := by
  cases h with
  | opened h_new => rw [h_new]; exact AccountingConfig.quantizeAt_onGrid h_qty
  | added _ h_size _ h_new => rw [h_new]; exact AccountingConfig.quantizeAt_onGrid h_size
  | reduced _ _ _ h_remaining h_new =>
    rw [h_new]
    exact AccountingConfig.quantizeAt_onGrid h_remaining
  | reversed _ _ _ h_surplus h_new =>
    rw [h_new]
    exact AccountingConfig.quantizeAt_onGrid h_surplus

/-- The position a fill leaves is closed exactly when nothing of it is left. -/
theorem closedAt_of_case
    (h : PositionCase symbol side fillQty fillPrice fillFee accounting (some filledAt) existing
      change) (h_qty : accounting.qty quantity = .ok fillQty) (h_pos : 0 < fillQty)
    (h_existing : ∀ position ∈ existing,
      OnGrid accounting.quantityPrecision position.size ∧ 0 < position.size) :
    change.newPosition.closedAt = none ↔ 0 < change.newPosition.size := by
  have h_grid : OnGrid accounting.quantityPrecision fillQty :=
    AccountingConfig.quantizeAt_onGrid h_qty
  cases h with
  | opened h_new =>
    rw [h_new]
    exact iff_of_true rfl h_pos
  | @added position _ newSize _ _ h_size _ h_new =>
    rw [h_new]
    refine iff_of_true rfl ?_
    -- The sum is rounded, but never below the fill.
    have h_fill : Accounting.accountingContext.Representable fillQty :=
      Context.quantize_representable (AccountingConfig.quantizeAt_eq_ok h_qty)
    have h_sum : fillQty ≤ position.size + fillQty := by
      have h_size_pos := (h_existing position rfl).2
      linarith
    have h_le : fillQty ≤ newSize :=
      Context.le_quantize (AccountingConfig.quantizeAt_eq_ok h_size) h_grid (h_fill.le_round h_sum)
    show 0 < newSize
    exact h_pos.trans_le h_le
  | @reduced position newPosition _ remaining _ h_le _ h_remaining h_new =>
    have h_size : newPosition.size = remaining := by rw [h_new]; rfl
    have h_closed : newPosition.closedAt = if remaining = 0 then some filledAt else none := by
      rw [h_new]
      rfl
    have h_nonneg := newPosition.size_nonneg
    show newPosition.closedAt = none ↔ 0 < newPosition.size
    rw [h_closed, h_size] at *
    by_cases h_zero : remaining = 0
    · simp [h_zero]
    · rw [if_neg h_zero]
      exact iff_of_true rfl (lt_of_le_of_ne h_nonneg (Ne.symm h_zero))
  | @reversed position _ _ surplus _ h_lt _ h_surplus h_new =>
    rw [h_new]
    exact iff_of_true rfl (Context.quantize_sub_pos h_grid (h_existing position rfl).1 h_lt
      (AccountingConfig.quantizeAt_eq_ok h_surplus))

theorem entry_grid_of_case
    (h : PositionCase symbol side fillQty fillPrice fillFee accounting (some filledAt) existing
      change) (h_price : accounting.price price = .ok fillPrice)
    (h_places : accounting.pricePrecision ≤ numericScale)
    (h_existing : ∀ position ∈ existing, OnGrid numericScale position.entryPrice) :
    OnGrid numericScale change.newPosition.entryPrice := by
  cases h with
  | opened h_new =>
    rw [h_new]
    exact (AccountingConfig.quantizeAt_onGrid h_price).mono h_places
  | added _ _ h_entry h_new =>
    rw [h_new]
    simp only [Accounting.weightedAverageEntry, bind_eq_ok] at h_entry
    obtain ⟨_, _, h_entry⟩ := h_entry
    exact (AccountingConfig.quantizeAt_onGrid h_entry).mono h_places
  | reduced _ _ _ _ h_new => rw [h_new]; exact h_existing _ rfl
  | reversed _ _ _ _ h_new =>
    rw [h_new]
    exact (AccountingConfig.quantizeAt_onGrid h_price).mono h_places

end Cases

/-! ## What one fill does to the table -/

variable {config : SessionConfig} {s s' : Store} {call : FillCall} {fillQty fillPrice : ℚ}
  {fill : AppliedFill}

/-- The position a fill computes, from the open row it meets. -/
structure FillDecided (config : SessionConfig) (call : FillCall) (fillQty fillPrice : ℚ)
    (s : Store) (order : OrderRow) (fill : AppliedFill) where
  positions : Book
  existing : Option Position
  change : PositionChange
  fee : ℚ
  positions_eq : positionsOf s.positionRows = .ok positions
  existing_eq : openPosition positions order.symbol = existing
  case_of : PositionCase order.symbol (sideForOrder order.side) fillQty fillPrice fee
    config.accounting (some call.filledAt) existing change
  position_eq : ∃ pnl, fill.result.position.toPositionFields
    = { change.newPosition.toPositionFields with unrealizedPnl := some pnl }
  positions_put : fill.result.positions = positions.put fill.result.position
  closedTrade_eq : fill.result.closedTrade = change.closedTrade

theorem FillRun.decided (run : FillRun config call fillQty fillPrice s fill s')
    (h_figures : fillFigures config call = .ok (fillQty, fillPrice)) :
    Nonempty (FillDecided config call fillQty fillPrice s run.order fill) := by
  obtain ⟨decision⟩ := prepareFill_eq_ok run.prepared_eq
  have h_passed := fillContext_eq_ok run.context_eq
  have h_engine := engineFill_eq_ok decision.result_eq
  rw [h_passed.order_eq] at h_engine
  obtain ⟨trace⟩ := Accounting.applyFill_eq_ok h_engine
  obtain ⟨h_qty, h_price, -, -⟩ := fillFigures_eq_ok.mp h_figures
  obtain ⟨h_fillQty, h_fillPrice, -⟩ := Accounting.fillFigures_eq_ok.mp trace.figures_eq
  -- The engine quantizes figures that are quantized already.
  have h_qty_eq : trace.figures.fillQty = fillQty :=
    ok.inj (h_fillQty.symm.trans (AccountingConfig.quantizeAt_idem h_qty))
  have h_price_eq : trace.figures.fillPrice = fillPrice :=
    ok.inj (h_fillPrice.symm.trans (AccountingConfig.quantizeAt_idem h_price))
  have h_case := Accounting.changePosition_cases trace.change_eq
  have h_positions : positionsOf s.positionRows = .ok decision.positions :=
    (congrArg positionsOf run.rows_eq).symm.trans decision.positions_eq
  rw [h_qty_eq, h_price_eq] at h_case
  exact ⟨{
    positions := decision.positions
    existing := openPosition decision.positions run.order.symbol
    change := trace.change
    fee := trace.figures.fillFee
    positions_eq := h_positions
    existing_eq := rfl
    case_of := h_case
    position_eq := ⟨trace.unrealized, by rw [run.result_eq]; exact trace.position_eq⟩
    positions_put := by rw [run.result_eq]; exact trace.positions_eq
    closedTrade_eq := by rw [run.result_eq]; exact trace.closedTrade_eq }⟩

theorem FillRun.columns (run : FillRun config call fillQty fillPrice s fill s') :
    ∃ args, Committed args s fill.commit s' ∧
      args.position = positionValuesFor run.order.symbol fill.result.position call.filledAt ∧
      args.fill.filledAt = call.filledAt ∧
      ∃ positions, positionsOf s.positionRows = .ok positions ∧
        args.closedLeg
          = closedLegFor positions run.order.symbol fill.result.position call.filledAt ∧
        ∃ trade, args.trade = trade ∧
          (fill.result.closedTrade.mapM fun closed => tradeFor closed call.filledAt config)
            = .ok trade := by
  obtain ⟨decision⟩ := prepareFill_eq_ok run.prepared_eq
  have h_passed := fillContext_eq_ok run.context_eq
  refine ⟨run.prepared.args, applyFillAtomic_eq_ok run.committed, ?_, decision.filledAt_eq,
    decision.positions, (congrArg positionsOf run.rows_eq).symm.trans decision.positions_eq, ?_,
    _, rfl, ?_⟩
  · rw [decision.position_eq, h_passed.order_eq, run.result_eq]
  · rw [decision.closedLeg_eq, h_passed.order_eq, run.result_eq]
  · rw [run.result_eq]
    exact decision.trade_eq

/-- What a commit did to the position table, row by row: the position row takes the
    place of the open row of its symbol, and a closed leg is added to the history. -/
structure PositionsWritten (s s' : Store) (symbol : String) (opened : Instant)
    (row : PositionRow) (closed : Option PositionRow) : Prop where
  mem_iff : ∀ r, r ∈ s'.positions ↔
    r = row ∨ r ∈ closed ∨ (r ∈ s.positions ∧ ¬ (r.symbol = symbol ∧ r.closedAt = none))
  ids_nodup : (s'.positions.map PositionRow.id).Nodup
  ids_drawn : ∀ r ∈ s'.positions, r.id < s'.clock
  openedAt : row.openedAt
    = ((findOpenPosition symbol s.positions).map PositionRow.openedAt).getD opened

namespace Committed

variable {args : AtomicFill} {commit : FillCommit}

theorem closedLeg_new (h : Committed args s commit s') :
    ∀ r ∈ commit.closedPosition, s.clock ≤ r.id ∧ r.closedAt ≠ none := by
  intro r h_r
  obtain ⟨leg, _, h_leg, h_id⟩ := h.closedLeg r h_r
  exact ⟨h_id, by rw [h_leg.closedAt]; exact Option.some_ne_none _⟩

theorem findOpenPosition_legs (h : Committed args s commit s') (symbol : String) :
    findOpenPosition symbol (s.positions ++ commit.closedPosition.toList)
      = findOpenPosition symbol s.positions := by
  unfold findOpenPosition
  rw [List.find?_append]
  have h_none : commit.closedPosition.toList.find? (fun row => row.isOpenFor symbol) = none := by
    rw [List.find?_eq_none]
    intro r h_r
    have h_not := (h.closedLeg_new r (Option.mem_toList.mp h_r)).2
    simp [PositionRow.isOpenFor, h_not]
  rw [h_none, Option.or_none]

theorem ids_nodup_legs (h : Committed args s commit s') (h_keyed : RowsKeyed s) :
    ((s.positions ++ commit.closedPosition.toList).map PositionRow.id).Nodup := by
  rw [List.map_append]
  apply List.Nodup.append h_keyed.ids_nodup
  · cases commit.closedPosition with
    | none => exact List.nodup_nil
    | some r => exact List.nodup_singleton _
  · intro id h_old h_new
    obtain ⟨r, h_r, rfl⟩ := List.mem_map.mp h_old
    obtain ⟨r', h_r', h_id⟩ := List.mem_map.mp h_new
    have h_lt := h_keyed.ids_drawn r h_r
    have h_ge := (h.closedLeg_new r' (Option.mem_toList.mp h_r')).1
    omega

theorem positionsWritten (h : Committed args s commit s') (h_keyed : RowsKeyed s) :
    PositionsWritten s s' args.position.symbol args.position.openedAt commit.position
      commit.closedPosition := by
  obtain ⟨clock, h_closed_lt, h_clock, h_written⟩ := h.position
  have h_closed := h.closedLeg_new
  have h_find := h.findOpenPosition_legs args.position.symbol
  have h_before_nodup := h.ids_nodup_legs h_keyed
  have h_before_lt : ∀ r ∈ s.positions ++ commit.closedPosition.toList, r.id < clock := by
    intro r h_r
    rcases List.mem_append.mp h_r with h_old | h_new
    · exact (h_keyed.ids_drawn r h_old).trans_le h_clock
    · exact h_closed_lt r (Option.mem_toList.mp h_new)
  cases h_written with
  | @updated old h_old h_row h_id h_openedAt h_after h_clock' =>
    rw [h_find] at h_old
    obtain ⟨h_old_mem, h_old_symbol, h_old_open⟩ := h_keyed.findOpenPosition_eq_some.mp h_old
    have h_old_before : old ∈ s.positions ++ commit.closedPosition.toList :=
      List.mem_append_left _ h_old_mem
    constructor
    case mem_iff =>
      intro r
      rw [h_after, List.mem_map]
      constructor
      · rintro ⟨o, h_o, h_eq⟩
        split at h_eq
        · exact Or.inl h_eq.symm
        · rename_i h_ne
          subst h_eq
          rcases List.mem_append.mp h_o with h_mem | h_new
          · refine Or.inr (Or.inr ⟨h_mem, fun h_open => h_ne ?_⟩)
            rw [h_id, h_keyed.open_unique o h_mem old h_old_mem h_open.2 h_old_open
              (h_open.1.trans h_old_symbol.symm)]
          · exact Or.inr (Or.inl (Option.mem_toList.mp h_new))
      · have h_kept : ∀ o ∈ s.positions ++ commit.closedPosition.toList, o ≠ old →
            ∃ a ∈ s.positions ++ commit.closedPosition.toList,
              (if a.id = commit.position.id then commit.position else a) = o := by
          intro o h_o h_ne
          refine ⟨o, h_o, if_neg fun h_eq => h_ne ?_⟩
          exact List.inj_on_of_nodup_map h_before_nodup h_o h_old_before (h_eq.trans h_id)
        rintro (rfl | h_new | ⟨h_mem, h_not⟩)
        · exact ⟨old, h_old_before, if_pos h_id.symm⟩
        · refine h_kept r (List.mem_append_right _ (Option.mem_toList.mpr h_new)) ?_
          rintro rfl
          exact (h_closed _ h_new).2 h_old_open
        · refine h_kept r (List.mem_append_left _ h_mem) ?_
          rintro rfl
          exact h_not ⟨h_old_symbol, h_old_open⟩
    case ids_nodup =>
      have h_ids : s'.positions.map PositionRow.id
          = (s.positions ++ commit.closedPosition.toList).map PositionRow.id := by
        rw [h_after, List.map_map]
        apply List.map_congr_left
        intro o _
        rw [Function.comp_apply]
        split
        · rename_i h_eq
          exact h_eq.symm
        · rfl
      rw [h_ids]
      exact h_before_nodup
    case ids_drawn =>
      rw [h_after]
      intro r h_r
      obtain ⟨o, h_o, h_eq⟩ := List.mem_map.mp h_r
      have h_lt := h_before_lt o h_o
      split at h_eq
      · rename_i h_same
        rw [← h_eq, ← h_same]
        omega
      · rw [← h_eq]
        omega
    case openedAt =>
      rw [h_openedAt, h_old]
      rfl
  | inserted h_none h_row h_id h_openedAt h_after h_clock' =>
    rw [h_find] at h_none
    have h_no_open : ∀ r ∈ s.positions, ¬ (r.symbol = args.position.symbol ∧ r.closedAt = none) := by
      intro r h_r h_open
      rw [h_keyed.findOpenPosition_eq_some.mpr ⟨h_r, h_open.1, h_open.2⟩] at h_none
      cases h_none
    constructor
    case mem_iff =>
      intro r
      rw [h_after, List.mem_append, List.mem_append, List.mem_singleton, Option.mem_toList]
      constructor
      · rintro ((h_mem | h_new) | h_eq)
        · exact Or.inr (Or.inr ⟨h_mem, h_no_open r h_mem⟩)
        · exact Or.inr (Or.inl h_new)
        · exact Or.inl h_eq
      · rintro (h_eq | h_new | ⟨h_mem, _⟩)
        · exact Or.inr h_eq
        · exact Or.inl (Or.inr h_new)
        · exact Or.inl (Or.inl h_mem)
    case ids_nodup =>
      rw [h_after, List.map_append, List.map_singleton, ← List.concat_eq_append]
      apply h_before_nodup.concat
      intro h_mem
      obtain ⟨r, h_r, h_eq⟩ := List.mem_map.mp h_mem
      have h_lt := h_before_lt r h_r
      omega
    case ids_drawn =>
      rw [h_after]
      intro r h_r
      rcases List.mem_append.mp h_r with h_old | h_new
      · have h_lt := h_before_lt r h_old
        omega
      · rw [List.mem_singleton.mp h_new, h_id]
        exact h_clock'
    case openedAt =>
      rw [h_openedAt, h_none]
      rfl

end Committed

/-- A row that stores a position, its opening and its valuation apart. -/
structure Stores (row : PositionRow) (position : Position) : Prop where
  symbol : row.symbol = position.symbol
  side : row.side = position.side
  size : row.size = position.size
  entryPrice : row.entryPrice = position.entryPrice
  currentPrice : row.currentPrice = position.currentPrice
  closedAt : row.closedAt = position.closedAt

theorem FillDecided.existing_sound {order : OrderRow}
    (decided : FillDecided config call fillQty fillPrice s order fill)
    (h_sound : PositionsSound config s) :
    decided.existing.map Position.toPositionFields = openRowFields s order.symbol ∧
      ∀ position ∈ decided.existing, OnGrid config.quantityPrecision position.size ∧
        0 < position.size ∧ OnGrid numericScale position.entryPrice := by
  have h_fields : decided.existing.map Position.toPositionFields = openRowFields s order.symbol := by
    rw [← decided.existing_eq]
    exact h_sound.openFields_positionsOf decided.positions_eq order.symbol
  refine ⟨h_fields, ?_⟩
  intro position h_position
  rw [Option.mem_def] at h_position
  rw [h_position, Option.map_some, openRowFields, eq_comm, Option.map_eq_some_iff] at h_fields
  obtain ⟨row, h_row, h_eq⟩ := h_fields
  obtain ⟨h_mem, _, h_open⟩ := h_sound.keyed.findOpenPosition_eq_some.mp h_row
  rw [← h_eq]
  have h_row_sound := h_sound.rows row h_mem
  exact ⟨h_row_sound.size_grid, h_row_sound.open_iff.mp h_open, h_row_sound.entry_numeric.1⟩

theorem FillRun.stores (run : FillRun config call fillQty fillPrice s fill s')
    (h_figures : fillFigures config call = .ok (fillQty, fillPrice))
    (h_sound : PositionsSound config s) :
    Stores fill.commit.position fill.result.position ∧
      fill.result.position.symbol = run.order.symbol ∧
      OnGrid config.quantityPrecision fill.result.position.size ∧
      (fill.result.position.closedAt = none ↔ 0 < fill.result.position.size) ∧
      IsNumeric fill.commit.position.entryPrice := by
  obtain ⟨decided⟩ := run.decided h_figures
  obtain ⟨args, h_commit, h_values, _⟩ := run.columns
  obtain ⟨h_qty, h_price, h_pos, _⟩ := fillFigures_eq_ok.mp h_figures
  obtain ⟨_, h_existing⟩ := decided.existing_sound h_sound
  obtain ⟨pnl, h_position⟩ := decided.position_eq
  have h_symbol : fill.result.position.symbol = run.order.symbol := by
    rw [h_position]
    apply decided.case_of.symbol_eq
    intro position h_mem
    exact Accounting.openPosition_symbol (decided.existing_eq.trans h_mem)
  have h_size_grid : OnGrid config.quantityPrecision fill.result.position.size := by
    rw [h_position]
    exact size_grid_of_case decided.case_of h_qty
  have h_entry_grid : OnGrid numericScale fill.result.position.entryPrice := by
    rw [h_position]
    exact entry_grid_of_case decided.case_of h_price config.pricePrecision_le
      fun position h_mem => (h_existing position h_mem).2.2
  have h_current : fill.result.position.currentPrice = some fillPrice := by
    rw [h_position]
    exact decided.case_of.currentPrice_eq
  have h_closed : fill.result.position.closedAt = none ↔ 0 < fill.result.position.size := by
    rw [h_position]
    exact closedAt_of_case decided.case_of h_qty h_pos
      fun position h_mem => ⟨(h_existing position h_mem).1, (h_existing position h_mem).2.1⟩
  have h_columns : PositionColumns args fill.commit.position := by
    obtain ⟨_, _, _, h_written⟩ := h_commit.position
    cases h_written with
    | updated _ h_row => exact h_row
    | inserted _ h_row => exact h_row
  have h_size := h_columns.size
  have h_entry := h_columns.entryPrice
  have h_price_column := h_columns.currentPrice
  rw [h_values] at h_size h_entry h_price_column
  have h_stored_price : fill.commit.position.currentPrice = some fillPrice := by
    have h_optional : optionalNumeric (some fillPrice) = .ok fill.commit.position.currentPrice := by
      rw [← h_current]
      exact h_price_column
    simp only [optionalNumeric, bind_eq_ok, pure_eq_ok] at h_optional
    obtain ⟨stored, h_stored, h_eq⟩ := h_optional
    rw [← h_eq, numeric_eq_of_onGrid h_stored config.pricePrecision_le
      (AccountingConfig.quantizeAt_onGrid h_price)]
  refine ⟨⟨?_, ?_, ?_, ?_, ?_, ?_⟩, h_symbol, h_size_grid, h_closed, numeric_isNumeric h_entry⟩
  · rw [h_columns.symbol, h_values, h_symbol]
    rfl
  · rw [h_columns.side, h_values]
    rfl
  · exact numeric_eq_of_onGrid h_size config.quantityPrecision_le h_size_grid
  · exact numeric_eq_of_onGrid h_entry le_rfl h_entry_grid
  · rw [h_stored_price, h_current]
  · rw [h_columns.closedAt, h_values]
    rfl

theorem FillRun.positions_sound (run : FillRun config call fillQty fillPrice s fill s')
    (h_figures : fillFigures config call = .ok (fillQty, fillPrice))
    (h_sound : PositionsSound config s) :
    PositionsSound config s' := by
  obtain ⟨args, h_commit, h_values, _⟩ := run.columns
  have h_written := h_commit.positionsWritten h_sound.keyed
  obtain ⟨h_stores, h_symbol, h_grid, h_closed, h_entry⟩ := run.stores h_figures h_sound
  have h_args_symbol : args.position.symbol = fill.commit.position.symbol := by
    rw [h_values, h_stores.symbol, h_symbol]
    rfl
  have h_row : RowSound config fill.commit.position := by
    refine ⟨?_, ?_, ?_, h_entry, ?_⟩
    · rw [h_stores.symbol]
      exact fill.result.position.symbol_nonblank
    · rw [h_stores.size]
      exact fill.result.position.size_nonneg
    · rw [h_stores.size]
      exact h_grid
    · rw [h_stores.closedAt, h_stores.size]
      exact h_closed
  have h_leg : ∀ r ∈ fill.commit.closedPosition, RowSound config r ∧ r.closedAt ≠ none := by
    intro r h_r
    obtain ⟨leg, _, h_leg, _⟩ := h_commit.closedLeg r h_r
    have h_not_open : r.closedAt ≠ none := by
      rw [h_leg.closedAt]
      exact Option.some_ne_none _
    refine ⟨⟨?_, h_leg.size.ge, ?_, numeric_isNumeric h_leg.entryPrice, ?_⟩, h_not_open⟩
    · rw [h_leg.symbol, h_args_symbol]
      exact h_row.symbol_nonblank
    · rw [h_leg.size]
      exact OnGrid.zero _
    · rw [h_leg.size]
      exact iff_of_false h_not_open (lt_irrefl 0)
  constructor
  case ids_nodup => exact h_written.ids_nodup
  case ids_drawn => exact h_written.ids_drawn
  case rows =>
    intro r h_r
    rcases (h_written.mem_iff r).mp h_r with rfl | h_new | ⟨h_old, _⟩
    · exact h_row
    · exact (h_leg r h_new).1
    · exact h_sound.rows r h_old
  case open_unique =>
    -- Two open rows of one symbol: neither is a closed leg, and an old one is not of the
    -- symbol the position row was written for.
    have h_open : ∀ r ∈ s'.positions, r.closedAt = none → r = fill.commit.position ∨
        (r ∈ s.positions ∧ r.symbol ≠ fill.commit.position.symbol) := by
      intro r h_r h_none
      rcases (h_written.mem_iff r).mp h_r with h_eq | h_new | ⟨h_old, h_not⟩
      · exact Or.inl h_eq
      · exact absurd h_none (h_leg r h_new).2
      · refine Or.inr ⟨h_old, fun h_eq => h_not ⟨h_eq.trans h_args_symbol.symm, h_none⟩⟩
    intro r h_r r' h_r' h_none h_none' h_same
    rcases h_open r h_r h_none with rfl | ⟨h_old, h_ne⟩
    · rcases h_open r' h_r' h_none' with rfl | ⟨_, h_ne'⟩
      · rfl
      · exact absurd h_same.symm h_ne'
    · rcases h_open r' h_r' h_none' with rfl | ⟨h_old', _⟩
      · exact absurd h_same h_ne
      · exact h_sound.open_unique r h_old r' h_old' h_none h_none' h_same

theorem FillRun.find_after (run : FillRun config call fillQty fillPrice s fill s')
    (h_figures : fillFigures config call = .ok (fillQty, fillPrice))
    (h_sound : PositionsSound config s) (symbol : String) :
    findOpenPosition symbol s'.positions
      = if symbol = run.order.symbol then
          if fill.result.position.isOpen then some fill.commit.position else none
        else findOpenPosition symbol s.positions := by
  obtain ⟨args, h_commit, h_values, _⟩ := run.columns
  have h_written := h_commit.positionsWritten h_sound.keyed
  obtain ⟨h_stores, h_symbol, _, h_closed, _⟩ := run.stores h_figures h_sound
  have h_after := run.positions_sound h_figures h_sound
  have h_args_symbol : args.position.symbol = run.order.symbol := by rw [h_values]; rfl
  have h_leg : ∀ r ∈ fill.commit.closedPosition, r.closedAt ≠ none := by
    intro r h_r
    obtain ⟨_, _, h_leg, _⟩ := h_commit.closedLeg r h_r
    rw [h_leg.closedAt]
    exact Option.some_ne_none _
  have h_row_symbol : fill.commit.position.symbol = run.order.symbol :=
    h_stores.symbol.trans h_symbol
  have h_row_open : fill.commit.position.closedAt = none ↔ fill.result.position.isOpen := by
    rw [h_stores.closedAt]
    exact h_closed
  apply Option.ext
  intro r
  rw [h_after.keyed.findOpenPosition_eq_some, h_written.mem_iff, h_args_symbol]
  by_cases h_eq : symbol = run.order.symbol
  · rw [if_pos h_eq, h_eq]
    constructor
    · rintro ⟨rfl | h_new | ⟨_, h_not⟩, h_r_symbol, h_open⟩
      · rw [if_pos (h_row_open.mp h_open)]
      · exact absurd h_open (h_leg r h_new)
      · exact absurd ⟨h_r_symbol, h_open⟩ h_not
    · intro h_some
      split at h_some
      · rename_i h_open
        cases h_some
        exact ⟨Or.inl rfl, h_row_symbol, h_row_open.mpr h_open⟩
      · cases h_some
  · rw [if_neg h_eq, h_sound.keyed.findOpenPosition_eq_some]
    constructor
    · rintro ⟨rfl | h_new | ⟨h_old, _⟩, h_r_symbol, h_open⟩
      · exact absurd (h_r_symbol.symm.trans h_row_symbol) h_eq
      · exact absurd h_open (h_leg r h_new)
      · exact ⟨h_old, h_r_symbol, h_open⟩
    · rintro ⟨h_old, h_r_symbol, h_open⟩
      refine ⟨Or.inr (Or.inr ⟨h_old, fun h_and => h_eq ?_⟩), h_r_symbol, h_open⟩
      rw [← h_r_symbol, h_and.1]

/-- The leg a fill leaves and its opening, computed and stored. -/
inductive LegCase (s : Store) (order : OrderRow) (fillQty : ℚ) (filledAt : Instant)
    (fill : AppliedFill) : Prop
  | opened (h_none : findOpenPosition order.symbol s.positions = none)
      (h_computed : fill.result.position.openedAt = some filledAt)
      (h_stored : fill.commit.position.openedAt = filledAt)
      (h_trade : fill.result.closedTrade = none)
  | kept {old : PositionRow} (h_old : findOpenPosition order.symbol s.positions = some old)
      (h_not : ¬ (old.side ≠ sideForOrder order.side ∧ old.size < fillQty))
      (h_side : fill.result.position.side = old.side)
      (h_computed : fill.result.position.openedAt = some old.openedAt)
      (h_stored : fill.commit.position.openedAt = old.openedAt)
      (h_trade : ∀ closed ∈ fill.result.closedTrade,
        closed.symbol = order.symbol ∧ closed.openedAt = some old.openedAt)
  | reversed {old : PositionRow} (h_old : findOpenPosition order.symbol s.positions = some old)
      (h_opposite : old.side ≠ sideForOrder order.side) (h_lt : old.size < fillQty)
      (h_side : fill.result.position.side = sideForOrder order.side)
      (h_open : fill.result.position.isOpen)
      (h_computed : fill.result.position.openedAt = some filledAt)
      (h_stored : fill.commit.position.openedAt = old.openedAt)
      (h_trade : ∀ closed ∈ fill.result.closedTrade,
        closed.symbol = order.symbol ∧ closed.openedAt = some old.openedAt)

theorem FillRun.legCase (run : FillRun config call fillQty fillPrice s fill s')
    (h_figures : fillFigures config call = .ok (fillQty, fillPrice))
    (h_sound : PositionsSound config s) :
    LegCase s run.order fillQty call.filledAt fill := by
  obtain ⟨decided⟩ := run.decided h_figures
  obtain ⟨args, h_commit, h_values, _⟩ := run.columns
  have h_stored := (h_commit.positionsWritten h_sound.keyed).openedAt
  obtain ⟨_, _, _, h_closed, _⟩ := run.stores h_figures h_sound
  obtain ⟨h_fields, _⟩ := decided.existing_sound h_sound
  obtain ⟨pnl, h_position⟩ := decided.position_eq
  have h_case := decided.case_of
  have h_trade := decided.closedTrade_eq
  have h_args_symbol : args.position.symbol = run.order.symbol := by rw [h_values]; rfl
  have h_args_opened : args.position.openedAt
      = fill.result.position.openedAt.getD call.filledAt := by rw [h_values]; rfl
  rw [h_args_symbol, h_args_opened] at h_stored
  -- The stored row an existing position was read from.
  have h_row : ∀ p ∈ decided.existing, ∃ old,
      findOpenPosition run.order.symbol s.positions = some old ∧
        old.side = p.side ∧ old.size = p.size ∧ p.openedAt = some old.openedAt := by
    intro p h_p
    rw [Option.mem_def] at h_p
    rw [h_p, Option.map_some, openRowFields, eq_comm, Option.map_eq_some_iff] at h_fields
    obtain ⟨old, h_old, h_same⟩ := h_fields
    exact ⟨old, h_old, congrArg PositionFields.side h_same, congrArg PositionFields.size h_same,
      (congrArg PositionFields.openedAt h_same).symm⟩
  generalize decided.existing = existing at h_case h_row h_fields
  generalize decided.change = change at h_case h_position h_trade
  cases h_case with
  | opened h_new =>
    have h_none : findOpenPosition run.order.symbol s.positions = none := by
      rw [Option.map_none, openRowFields, eq_comm, Option.map_eq_none_iff] at h_fields
      exact h_fields
    have h_computed : fill.result.position.openedAt = some call.filledAt := by
      rw [h_position, h_new]
      rfl
    rw [h_none, h_computed] at h_stored
    exact .opened h_none h_computed h_stored h_trade
  | @added p _ _ _ h_side _ _ h_new =>
    obtain ⟨old, h_old, h_old_side, -, h_old_opened⟩ := h_row p rfl
    rw [h_old] at h_stored
    refine .kept h_old ?_ ?_ ?_ h_stored ?_
    · rintro ⟨h_ne, _⟩
      exact h_ne (h_old_side.trans h_side)
    · rw [h_position, h_new, h_old_side]
      rfl
    · rw [h_position, h_new, ← h_old_opened]
      rfl
    · rw [h_trade]
      rintro closed ⟨⟩
  | @reduced p _ _ remaining h_side h_le _ _ h_new =>
    obtain ⟨old, h_old, h_old_side, h_old_size, h_old_opened⟩ := h_row p rfl
    rw [h_old] at h_stored
    refine .kept h_old ?_ ?_ ?_ h_stored ?_
    · rintro ⟨_, h_lt⟩
      rw [h_old_size] at h_lt
      exact absurd h_le (not_le.mpr h_lt)
    · rw [h_position, h_new, h_old_side]
      rfl
    · rw [h_position, h_new, ← h_old_opened]
      rfl
    · rw [h_trade]
      intro closed h_mem
      simp only at h_mem
      split at h_mem
      · cases h_mem
        exact ⟨rfl, h_old_opened⟩
      · cases h_mem
  | @reversed p _ _ _ h_side h_lt _ _ h_new =>
    obtain ⟨old, h_old, h_old_side, h_old_size, h_old_opened⟩ := h_row p rfl
    rw [h_old] at h_stored
    refine .reversed h_old ?_ ?_ ?_ ?_ ?_ h_stored ?_
    · rw [h_old_side]
      exact h_side
    · rw [h_old_size]
      exact h_lt
    · rw [h_position, h_new]
      rfl
    · apply h_closed.mp
      rw [h_position, h_new]
      rfl
    · rw [h_position, h_new]
      rfl
    · rw [h_trade]
      rintro closed ⟨⟩
      exact ⟨rfl, h_old_opened⟩

/-! ## Histories of fills -/

/-- What the next fill reads of an open position. -/
structure LegView where
  side : PositionSide
  size : ℚ
  entryPrice : ℚ
  currentPrice : Option ℚ
  openedAt : Option Instant
  isClosed : Bool
deriving DecidableEq

def legView (fields : PositionFields) : LegView where
  side := fields.side
  size := fields.size
  entryPrice := fields.entryPrice
  currentPrice := fields.currentPrice
  openedAt := fields.openedAt
  isClosed := fields.closedAt.isSome

/-- The open position of a symbol, as the next fill reads it. -/
def openLeg (positions : Book) (symbol : String) : Option LegView :=
  (openFields positions symbol).map legView

/-- An applied fill, with the store it met and the store it left. -/
structure FillEvent where
  before : Store
  call : FillCall
  fill : AppliedFill
  after : Store

/-- The positions read back agree with the computed ones at a symbol. -/
def FillEvent.AgreesAt (e : FillEvent) (symbol : String) : Prop :=
  (positionsOf e.after.positionRows).map (fun stored => openLeg stored symbol)
    = .ok (openLeg e.fill.result.positions symbol)

instance (e : FillEvent) (symbol : String) : Decidable (e.AgreesAt symbol) :=
  inferInstanceAs (Decidable (_ = _))

/-- At most one row of a symbol has no `closed_at`. -/
def OneOpenRow (s : Store) : Prop :=
  ((s.positions.filter fun row => row.closedAt = none).map PositionRow.symbol).Nodup

/-- The open leg of each symbol: its side, and when it was opened. -/
abbrev Legs := String → Option (PositionSide × Instant)

/-- The legs after a fill: a leg is opened by the fill that makes its side. -/
def FillEvent.legsAfter (legs : Legs) (e : FillEvent) : Legs :=
  let position := e.fill.result.position
  Function.update legs position.symbol <|
    if position.isOpen then
      match legs position.symbol with
      | some (side, openedAt) =>
        if side = position.side then some (side, openedAt)
        else some (position.side, e.call.filledAt)
      | none => some (position.side, e.call.filledAt)
    else none

/-- After every fill the stored positions agree with the computed ones, a symbol has at
    most one open row, and a trade carries the opening of the leg it closes. -/
def Refines : Legs → List FillEvent → Prop
  | _, [] => True
  | legs, e :: rest =>
    (∀ symbol, e.AgreesAt symbol) ∧ OneOpenRow e.after ∧
      (∀ trade ∈ e.fill.commit.trade, ∃ side, legs trade.symbol = some (side, trade.openedAt)) ∧
      Refines (e.legsAfter legs) rest

/-- The fills applied from a store on; between them the position table is left alone. -/
inductive FillHistory (config : SessionConfig) : Store → List FillEvent → Prop
  | nil {s : Store} : FillHistory config s []
  | other {s s' : Store} {l : List FillEvent} (h_positions : s'.positions = s.positions)
      (h_clock : s.clock ≤ s'.clock) (h : FillHistory config s' l) : FillHistory config s l
  | fill {s s' : Store} {call : FillCall} {fill : AppliedFill} {l : List FillEvent}
      (h_run : (applyFill config call).run handle s = (.ok (.applied fill), s'))
      (h : FillHistory config s' l) : FillHistory config s (⟨s, call, fill, s'⟩ :: l)

/-- The open row of its symbol that the fill of a call turns through zero. -/
def reversedRow (config : SessionConfig) (s : Store) (call : FillCall) : Option PositionRow :=
  (s.orders.find? fun order => order.id = call.orderId).bind fun order =>
    (findOpenPosition order.symbol s.positions).filter fun row =>
      row.side ≠ sideForOrder order.side ∧
        ∃ quantity ∈ (config.accounting.qty call.quantity).toOption, row.size < quantity

/-- A position that is turned through zero is turned at the instant it was opened. -/
def KeepsOpening (config : SessionConfig) (s : Store) (call : FillCall) : Prop :=
  ∀ row ∈ reversedRow config s call, row.openedAt = call.filledAt

instance (config : SessionConfig) (s : Store) (call : FillCall) :
    Decidable (KeepsOpening config s call) :=
  inferInstanceAs (Decidable (∀ row ∈ reversedRow config s call, _))

/-! ## One fill -/

theorem PositionsSound.oneOpenRow (h : PositionsSound config s) : OneOpenRow s := by
  have h_nodup : s.positions.Nodup := h.ids_nodup.of_map
  apply (h_nodup.filter _).map_on
  intro row h_row row' h_row' h_symbol
  rw [List.mem_filter, decide_eq_true_eq] at h_row h_row'
  exact h.open_unique row h_row.1 row' h_row'.1 h_row.2 h_row'.2 h_symbol

theorem PositionsSound.agreesAt_iff {e : FillEvent} (h : PositionsSound config e.after)
    (symbol : String) :
    e.AgreesAt symbol ↔ (openRowFields e.after symbol).map legView
      = openLeg e.fill.result.positions symbol := by
  obtain ⟨stored, h_stored⟩ := h.exists_positionsOf
  rw [FillEvent.AgreesAt, h_stored]
  simp only [Except.map, ok.injEq, openLeg, h.openFields_positionsOf h_stored symbol]

theorem LegCase.keepsOpening_iff {order : OrderRow}
    (h : LegCase s order fillQty call.filledAt fill)
    (h_order : (s.orders.find? fun order => order.id = call.orderId) = some order)
    (h_qty : config.accounting.qty call.quantity = .ok fillQty) :
    KeepsOpening config s call ↔ (fill.result.position.isOpen →
      some fill.commit.position.openedAt = fill.result.position.openedAt) := by
  have h_reverses : ∀ row, row ∈ reversedRow config s call ↔
      findOpenPosition order.symbol s.positions = some row ∧
        row.side ≠ sideForOrder order.side ∧ row.size < fillQty := by
    intro row
    simp [reversedRow, h_order, h_qty, Option.filter_eq_some_iff, Except.toOption]
  unfold KeepsOpening
  simp only [h_reverses]
  cases h with
  | opened h_none h_computed h_stored _ =>
    simp [h_none, h_computed, h_stored]
  | kept h_old h_not _ h_computed h_stored _ =>
    refine iff_of_true ?_ fun _ => by rw [h_computed, h_stored]
    rintro row ⟨h_row, h_side, h_lt⟩
    rw [h_old, Option.some.injEq] at h_row
    subst h_row
    exact absurd ⟨h_side, h_lt⟩ h_not
  | reversed h_old h_opposite h_lt _ h_open h_computed h_stored _ =>
    rw [h_computed, h_stored]
    constructor
    · intro h_keeps _
      rw [h_keeps _ ⟨h_old, h_opposite, h_lt⟩]
    · rintro h_eq row ⟨h_row, _, _⟩
      rw [h_old, Option.some.injEq] at h_row
      subst h_row
      exact Option.some.inj (h_eq h_open)

/-- The stored positions agree with the computed ones after a fill exactly when the
    fill keeps the opening of what it leaves. -/
theorem FillRun.agrees_iff (run : FillRun config call fillQty fillPrice s fill s')
    (h_figures : fillFigures config call = .ok (fillQty, fillPrice))
    (h_sound : PositionsSound config s) :
    (∀ symbol, FillEvent.AgreesAt ⟨s, call, fill, s'⟩ symbol) ↔ KeepsOpening config s call := by
  obtain ⟨decided⟩ := run.decided h_figures
  obtain ⟨h_stores, h_symbol, _⟩ := run.stores h_figures h_sound
  have h_after := run.positions_sound h_figures h_sound
  rw [(run.legCase h_figures h_sound).keepsOpening_iff run.order_eq
    (fillFigures_eq_ok.mp h_figures).1]
  have h_at : ∀ symbol, FillEvent.AgreesAt ⟨s, call, fill, s'⟩ symbol ↔
      (symbol = run.order.symbol → fill.result.position.isOpen →
        some fill.commit.position.openedAt = fill.result.position.openedAt) := by
    intro symbol
    rw [PositionsSound.agreesAt_iff h_after symbol, openRowFields,
      run.find_after h_figures h_sound, openLeg, decided.positions_put, openFields_put, h_symbol]
    by_cases h_eq : symbol = run.order.symbol
    · rw [if_pos h_eq, if_pos h_eq]
      by_cases h_open : fill.result.position.isOpen
      · rw [if_pos h_open, if_pos h_open]
        simp only [Option.map_some, Option.some.injEq, legView, LegView.mk.injEq]
        simp [PositionRow.fields, h_stores.side, h_stores.size, h_stores.entryPrice,
          h_stores.currentPrice, h_stores.closedAt, h_eq, h_open]
      · simp [h_open]
    · rw [if_neg h_eq, if_neg h_eq, h_sound.openFields_positionsOf decided.positions_eq]
      simp [h_eq, openRowFields]
  simp only [h_at]
  constructor
  · intro h
    exact h run.order.symbol rfl
  · intro h symbol _
    exact h

def LegsStored (s : Store) (legs : Legs) : Prop :=
  ∀ symbol, legs symbol
    = (findOpenPosition symbol s.positions).map fun row => (row.side, row.openedAt)

theorem FillRun.trade_openedAt (run : FillRun config call fillQty fillPrice s fill s')
    (h_figures : fillFigures config call = .ok (fillQty, fillPrice))
    (h_sound : PositionsSound config s) {legs : Legs} (h_legs : LegsStored s legs) :
    ∀ trade ∈ fill.commit.trade, ∃ side, legs trade.symbol = some (side, trade.openedAt) := by
  obtain ⟨args, h_commit, _, _, _, _, _, values, h_values, h_trade⟩ := run.columns
  have h_closed : ∀ closed ∈ fill.result.closedTrade, ∃ old,
      findOpenPosition run.order.symbol s.positions = some old ∧
        closed.symbol = run.order.symbol ∧ closed.openedAt = some old.openedAt := by
    intro closed h_mem
    cases run.legCase h_figures h_sound with
    | opened _ _ _ h_none =>
      rw [h_none] at h_mem
      cases h_mem
    | kept h_old _ _ _ _ h_leg =>
      exact ⟨_, h_old, h_leg closed h_mem⟩
    | reversed h_old _ _ _ _ _ _ h_leg =>
      exact ⟨_, h_old, h_leg closed h_mem⟩
  have h_written := h_commit.trade
  rw [h_values] at h_written
  intro trade h_mem
  rw [Option.mem_def] at h_mem
  rw [h_mem] at h_written
  cases h_written with
  | some h_row =>
    rename_i value
    cases h_closed_trade : fill.result.closedTrade with
    | none =>
      rw [h_closed_trade] at h_trade
      cases h_trade
    | some closed =>
      obtain ⟨old, h_old, h_symbol, h_opened⟩ := h_closed closed h_closed_trade
      rw [h_closed_trade] at h_trade
      obtain ⟨built, h_built, h_some⟩ := bind_eq_ok.mp h_trade
      cases h_some
      simp only [tradeFor, bind_eq_ok, pure_eq_ok] at h_built
      obtain ⟨_, _, rfl⟩ := h_built
      refine ⟨old.side, ?_⟩
      rw [h_row.symbol, h_row.openedAt, h_legs closed.symbol, h_symbol, h_old, Option.map_some,
        h_opened]
      rfl

theorem FillRun.legs_after (run : FillRun config call fillQty fillPrice s fill s')
    (h_figures : fillFigures config call = .ok (fillQty, fillPrice))
    (h_sound : PositionsSound config s) {legs : Legs} (h_legs : LegsStored s legs)
    (h_keeps : KeepsOpening config s call) :
    LegsStored s' (FillEvent.legsAfter legs ⟨s, call, fill, s'⟩) := by
  obtain ⟨h_stores, h_symbol, _⟩ := run.stores h_figures h_sound
  have h_case := run.legCase h_figures h_sound
  have h_opened := (h_case.keepsOpening_iff run.order_eq (fillFigures_eq_ok.mp h_figures).1).mp h_keeps
  intro symbol
  rw [run.find_after h_figures h_sound, FillEvent.legsAfter]
  simp only [h_symbol]
  by_cases h_eq : symbol = run.order.symbol
  · subst h_eq
    rw [Function.update_self, if_pos rfl]
    by_cases h_open : fill.result.position.isOpen
    · rw [if_pos h_open, if_pos h_open, h_legs, Option.map_some, h_stores.side]
      cases h_case with
      | opened h_none _ h_stored _ => rw [h_none, h_stored]; rfl
      | kept h_old _ h_side _ h_stored _ =>
        rw [h_old, h_stored, h_side]
        simp
      | reversed h_old h_opposite _ h_side _ h_computed _ _ =>
        have h_at : fill.commit.position.openedAt = call.filledAt :=
          Option.some.inj ((h_opened h_open).trans h_computed)
        rw [h_old, h_at, h_side]
        simp [h_opposite]
    · rw [if_neg h_open, if_neg h_open]
      rfl
  · rw [Function.update_of_ne h_eq, if_neg h_eq, h_legs]

/-! ## Every history -/

/-- A history refines the computed positions exactly when each of its fills keeps the
    opening of what it leaves. -/
theorem refines_iff_of_sound {l : List FillEvent} {legs : Legs} (h : FillHistory config s l)
    (h_sound : PositionsSound config s) (h_legs : LegsStored s legs) :
    Refines legs l ↔ ∀ e ∈ l, KeepsOpening config e.before e.call := by
  induction h generalizing legs with
  | nil => simp [Refines]
  | other h_positions h_clock _ ih =>
    apply ih (h_sound.congr h_positions h_clock)
    intro symbol
    rw [h_positions]
    exact h_legs symbol
  | @fill s s' call fill l h_run _ ih =>
    obtain ⟨fillQty, fillPrice, h_figures, ⟨run⟩⟩ := applyFill_applied h_run
    have h_after := run.positions_sound h_figures h_sound
    have h_agrees := run.agrees_iff h_figures h_sound
    rw [List.forall_mem_cons, Refines, h_agrees]
    constructor
    · rintro ⟨h_keeps, _, _, h_rest⟩
      exact ⟨h_keeps, (ih h_after (run.legs_after h_figures h_sound h_legs h_keeps)).mp h_rest⟩
    · rintro ⟨h_keeps, h_rest⟩
      exact ⟨h_keeps, h_after.oneOpenRow, run.trade_openedAt h_figures h_sound h_legs,
        (ih h_after (run.legs_after h_figures h_sound h_legs h_keeps)).mpr h_rest⟩

/-- From an empty position table the stored positions refine the computed ones over a
    history of fills exactly when no fill of it turns a position through zero at
    another instant than its opening. -/
theorem storedPositions_refine_iff (config : SessionConfig) (s : Store) (l : List FillEvent)
    (h_empty : s.positions = []) (h : FillHistory config s l) :
    Refines (fun _ => none) l ↔ ∀ e ∈ l, KeepsOpening config e.before e.call := by
  apply refines_iff_of_sound h (PositionsSound.of_empty h_empty)
  intro symbol
  rw [h_empty]
  rfl

theorem Refines.agreesAt {l : List FillEvent} {legs : Legs} (h : Refines legs l) :
    ∀ e ∈ l, ∀ symbol, e.AgreesAt symbol := by
  induction l generalizing legs with
  | nil => simp
  | cons e rest ih =>
    rw [List.forall_mem_cons]
    exact ⟨h.1, ih h.2.2.2⟩

/-- The applied fills of calls made one after another, up to the first that applies none. -/
def replay (config : SessionConfig) : Store → List FillCall → List FillEvent
  | _, [] => []
  | s, call :: rest =>
    match (applyFill config call).run handle s with
    | (.ok (.applied fill), s') => ⟨s, call, fill, s'⟩ :: replay config s' rest
    | _ => []

theorem replay_history (config : SessionConfig) (s : Store) (calls : List FillCall) :
    FillHistory config s (replay config s calls) := by
  induction calls generalizing s with
  | nil => exact .nil
  | cons call rest ih =>
    rw [replay]
    split
    · rename_i fill s' h_run
      exact .fill h_run (ih s')
    · exact .nil

def acceptedMarketOrder (id : ℕ) (side : OrderSide) (quantity : ℚ) : OrderRow where
  id := id
  symbol := "BTC/USDT"
  side := side
  orderType := .market
  quantity := quantity
  limitPrice := none
  referencePrice := none
  filledQuantity := 0
  avgFillPrice := none
  feeMinor := 0
  slippageMinor := 0
  orderState := .accepted
  rejectionReason := none
  idempotencyKey := none
  signalId := none
  fingerprint := ⟨"BTC/USDT", .recognised side, .recognised .market, quantity, none, "gtc"⟩
  createdAt := id

def wholeFill (orderId : ℕ) (quantity price : ℚ) (filledAt : Instant) : FillCall where
  orderId := orderId
  quantity := quantity
  price := price
  fillEventId := marketFillEventId orderId
  filledAt := filledAt

/-- Three accepted orders: buy one, sell `sold`, buy one. -/
def threeOrders (sold : ℚ) : Store :=
  { Store.started 1000 with
    orders := [acceptedMarketOrder 0 .buy 1, acceptedMarketOrder 1 .sell sold,
      acceptedMarketOrder 2 .buy 1]
    clock := 3 }

/-- Selling half keeps the leg, and the last fill adds to it. -/
theorem storedPositions_refine_of_half_sold :
    Refines (fun _ => none) (replay spotConfig (threeOrders (1 / 2))
        [wholeFill 0 1 100 1, wholeFill 1 (1 / 2) 110 2, wholeFill 2 1 105 3]) ∧
      (replay spotConfig (threeOrders (1 / 2))
        [wholeFill 0 1 100 1, wholeFill 1 (1 / 2) 110 2, wholeFill 2 1 105 3]).length = 3 :=
  ⟨(storedPositions_refine_iff spotConfig _ _ rfl (replay_history _ _ _)).mpr (by decide +kernel),
    by decide +kernel⟩

/-- Selling two turns the long leg of instant one into a short leg of instant two, and
    the row still says instant one. -/
theorem storedPositions_not_refined :
    ¬ ∀ (config : SessionConfig) (s : Store) (l : List FillEvent), s.positions = [] →
      FillHistory config s l → Refines (fun _ => none) l := by
  intro h
  have h_agrees := (h spotConfig (threeOrders 2) _ rfl (replay_history _ _
    [wholeFill 0 1 100 1, wholeFill 1 2 110 2, wholeFill 2 1 105 3])).agreesAt
  have h_symbol : ∀ e ∈ replay spotConfig (threeOrders 2)
      [wholeFill 0 1 100 1, wholeFill 1 2 110 2, wholeFill 2 1 105 3], e.AgreesAt "BTC/USDT" :=
    fun e h_e => h_agrees e h_e "BTC/USDT"
  exact absurd h_symbol (by decide +kernel)

end VyomQuant.Paper
