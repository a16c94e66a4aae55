/-
  VyomQuant.Execution.PositionEngine

  Positions from fills: a fill opens a position, adds to the one on its side, or
  reduces, closes or flips the one on the other side.

  Every row of the table contributes its signed size and its cash value (what it
  realized, less what its open part cost), and a fill adds exactly its signed
  size and its cash flow to the two sums; that is the whole conservation
  argument (`Change`).

  A position is created under an id that names the execution, not the fill, so
  the second fill of an execution whose first position was closed meanwhile
  cannot be booked (`positionsFollowFills_iff`).
-/

import VyomQuant.Lib.DecimalContext
import VyomQuant.Lib.KeyedList
import VyomQuant.Lib.Run
import VyomQuant.StrategyDag.Schema

namespace VyomQuant.PositionEngine

open Decimal

/-! ## The rows -/

/-- `PositionSide`. -/
inductive PositionSide where
  | long
  | short
  deriving DecidableEq

/-- `PositionStatus`. -/
inductive PositionStatus where
  | open
  | partiallyClosed
  | closed
  | liquidated
  deriving DecidableEq

namespace PositionSide

def opposite : PositionSide → PositionSide
  | long => short
  | short => long

def sign : PositionSide → ℚ
  | long => 1
  | short => -1

end PositionSide

/-- A row of the positions table, its figures as the decimals that they are written as. -/
structure Position where
  positionId : String
  tenantId : String
  strategyId : String
  symbol : String
  side : PositionSide
  size : ℚ
  avgEntryPrice : ℚ
  unrealizedPnl : ℚ
  realizedPnl : ℚ
  status : PositionStatus

abbrev Table := KeyedList Position.positionId

/-- What an execution record carries of its fills. -/
structure ExecutionRecord where
  executionId : String
  tenantId : String
  strategyId : String
  symbol : String
  side : String
  size : ℚ
  filledSize : Option ℚ
  avgPrice : Option ℚ

/-- What a call raises. -/
inductive Refusal where
  | invalidOperation
  | blankSymbol
  | integrityError
  | missing

/-! ## `PositionCalculator` -/

/-- Rescaling to eight decimals, half up. -/
def quantizePrecision (x : ℚ) : Option ℚ := Context.default.quantize .halfUp 8 x

/-- The price difference that counts for a side. -/
def priceDiff (exitPrice avgEntryPrice : ℚ) : PositionSide → ℚ
  | .long => Context.default.sub exitPrice avgEntryPrice
  | .short => Context.default.sub avgEntryPrice exitPrice

/-- `calculate_unrealized_pnl`. -/
def calculateUnrealizedPnl (size avgEntryPrice currentPrice : ℚ) (side : PositionSide) :
    Option ℚ :=
  quantizePrecision (Context.default.mul (priceDiff currentPrice avgEntryPrice side) size)

/-- `calculate_realized_pnl`. -/
def calculateRealizedPnl (exitSize exitPrice avgEntryPrice : ℚ) (side : PositionSide) :
    Option ℚ :=
  quantizePrecision (Context.default.mul (priceDiff exitPrice avgEntryPrice side) exitSize)

/-- `calculate_new_avg_entry`. -/
def calculateNewAvgEntry (currentSize currentAvgPrice fillSize fillPrice : ℚ) : Option ℚ :=
  let totalSize := Context.default.add currentSize fillSize
  if totalSize = 0 then some 0
  else
    let totalCost := Context.default.add (Context.default.mul currentSize currentAvgPrice)
      (Context.default.mul fillSize fillPrice)
    quantizePrecision (Context.default.div totalCost totalSize)

/-! ## `PositionRepository` -/

variable (upper : String → String)

/-- `find_open_position`; `upper` is `str.upper`. -/
def findOpenPosition (table : Table) (tenantId strategyId symbol : String)
    (side : PositionSide) : Option Position :=
  table.items.find? fun p =>
    p.tenantId = tenantId ∧ p.strategyId = strategyId ∧ p.symbol = upper symbol ∧
      p.side = side ∧ p.status = .open

/-- `get_by_id`. -/
def getById (table : Table) (positionId tenantId : String) : Option Position :=
  (table.get? positionId).filter fun p => p.tenantId = tenantId

/-- `create`, behind the validators of `PositionCreate`. -/
def create (table : Table) (p : Position) : Table × Except Refusal Position :=
  if StrategyDag.strip p.symbol = "" then (table, .error .blankSymbol)
  else
    let row := { p with symbol := upper (upper (StrategyDag.strip p.symbol)) }
    match table.get? row.positionId with
    | some _ => (table, .error .integrityError)
    | none => (table.put row, .ok row)

/-- `update` and `close_position`: the row under an id, changed. -/
def update (table : Table) (positionId tenantId : String) (f : Position → Position) :
    Table × Except Refusal Position :=
  match getById table positionId tenantId with
  | none => (table, .error .missing)
  | some p => (table.put (f p), .ok (f p))

/-! ## `PositionEngine` -/

/-- `_create_position_from_fill`. -/
def createPositionFromFill (table : Table) (execution : ExecutionRecord)
    (fillSize fillPrice : ℚ) (positionSide : PositionSide) : Table × Except Refusal Position :=
  create upper table {
    positionId := "pos_" ++ execution.executionId
    tenantId := execution.tenantId
    strategyId := execution.strategyId
    symbol := execution.symbol
    side := positionSide
    size := fillSize
    avgEntryPrice := fillPrice
    unrealizedPnl := 0
    realizedPnl := 0
    status := .open }

/-- `_update_position_incremental`. -/
def updatePositionIncremental (table : Table) (position : Position)
    (fillSize fillPrice : ℚ) : Table × Except Refusal Position :=
  match calculateNewAvgEntry position.size position.avgEntryPrice fillSize fillPrice with
  | none => (table, .error .invalidOperation)
  | some newAvgPrice =>
    update table position.positionId position.tenantId fun row =>
      { row with
        size := Context.default.add position.size fillSize
        avgEntryPrice := newAvgPrice
        realizedPnl := position.realizedPnl }

/-- The execution that the flip of a position opens the opposite one with. -/
def flipExecution (position : Position) (now : String) (flipSize reducingPrice : ℚ) :
    ExecutionRecord where
  executionId := "flip_" ++ position.positionId ++ "_" ++ now
  tenantId := position.tenantId
  strategyId := position.strategyId
  symbol := position.symbol
  side := if position.side.opposite = .short then "sell" else "buy"
  size := flipSize
  filledSize := some flipSize
  avgPrice := some reducingPrice

/-- `close_position`. -/
def closePosition (table : Table) (position : Position) (finalRealizedPnl : ℚ) :
    Table × Except Refusal Position :=
  update table position.positionId position.tenantId fun row =>
    { row with
      size := 0
      unrealizedPnl := 0
      realizedPnl := finalRealizedPnl
      status := .closed }

/-- `_handle_position_reduction`: what it closes stays closed if the flip then fails. -/
def handlePositionReduction (table : Table) (position : Position)
    (reducingSize reducingPrice : ℚ) (now : String) : Table × Except Refusal Position :=
  if position.size ≤ reducingSize then
    match calculateRealizedPnl position.size reducingPrice position.avgEntryPrice
        position.side with
    | none => (table, .error .invalidOperation)
    | some closingPnl =>
      let totalRealizedPnl := Context.default.add position.realizedPnl closingPnl
      let flipSize := Context.default.sub reducingSize position.size
      match closePosition table position totalRealizedPnl with
      | (table, .error e) => (table, .error e)
      | (table, .ok closed) =>
        if 0 < flipSize then
          createPositionFromFill upper table
            (flipExecution position now flipSize reducingPrice) flipSize reducingPrice
            position.side.opposite
        else (table, .ok closed)
  else
    match calculateRealizedPnl reducingSize reducingPrice position.avgEntryPrice
        position.side with
    | none => (table, .error .invalidOperation)
    | some closingPnl =>
      update table position.positionId position.tenantId fun row =>
        { row with
          size := Context.default.sub position.size reducingSize
          realizedPnl := Context.default.add position.realizedPnl closingPnl }

/-- A call of the engine: the execution, the overrides of a partial fill, and the clock's
    reading as the flip writes it into an id. -/
structure Fill where
  execution : ExecutionRecord
  fillSize : Option ℚ
  fillPrice : Option ℚ
  now : String

namespace Fill

def size (f : Fill) : ℚ := f.fillSize.getD (f.execution.filledSize.getD f.execution.size)

def price (f : Fill) : ℚ := f.fillPrice.getD (f.execution.avgPrice.getD 0)

def side (f : Fill) : PositionSide := if f.execution.side = "buy" then .long else .short

end Fill

def openOn (table : Table) (f : Fill) (side : PositionSide) : Option Position :=
  findOpenPosition upper table f.execution.tenantId f.execution.strategyId f.execution.symbol
    side

/-- `update_position_from_fill`. -/
def updatePositionFromFill (table : Table) (f : Fill) :
    Table × Except Refusal (Option Position) :=
  if f.size ≤ 0 then (table, .ok none)
  else
    let (table, result) :=
      match openOn upper table f f.side with
      | some position => updatePositionIncremental table position f.size f.price
      | none =>
        match openOn upper table f f.side.opposite with
        | some position => handlePositionReduction upper table position f.size f.price f.now
        | none => createPositionFromFill upper table f.execution f.size f.price f.side
    (table, result.map some)

/-! ## What the table says -/

namespace Position

/-- What a row adds to the net size. -/
def signedSize (p : Position) : ℚ := if p.status = .open then p.side.sign * p.size else 0

/-- What a row adds to the cash: what it realized, less what its open part cost. -/
def cashValue (p : Position) : ℚ :=
  p.realizedPnl - if p.status = .open then p.side.sign * p.size * p.avgEntryPrice else 0

/-- The profit of a row at a mark price, before it is rounded. -/
def unrealizedAt (p : Position) (mark : ℚ) : ℚ :=
  p.side.sign * (mark - p.avgEntryPrice) * p.size

end Position

def openPositions (table : Table) : List Position :=
  table.items.filter fun p => p.status = .open

def netSize (table : Table) : ℚ := (table.items.map Position.signedSize).sum

def cashValue (table : Table) : ℚ := (table.items.map Position.cashValue).sum

/-- The profit that the rows realized. -/
def realized (table : Table) : ℚ := (table.items.map fun p => p.realizedPnl).sum

namespace Fill

/-- What a fill adds to the net size. -/
def signedSize (f : Fill) : ℚ := f.side.sign * f.size

/-- What a fill pays: positive for a sale. -/
def cashFlow (f : Fill) : ℚ := -(f.side.sign * f.size * f.price)

end Fill

theorem realized_add_unrealized (table : Table) (mark : ℚ) :
    realized table + ((openPositions table).map fun p => p.unrealizedAt mark).sum
      = cashValue table + netSize table * mark := by
  unfold realized openPositions cashValue netSize
  induction table.items with
  | nil => simp
  | cons p rest ih =>
    by_cases h : p.status = .open
    · rw [List.filter_cons_of_pos (by simpa using h)]
      simp only [List.map_cons, List.sum_cons, Position.signedSize, Position.cashValue, h,
        if_true, Position.unrealizedAt] at ih ⊢
      linarith
    · rw [List.filter_cons_of_neg (by simpa using h)]
      simp only [List.map_cons, List.sum_cons, Position.signedSize, Position.cashValue, h,
        if_false] at ih ⊢
      linarith

/-- The engine reports the profit of a position at a mark price as it is where the profit
    fits in eight decimals. -/
theorem calculateUnrealizedPnl_of_onGrid {p : Position} {mark : ℚ}
    (h_diff : Context.default.Representable (mark - p.avgEntryPrice))
    (h_pnl : Context.default.Representable (p.unrealizedAt mark))
    (h_grid : OnGrid 8 (p.unrealizedAt mark))
    (h_lt : |p.unrealizedAt mark| < 10 ^ ((Context.default.prec : ℤ) - 8)) :
    calculateUnrealizedPnl p.size p.avgEntryPrice mark p.side = some (p.unrealizedAt mark) := by
  have h_price : priceDiff mark p.avgEntryPrice p.side
      = p.side.sign * (mark - p.avgEntryPrice) := by
    cases p.side with
    | long =>
      show Context.default.round (mark - p.avgEntryPrice) = _
      rw [Context.round_of_representable h_diff]
      simp [PositionSide.sign]
    | short =>
      have h_neg := h_diff.neg
      rw [neg_sub] at h_neg
      show Context.default.round (p.avgEntryPrice - mark) = _
      rw [Context.round_of_representable h_neg]
      simp [PositionSide.sign]
  have h_product : Context.default.mul (p.side.sign * (mark - p.avgEntryPrice)) p.size
      = p.unrealizedAt mark := Context.round_of_representable h_pnl
  rw [calculateUnrealizedPnl, h_price, h_product]
  exact Context.quantize_of_onGrid h_grid h_lt

/-- The rows of one key: what is open has a size, and there is at most one of it. -/
structure Book (tenantId strategyId symbol : String) (table : Table) : Prop where
  key : ∀ p ∈ table.items,
    p.tenantId = tenantId ∧ p.strategyId = strategyId ∧ p.symbol = symbol
  size : ∀ p ∈ table.items, p.status = .open → 0 < p.size
  single : ∀ p ∈ table.items, ∀ q ∈ table.items, p.status = .open → q.status = .open → p = q

variable {p p' : Position}

theorem sum_put_of_mem {table : Table} (h_p : p ∈ table.items) (h_id : p'.positionId = p.positionId)
    (g : Position → ℚ) :
    ((table.put p').items.map g).sum = (table.items.map g).sum - g p + g p' := by
  rw [KeyedList.sum_put, h_id, KeyedList.get?_key_of_mem h_p]
  rfl

theorem sum_put_of_fresh {table : Table} (h_fresh : table.get? p.positionId = none)
    (g : Position → ℚ) : ((table.put p).items.map g).sum = (table.items.map g).sum + g p := by
  rw [KeyedList.sum_put, h_fresh]
  simp

namespace Book

variable {tenantId strategyId symbol : String} {table : Table}

theorem length_openPositions_le (h : Book tenantId strategyId symbol table) :
    (openPositions table).length ≤ 1 := by
  have h_nodup : (openPositions table).Nodup :=
    (List.Nodup.of_map _ table.nodup).filter _
  match h_open : openPositions table with
  | [] => simp
  | [p] => simp
  | p :: q :: rest =>
    rw [h_open] at h_nodup
    have h_p : p ∈ openPositions table := by simp [h_open]
    have h_q : q ∈ openPositions table := by simp [h_open]
    simp only [openPositions, List.mem_filter, decide_eq_true_eq] at h_p h_q
    have h_eq := h.single p h_p.1 q h_q.1 h_p.2 h_q.2
    simp [h_eq] at h_nodup

theorem put (h : Book tenantId strategyId symbol table) (h_p : p ∈ table.items)
    (h_open : p.status = .open) (h_id : p'.positionId = p.positionId)
    (h_key : p'.tenantId = p.tenantId ∧ p'.strategyId = p.strategyId ∧ p'.symbol = p.symbol)
    (h_size : p'.status = .open → 0 < p'.size) :
    Book tenantId strategyId symbol (table.put p') := by
  have h_old : ∀ q ∈ (table.put p').items, q.status = .open → q = p' := by
    intro q h_q h_q_open
    obtain rfl | ⟨h_q, h_ne⟩ := KeyedList.mem_put h_q
    · rfl
    · rw [h.single q h_q p h_p h_q_open h_open, h_id] at h_ne
      exact absurd rfl h_ne
  refine ⟨fun q h_q => ?_, fun q h_q h_q_open => ?_, fun q h_q r h_r h_q_open h_r_open => ?_⟩
  · obtain rfl | ⟨h_q, -⟩ := KeyedList.mem_put h_q
    · rw [h_key.1, h_key.2.1, h_key.2.2]
      exact h.key p h_p
    · exact h.key q h_q
  · have h_eq := h_old q h_q h_q_open
    rw [h_eq] at h_q_open ⊢
    exact h_size h_q_open
  · rw [h_old q h_q h_q_open, h_old r h_r h_r_open]

theorem put_of_none (h : Book tenantId strategyId symbol table)
    (h_none : ∀ q ∈ table.items, q.status ≠ .open)
    (h_key : p.tenantId = tenantId ∧ p.strategyId = strategyId ∧ p.symbol = symbol)
    (h_size : 0 < p.size) : Book tenantId strategyId symbol (table.put p) := by
  have h_old : ∀ q ∈ (table.put p).items, q.status = .open → q = p := by
    intro q h_q h_q_open
    obtain rfl | ⟨h_q, -⟩ := KeyedList.mem_put h_q
    · rfl
    · exact absurd h_q_open (h_none q h_q)
  refine ⟨fun q h_q => ?_, fun q h_q h_q_open => ?_, fun q h_q r h_r h_q_open h_r_open => ?_⟩
  · obtain rfl | ⟨h_q, -⟩ := KeyedList.mem_put h_q
    · exact h_key
    · exact h.key q h_q
  · rw [h_old q h_q h_q_open]
    exact h_size
  · rw [h_old q h_q h_q_open, h_old r h_r h_r_open]

end Book

theorem none_open_put {tenantId strategyId symbol : String} {table : Table}
    (h : Book tenantId strategyId symbol table) (h_p : p ∈ table.items) (h_open : p.status = .open)
    (h_id : p'.positionId = p.positionId) (h_closed : p'.status ≠ .open) :
    ∀ q ∈ (table.put p').items, q.status ≠ .open := by
  intro q h_q h_q_open
  obtain rfl | ⟨h_q, h_ne⟩ := KeyedList.mem_put h_q
  · exact h_closed h_q_open
  · rw [h.single q h_q p h_p h_q_open h_open, h_id] at h_ne
    exact h_ne rfl

/-! ## The conditions of a fill -/

/-- The symbol is not blank, and is stored as it is looked up: it has no surrounding
    blanks that the validator would strip. -/
structure Spelled (symbol : String) : Prop where
  nonblank : StrategyDag.strip symbol ≠ ""
  stored : upper (upper (StrategyDag.strip symbol)) = upper symbol
  nonblank_upper : StrategyDag.strip (upper symbol) ≠ ""
  restored : upper (upper (StrategyDag.strip (upper symbol))) = upper symbol

/-- What a fill that closes part of a position realizes. -/
def closingPnl (p : Position) (closed price : ℚ) : ℚ :=
  p.side.sign * (price - p.avgEntryPrice) * closed

/-- The sizes fit in the digits of the arithmetic, the average price can be rescaled, and
    what a reduction realizes is exact at eight decimals. -/
def Precise (table : Table) (f : Fill) : Prop :=
  match openOn upper table f f.side with
  | some p =>
    Context.default.Representable (p.size + f.size) ∧
      (calculateNewAvgEntry p.size p.avgEntryPrice f.size f.price).isSome
  | none =>
    match openOn upper table f f.side.opposite with
    | some p =>
      Context.default.Representable (p.size - f.size) ∧
        calculateRealizedPnl (min p.size f.size) f.price p.avgEntryPrice p.side
          = some (closingPnl p (min p.size f.size) f.price) ∧
        Context.default.Representable
          (p.realizedPnl + closingPnl p (min p.size f.size) f.price)
    | none => True

instance (table : Table) (f : Fill) : Decidable (Precise upper table f) :=
  match h_same : openOn upper table f f.side with
  | some p =>
    decidable_of_iff (Context.default.Representable (p.size + f.size) ∧
      (calculateNewAvgEntry p.size p.avgEntryPrice f.size f.price).isSome)
      (by simp [Precise, h_same])
  | none =>
    match h_other : openOn upper table f f.side.opposite with
    | some p =>
      decidable_of_iff (Context.default.Representable (p.size - f.size) ∧
        calculateRealizedPnl (min p.size f.size) f.price p.avgEntryPrice p.side
          = some (closingPnl p (min p.size f.size) f.price) ∧
        Context.default.Representable
          (p.realizedPnl + closingPnl p (min p.size f.size) f.price))
        (by simp [Precise, h_same, h_other])
    | none => .isTrue (by simp [Precise, h_same, h_other])

/-- The average entry price that a fill computes, if it computes one, is exact. -/
def ExactAverage (table : Table) (f : Fill) : Prop :=
  ∀ p ∈ openOn upper table f f.side,
    calculateNewAvgEntry p.size p.avgEntryPrice f.size f.price
      = some ((p.size * p.avgEntryPrice + f.size * f.price) / (p.size + f.size))

/-- The id that a fill creates a position under, if it creates one, is not taken. -/
def Fresh (table : Table) (f : Fill) : Prop :=
  match openOn upper table f f.side with
  | some _ => True
  | none =>
    match openOn upper table f f.side.opposite with
    | some p =>
      p.size < f.size →
        table.get? ("pos_" ++ ("flip_" ++ p.positionId ++ "_" ++ f.now)) = none
    | none => table.get? ("pos_" ++ f.execution.executionId) = none

/-! ## One fill -/

variable {upper} {tenantId strategyId symbol : String} {table : Table} {f : Fill}

structure ForKey (tenantId strategyId symbol : String) (f : Fill) : Prop where
  tenant : f.execution.tenantId = tenantId
  strategy : f.execution.strategyId = strategyId
  symbol : f.execution.symbol = symbol
  size : 0 < f.size
  price : 0 < f.price

theorem openOn_eq_some {side : PositionSide} (h : openOn upper table f side = some p) :
    p ∈ table.items ∧ p.status = .open ∧ p.side = side := by
  have h_p := List.find?_some h
  simp only [decide_eq_true_eq] at h_p
  exact ⟨List.mem_of_find?_eq_some h, h_p.2.2.2.2, h_p.2.2.2.1⟩

theorem openOn_eq_none {side : PositionSide}
    (h_book : Book tenantId strategyId (upper symbol) table)
    (h_key : ForKey tenantId strategyId symbol f) (h : openOn upper table f side = none) :
    ∀ p ∈ table.items, p.status = .open → p.side ≠ side := by
  intro p h_p h_open h_side
  obtain ⟨h_tenant, h_strategy, h_symbol⟩ := h_book.key p h_p
  refine List.find?_eq_none.mp h p h_p ?_
  rw [h_key.tenant, h_key.strategy, h_key.symbol]
  simp [h_tenant, h_strategy, h_symbol, h_side, h_open]

theorem update_of_mem (h_p : p ∈ table.items) (g : Position → Position) :
    update table p.positionId p.tenantId g = (table.put (g p), .ok (g p)) := by
  have h_get : getById table p.positionId p.tenantId = some p := by
    rw [getById, KeyedList.get?_key_of_mem h_p]
    simp
  rw [update, h_get]

theorem create_of_fresh (h_symbol : StrategyDag.strip p.symbol ≠ "")
    (h_fresh : table.get? p.positionId = none) :
    create upper table p =
      (table.put { p with symbol := upper (upper (StrategyDag.strip p.symbol)) },
        .ok { p with symbol := upper (upper (StrategyDag.strip p.symbol)) }) := by
  rw [create, if_neg h_symbol]
  simp only [h_fresh]

theorem fresh_of_create {table' : Table} {row : Position}
    (h : create upper table p = (table', .ok row)) : table.get? p.positionId = none := by
  unfold create at h
  split at h
  · cases h
  · cases h_get : table.get? p.positionId with
    | none => rfl
    | some q =>
      simp only [h_get] at h
      cases h

/-- What a fill has to do to the table: the book stays a book, and the two sums move by
    the fill's size and cash flow. -/
structure Change (tenantId strategyId symbol : String) (size cash : ℚ) (old new : Table) :
    Prop where
  book : Book tenantId strategyId symbol new
  net : netSize new = netSize old + size
  cash : cashValue new = cashValue old + cash

theorem change_put (h_book : Book tenantId strategyId symbol table) (h_p : p ∈ table.items)
    (h_open : p.status = .open) (h_id : p'.positionId = p.positionId)
    (h_key : p'.tenantId = p.tenantId ∧ p'.strategyId = p.strategyId ∧ p'.symbol = p.symbol)
    (h_size : p'.status = .open → 0 < p'.size) :
    Change tenantId strategyId symbol (p'.signedSize - p.signedSize)
      (p'.cashValue - p.cashValue) table (table.put p') where
  book := h_book.put h_p h_open h_id h_key h_size
  net := by
    unfold netSize
    rw [sum_put_of_mem h_p h_id]
    ring
  cash := by
    unfold cashValue
    rw [sum_put_of_mem h_p h_id]
    ring

theorem change_create (h_book : Book tenantId strategyId symbol table)
    (h_none : ∀ q ∈ table.items, q.status ≠ .open) (h_fresh : table.get? p.positionId = none)
    (h_key : p.tenantId = tenantId ∧ p.strategyId = strategyId ∧ p.symbol = symbol)
    (h_size : 0 < p.size) :
    Change tenantId strategyId symbol p.signedSize p.cashValue table (table.put p) where
  book := h_book.put_of_none h_none h_key h_size
  net := sum_put_of_fresh h_fresh _
  cash := sum_put_of_fresh h_fresh _

theorem Change.trans {size cash size' cash' : ℚ} {t₁ t₂ t₃ : Table}
    (h₁ : Change tenantId strategyId symbol size cash t₁ t₂)
    (h₂ : Change tenantId strategyId symbol size' cash' t₂ t₃) :
    Change tenantId strategyId symbol (size + size') (cash + cash') t₁ t₃ where
  book := h₂.book
  net := by rw [h₂.net, h₁.net, add_assoc]
  cash := by rw [h₂.cash, h₁.cash, add_assoc]

@[simp] theorem sign_opposite (side : PositionSide) : side.opposite.sign = -side.sign := by
  cases side <;> simp [PositionSide.opposite, PositionSide.sign]

/-- What a call does to the table, with its answer. -/
def Books (tenantId strategyId symbol : String) (size : ℚ) (exact : Prop) (cash : ℚ)
    (old : Table) (result : Table × Except Refusal Position) : Prop :=
  ∃ p moved, result.2 = .ok p ∧ Change tenantId strategyId symbol size moved old result.1 ∧
    (exact → moved = cash)

/-- The row that adding to a position leaves. -/
def addedRow (p : Position) (q avg : ℚ) : Position :=
  { p with
    size := p.size + q
    avgEntryPrice := avg
    realizedPnl := p.realizedPnl }

/-- The row that closing a part of a position leaves. -/
def reducedRow (p : Position) (q price : ℚ) : Position :=
  { p with
    size := p.size - q
    realizedPnl := p.realizedPnl + closingPnl p q price }

/-- The row that closing a position leaves. -/
def closedRow (p : Position) (price : ℚ) : Position :=
  { p with
    size := 0
    unrealizedPnl := 0
    realizedPnl := p.realizedPnl + closingPnl p p.size price
    status := .closed }

def flippedRow (p : Position) (q price : ℚ) (symbol now : String) : Position where
  positionId := "pos_" ++ ("flip_" ++ p.positionId ++ "_" ++ now)
  tenantId := p.tenantId
  strategyId := p.strategyId
  symbol := symbol
  side := p.side.opposite
  size := q - p.size
  avgEntryPrice := price
  unrealizedPnl := 0
  realizedPnl := 0
  status := .open

variable {q price : ℚ}

theorem updatePositionIncremental_books (h_book : Book tenantId strategyId symbol table)
    (h_p : p ∈ table.items) (h_open : p.status = .open) (h_q : 0 < q)
    (h_size : Context.default.Representable (p.size + q))
    (h_avg : (calculateNewAvgEntry p.size p.avgEntryPrice q price).isSome) :
    Books tenantId strategyId symbol (p.side.sign * q)
      (calculateNewAvgEntry p.size p.avgEntryPrice q price
        = some ((p.size * p.avgEntryPrice + q * price) / (p.size + q)))
      (-(p.side.sign * q * price)) table (updatePositionIncremental table p q price) := by
  obtain ⟨avg, h_avg⟩ := Option.isSome_iff_exists.mp h_avg
  have h_pos := h_book.size p h_p h_open
  have h_sum : Context.default.add p.size q = p.size + q :=
    Context.round_of_representable h_size
  have h_total : p.size + q ≠ 0 := by positivity
  have h_update : updatePositionIncremental table p q price
      = (table.put (addedRow p q avg), .ok (addedRow p q avg)) := by
    rw [updatePositionIncremental, h_avg]
    simp only [update_of_mem h_p, h_sum]
    rfl
  have h_change : Change tenantId strategyId symbol
      ((addedRow p q avg).signedSize - p.signedSize)
      ((addedRow p q avg).cashValue - p.cashValue) table (table.put (addedRow p q avg)) :=
    change_put h_book h_p h_open rfl ⟨rfl, rfl, rfl⟩ fun _ => by
      show 0 < p.size + q
      positivity
  have h_signed : (addedRow p q avg).signedSize - p.signedSize = p.side.sign * q := by
    simp only [Position.signedSize, addedRow, h_open, if_true]
    ring
  rw [h_signed] at h_change
  rw [h_update]
  refine ⟨_, _, rfl, h_change, fun h_exact => ?_⟩
  rw [h_avg, Option.some.injEq] at h_exact
  simp only [Position.cashValue, addedRow, h_open, if_true, h_exact]
  field_simp
  ring

theorem reduce_books (h_book : Book tenantId strategyId symbol table) (h_p : p ∈ table.items)
    (h_open : p.status = .open) (h_lt : q < p.size)
    (h_size : Context.default.Representable (p.size - q))
    (h_pnl : calculateRealizedPnl q price p.avgEntryPrice p.side = some (closingPnl p q price))
    (h_realized : Context.default.Representable (p.realizedPnl + closingPnl p q price))
    (now : String) (exact : Prop) :
    Books tenantId strategyId symbol (-p.side.sign * q) exact (p.side.sign * q * price) table
      (handlePositionReduction upper table p q price now) := by
  have h_diff : Context.default.sub p.size q = p.size - q :=
    Context.round_of_representable h_size
  have h_sum : Context.default.add p.realizedPnl (closingPnl p q price)
      = p.realizedPnl + closingPnl p q price :=
    Context.round_of_representable h_realized
  have h_update : handlePositionReduction upper table p q price now
      = (table.put (reducedRow p q price), .ok (reducedRow p q price)) := by
    rw [handlePositionReduction, if_neg (not_le.mpr h_lt), h_pnl]
    simp only [update_of_mem h_p, h_diff, h_sum]
    rfl
  have h_change : Change tenantId strategyId symbol
      ((reducedRow p q price).signedSize - p.signedSize)
      ((reducedRow p q price).cashValue - p.cashValue) table
      (table.put (reducedRow p q price)) :=
    change_put h_book h_p h_open rfl ⟨rfl, rfl, rfl⟩ fun _ => sub_pos.mpr h_lt
  have h_signed : (reducedRow p q price).signedSize - p.signedSize = -p.side.sign * q := by
    simp only [Position.signedSize, reducedRow, h_open, if_true]
    ring
  rw [h_signed] at h_change
  rw [h_update]
  refine ⟨_, _, rfl, h_change, fun _ => ?_⟩
  simp only [Position.cashValue, reducedRow, closingPnl, h_open, if_true]
  ring

theorem change_close (h_book : Book tenantId strategyId symbol table) (h_p : p ∈ table.items)
    (h_open : p.status = .open) (price : ℚ) :
    Change tenantId strategyId symbol (-p.side.sign * p.size) (p.side.sign * p.size * price)
      table (table.put (closedRow p price)) := by
  have h_change : Change tenantId strategyId symbol
      ((closedRow p price).signedSize - p.signedSize)
      ((closedRow p price).cashValue - p.cashValue) table (table.put (closedRow p price)) :=
    change_put h_book h_p h_open rfl ⟨rfl, rfl, rfl⟩ nofun
  have h_signed : (closedRow p price).signedSize - p.signedSize = -p.side.sign * p.size := by
    simp [Position.signedSize, closedRow, h_open]
  have h_cash : (closedRow p price).cashValue - p.cashValue
      = p.side.sign * p.size * price := by
    simp only [Position.cashValue, closedRow, closingPnl, h_open, if_true, reduceCtorEq, if_false]
    ring
  rwa [h_signed, h_cash] at h_change

/-- A flip opens the opposite side on the book that closing the position left. -/
theorem change_flip (h_book : Book tenantId strategyId (upper symbol) table) (h_p : p ∈ table.items)
    (h_open : p.status = .open) (h_lt : p.size < q) {now : String}
    (h_fresh : table.get? ("pos_" ++ ("flip_" ++ p.positionId ++ "_" ++ now)) = none) :
    (table.put (closedRow p price)).get? ("pos_" ++ ("flip_" ++ p.positionId ++ "_" ++ now))
        = none ∧
      Change tenantId strategyId (upper symbol) (-p.side.sign * q) (p.side.sign * q * price)
        table ((table.put (closedRow p price)).put
          (flippedRow p q price (upper symbol) now)) := by
  have h_id : (table.put (closedRow p price)).get?
      ("pos_" ++ ("flip_" ++ p.positionId ++ "_" ++ now)) = none := by
    rw [KeyedList.get?_put, if_neg, h_fresh]
    intro h_eq
    rw [h_eq, show (closedRow p price).positionId = p.positionId from rfl,
      KeyedList.get?_key_of_mem h_p] at h_fresh
    cases h_fresh
  refine ⟨h_id, ?_⟩
  have h_closed := change_close h_book h_p h_open price
  have h_none : ∀ r ∈ (table.put (closedRow p price)).items, r.status ≠ .open :=
    none_open_put h_book h_p h_open rfl nofun
  obtain ⟨h_tenant, h_strategy, -⟩ := h_book.key p h_p
  have h_both := h_closed.trans (change_create h_closed.book h_none
    (show KeyedList.get? _ (flippedRow p q price (upper symbol) now).positionId = none from h_id)
    ⟨h_tenant, h_strategy, rfl⟩ (sub_pos.mpr h_lt))
  have h_signed : -p.side.sign * p.size + (flippedRow p q price (upper symbol) now).signedSize
      = -p.side.sign * q := by
    simp only [Position.signedSize, flippedRow, if_true, sign_opposite]
    ring
  have h_cash : p.side.sign * p.size * price
      + (flippedRow p q price (upper symbol) now).cashValue = p.side.sign * q * price := by
    simp only [Position.cashValue, flippedRow, if_true, sign_opposite]
    ring
  rwa [h_signed, h_cash] at h_both

/-- The open position is closed, and what is left of the fill opens the opposite one. -/
theorem close_books (h_book : Book tenantId strategyId (upper symbol) table)
    (h_spelled : Spelled upper symbol) (h_p : p ∈ table.items) (h_open : p.status = .open)
    (h_le : p.size ≤ q) (h_size : Context.default.Representable (p.size - q))
    (h_pnl : calculateRealizedPnl p.size price p.avgEntryPrice p.side = some (closingPnl p p.size price))
    (h_realized : Context.default.Representable (p.realizedPnl + closingPnl p p.size price))
    {now : String}
    (h_fresh : p.size < q → table.get? ("pos_" ++ ("flip_" ++ p.positionId ++ "_" ++ now)) = none)
    (exact : Prop) :
    Books tenantId strategyId (upper symbol) (-p.side.sign * q) exact
      (p.side.sign * q * price) table (handlePositionReduction upper table p q price now) := by
  have h_diff : Context.default.sub q p.size = q - p.size := by
    have h_neg := h_size.neg
    rw [neg_sub] at h_neg
    exact Context.round_of_representable h_neg
  have h_sum : Context.default.add p.realizedPnl (closingPnl p p.size price)
      = p.realizedPnl + closingPnl p p.size price :=
    Context.round_of_representable h_realized
  have h_close : closePosition table p (p.realizedPnl + closingPnl p p.size price)
      = (table.put (closedRow p price), .ok (closedRow p price)) := update_of_mem h_p _
  by_cases h_flip : p.size < q
  · obtain ⟨h_id, h_change⟩ := change_flip h_book h_p h_open h_flip (h_fresh h_flip)
    have h_symbol : p.symbol = upper symbol := (h_book.key p h_p).2.2
    have h_reduction : handlePositionReduction upper table p q price now
        = ((table.put (closedRow p price)).put (flippedRow p q price (upper symbol) now),
          .ok (flippedRow p q price (upper symbol) now)) := by
      rw [handlePositionReduction, if_pos h_le, h_pnl]
      simp only [h_sum, h_diff, h_close, sub_pos, if_pos h_flip]
      rw [createPositionFromFill]
      refine (create_of_fresh ?_ h_id).trans ?_
      · show StrategyDag.strip p.symbol ≠ ""
        rw [h_symbol]
        exact h_spelled.nonblank_upper
      · simp only [flipExecution, h_symbol, h_spelled.restored]
        rfl
    rw [h_reduction]
    exact ⟨_, _, rfl, h_change, fun _ => rfl⟩
  · -- nothing is left of the fill
    have h_eq : q = p.size := le_antisymm (not_lt.mp h_flip) h_le
    have h_reduction : handlePositionReduction upper table p q price now
        = (table.put (closedRow p price), .ok (closedRow p price)) := by
      rw [handlePositionReduction, if_pos h_le, h_pnl]
      simp only [h_sum, h_diff, h_close, sub_pos, if_neg h_flip]
    rw [h_reduction, h_eq]
    exact ⟨_, _, rfl, change_close h_book h_p h_open price, fun _ => rfl⟩

def openedRow (f : Fill) (symbol : String) : Position where
  positionId := "pos_" ++ f.execution.executionId
  tenantId := f.execution.tenantId
  strategyId := f.execution.strategyId
  symbol := symbol
  side := f.side
  size := f.size
  avgEntryPrice := f.price
  unrealizedPnl := 0
  realizedPnl := 0
  status := .open

theorem create_books (h_book : Book tenantId strategyId (upper symbol) table)
    (h_spelled : Spelled upper symbol) (h_key : ForKey tenantId strategyId symbol f)
    (h_none : ∀ q ∈ table.items, q.status ≠ .open)
    (h_fresh : table.get? ("pos_" ++ f.execution.executionId) = none) (exact : Prop) :
    Books tenantId strategyId (upper symbol) f.signedSize exact f.cashFlow table
      (createPositionFromFill upper table f.execution f.size f.price f.side) := by
  have h_create : createPositionFromFill upper table f.execution f.size f.price f.side
      = (table.put (openedRow f (upper symbol)), .ok (openedRow f (upper symbol))) := by
    rw [createPositionFromFill]
    refine (create_of_fresh ?_ h_fresh).trans ?_
    · show StrategyDag.strip f.execution.symbol ≠ ""
      rw [h_key.symbol]
      exact h_spelled.nonblank
    · simp only [h_key.symbol, h_spelled.stored]
      rfl
  have h_change : Change tenantId strategyId (upper symbol)
      (openedRow f (upper symbol)).signedSize (openedRow f (upper symbol)).cashValue table
      (table.put (openedRow f (upper symbol))) :=
    change_create h_book h_none h_fresh ⟨h_key.tenant, h_key.strategy, rfl⟩ h_key.size
  have h_signed : (openedRow f (upper symbol)).signedSize = f.signedSize := by
    simp [Position.signedSize, openedRow, Fill.signedSize]
  rw [h_signed] at h_change
  rw [h_create]
  refine ⟨_, _, rfl, h_change, fun _ => ?_⟩
  simp [Position.cashValue, openedRow, Fill.cashFlow]

theorem none_open (h_book : Book tenantId strategyId (upper symbol) table)
    (h_key : ForKey tenantId strategyId symbol f) (h_same : openOn upper table f f.side = none)
    (h_other : openOn upper table f f.side.opposite = none) :
    ∀ q ∈ table.items, q.status ≠ .open := by
  intro q h_q h_open
  have h_side := openOn_eq_none h_book h_key h_same q h_q h_open
  have h_opposite := openOn_eq_none h_book h_key h_other q h_q h_open
  cases h_f : f.side <;> cases h_p : q.side <;>
    simp_all [PositionSide.opposite]

/-- A fill books its size and its cash flow on the book of its key. -/
theorem updatePositionFromFill_books (h_book : Book tenantId strategyId (upper symbol) table)
    (h_spelled : Spelled upper symbol) (h_key : ForKey tenantId strategyId symbol f)
    (h_precise : Precise upper table f) (h_fresh : Fresh upper table f) :
    ∃ p moved, (updatePositionFromFill upper table f).2 = .ok (some p) ∧
      Change tenantId strategyId (upper symbol) f.signedSize moved table
        (updatePositionFromFill upper table f).1 ∧
      (ExactAverage upper table f → moved = f.cashFlow) := by
  have h_of_books : ∀ {result exact}, Books tenantId strategyId (upper symbol) f.signedSize
      exact f.cashFlow table result → (ExactAverage upper table f → exact) →
      ∃ p moved, (result.2.map some = .ok (some p)) ∧
        Change tenantId strategyId (upper symbol) f.signedSize moved table result.1 ∧
        (ExactAverage upper table f → moved = f.cashFlow) := by
    rintro result exact ⟨p, moved, h_ok, h_change, h_cash⟩ h_exact
    exact ⟨p, moved, by rw [h_ok]; rfl, h_change, fun h => h_cash (h_exact h)⟩
  unfold updatePositionFromFill
  rw [if_neg (not_le.mpr h_key.size)]
  unfold Precise at h_precise
  unfold Fresh at h_fresh
  cases h_same : openOn upper table f f.side with
  | some p =>
    simp only [h_same] at h_precise ⊢
    obtain ⟨h_p, h_open, h_side⟩ := openOn_eq_some h_same
    have h_books := updatePositionIncremental_books h_book h_p h_open h_key.size h_precise.1
      h_precise.2
    rw [h_side] at h_books
    exact h_of_books h_books fun h_exact => h_exact p h_same
  | none =>
    simp only [h_same] at h_precise h_fresh ⊢
    cases h_other : openOn upper table f f.side.opposite with
    | none =>
      simp only [h_other] at h_fresh ⊢
      exact h_of_books (create_books h_book h_spelled h_key
        (none_open h_book h_key h_same h_other) h_fresh True) fun _ => trivial
    | some p =>
      simp only [h_other] at h_precise h_fresh ⊢
      obtain ⟨h_p, h_open, h_side⟩ := openOn_eq_some h_other
      obtain ⟨h_size, h_pnl, h_realized⟩ := h_precise
      have h_signed : -p.side.sign * f.size = f.signedSize := by
        rw [h_side, sign_opposite, neg_neg]
        rfl
      have h_cash : p.side.sign * f.size * f.price = f.cashFlow := by
        rw [h_side, sign_opposite]
        unfold Fill.cashFlow
        ring
      rw [← h_signed, ← h_cash] at h_of_books ⊢
      by_cases h_le : p.size ≤ f.size
      · rw [min_eq_left h_le] at h_pnl h_realized
        exact h_of_books (close_books h_book h_spelled h_p h_open h_le h_size h_pnl h_realized
          h_fresh True) fun _ => trivial
      · rw [min_eq_right (not_le.mp h_le).le] at h_pnl h_realized
        exact h_of_books (reduce_books h_book h_p h_open (not_le.mp h_le) h_size h_pnl
          h_realized f.now True) fun _ => trivial

/-- A call that succeeds creates its position, if it creates one, under a free id. -/
theorem fresh_of_ok (h_key : ForKey tenantId strategyId symbol f) (h_precise : Precise upper table f)
    {answer : Option Position} (h_ok : (updatePositionFromFill upper table f).2 = .ok answer) :
    Fresh upper table f := by
  have h_free : ∀ {t : Table} {row : Position} {r : Option Position},
      (create upper t row).2.map some = .ok r → t.get? row.positionId = none := by
    intro t row r h
    cases h_create : create upper t row with
    | mk t' result =>
      cases result with
      | ok created => exact fresh_of_create h_create
      | error e =>
        rw [h_create] at h
        cases h
  unfold updatePositionFromFill at h_ok
  rw [if_neg (not_le.mpr h_key.size)] at h_ok
  unfold Precise at h_precise
  unfold Fresh
  cases h_same : openOn upper table f f.side with
  | some p => trivial
  | none =>
    simp only [h_same] at h_ok h_precise ⊢
    cases h_other : openOn upper table f f.side.opposite with
    | none =>
      simp only [h_other] at h_ok ⊢
      exact h_free h_ok
    | some p =>
      simp only [h_other] at h_ok h_precise ⊢
      intro h_lt
      obtain ⟨h_p, h_open, -⟩ := openOn_eq_some h_other
      obtain ⟨h_size, h_pnl, h_realized⟩ := h_precise
      rw [min_eq_left h_lt.le] at h_pnl h_realized
      have h_diff : Context.default.sub f.size p.size = f.size - p.size := by
        have h_neg := h_size.neg
        rw [neg_sub] at h_neg
        exact Context.round_of_representable h_neg
      have h_sum : Context.default.add p.realizedPnl (closingPnl p p.size f.price)
          = p.realizedPnl + closingPnl p p.size f.price :=
        Context.round_of_representable h_realized
      have h_close : closePosition table p (p.realizedPnl + closingPnl p p.size f.price)
          = (table.put (closedRow p f.price), .ok (closedRow p f.price)) := update_of_mem h_p _
      rw [handlePositionReduction, if_pos h_lt.le, h_pnl] at h_ok
      simp only [h_sum, h_diff, h_close, sub_pos, if_pos h_lt] at h_ok
      have h_free_id : KeyedList.get? (table.put (closedRow p f.price))
          ("pos_" ++ ("flip_" ++ p.positionId ++ "_" ++ f.now)) = none := h_free h_ok
      rw [KeyedList.get?_put] at h_free_id
      split at h_free_id
      · cases h_free_id
      · exact h_free_id

/-! ## Sequences of fills -/

section Run

variable (upper : String → String)

/-- A call that raises leaves the table as far as it got. -/
abbrev transition (table : Table) (f : Fill) : Except Empty Table :=
  .ok (updatePositionFromFill upper table f).1

abbrev run (fills : List Fill) : Table := Run.final (transition upper) .empty fills

/-- `M` holds of every fill of a sequence on the table that it meets. -/
abbrev Throughout (M : Table → Fill → Prop) (fills : List Fill) : Prop :=
  Run.Throughout (transition upper) M .empty fills

theorem run_append_singleton (fills : List Fill) (f : Fill) :
    run upper (fills ++ [f]) = (updatePositionFromFill upper (run upper fills) f).1 := by
  show Run.final _ _ _ = _
  unfold Run.final
  rw [List.foldl_append]
  rfl

/-- The signed size of a sequence of fills: what was bought less what was sold. -/
def netFilled (fills : List Fill) : ℚ := (fills.map Fill.signedSize).sum

/-- The cash of a sequence of fills: what the sales brought less what the purchases cost. -/
def cashFilled (fills : List Fill) : ℚ := (fills.map Fill.cashFlow).sum

/-- The positions follow the fills: every call succeeds, at most one position is open, its
    signed size is the net of the fills, and where every average entry price is exact, the
    realized profit and the unrealized profit at any mark price add up to the cash of the
    fills and the net size at that price. -/
structure PositionsFollowFills (fills : List Fill) : Prop where
  succeeds : Throughout upper
    (fun table f => ∃ answer, (updatePositionFromFill upper table f).2 = .ok answer) fills
  single : ∀ pre, pre <+: fills → (openPositions (run upper pre)).length ≤ 1
  net : ∀ pre, pre <+: fills → netSize (run upper pre) = netFilled pre
  conserved : Throughout upper (ExactAverage upper) fills → ∀ pre, pre <+: fills → ∀ mark,
    realized (run upper pre)
        + ((openPositions (run upper pre)).map fun p => p.unrealizedAt mark).sum
      = cashFilled pre + netFilled pre * mark

end Run

theorem empty_book : Book tenantId strategyId symbol .empty := by
  refine ⟨nofun, nofun, nofun⟩

theorem run_books (h_spelled : Spelled upper symbol) {fills : List Fill}
    (h_key : ∀ f ∈ fills, ForKey tenantId strategyId symbol f)
    (h_precise : Throughout upper (Precise upper) fills)
    (h_fresh : Throughout upper (Fresh upper) fills) :
    Book tenantId strategyId (upper symbol) (run upper fills) ∧
      netSize (run upper fills) = netFilled fills ∧
      (Throughout upper (ExactAverage upper) fills →
        cashValue (run upper fills) = cashFilled fills) := by
  induction fills using List.reverseRecOn with
  | nil => exact ⟨empty_book, rfl, fun _ => rfl⟩
  | append_singleton fills f ih =>
    obtain ⟨h_book, h_net, h_cash⟩ := ih (fun g h_g => h_key g (List.mem_append_left _ h_g))
      h_precise.of_prefix h_fresh.of_prefix
    obtain ⟨p, moved, -, h_change, h_moved⟩ := updatePositionFromFill_books h_book h_spelled
      (h_key f (by simp)) (h_precise fills f [] rfl) (h_fresh fills f [] rfl)
    rw [run_append_singleton]
    refine ⟨h_change.book, ?_, fun h_exact => ?_⟩
    · rw [h_change.net, h_net]
      simp [netFilled]
    · rw [h_change.cash, h_cash h_exact.of_prefix, h_moved (h_exact fills f [] rfl)]
      simp [cashFilled]

/-- Where the digits suffice and the symbol is stored as it is looked up, the positions of a
    key follow its fills exactly when every fill that opens a position finds the id that the
    position gets from its execution free. -/
theorem positionsFollowFills_iff (upper : String → String)
    (tenantId strategyId symbol : String) (fills : List Fill) (h_spelled : Spelled upper symbol)
    (h_key : ∀ f ∈ fills, ForKey tenantId strategyId symbol f)
    (h_precise : Throughout upper (Precise upper) fills) :
    PositionsFollowFills upper fills ↔ Throughout upper (Fresh upper) fills := by
  constructor
  · intro h pre f post h_fills
    obtain ⟨answer, h_ok⟩ := h.succeeds pre f post h_fills
    exact fresh_of_ok (h_key f (by simp [h_fills])) (h_precise pre f post h_fills) h_ok
  · intro h
    have h_run : ∀ {pre rest : List Fill}, fills = pre ++ rest →
        Book tenantId strategyId (upper symbol) (run upper pre) ∧
          netSize (run upper pre) = netFilled pre ∧
          (Throughout upper (ExactAverage upper) pre →
            cashValue (run upper pre) = cashFilled pre) := by
      rintro pre rest rfl
      exact run_books h_spelled (fun f h_f => h_key f (List.mem_append_left _ h_f))
        h_precise.of_prefix h.of_prefix
    refine ⟨?_, ?_, ?_, ?_⟩
    · intro pre f post h_fills
      obtain ⟨p, -, h_ok, -⟩ := updatePositionFromFill_books (h_run h_fills).1 h_spelled
        (h_key f (by simp [h_fills])) (h_precise pre f post h_fills) (h pre f post h_fills)
      exact ⟨some p, h_ok⟩
    · rintro pre ⟨rest, h_fills⟩
      exact (h_run h_fills.symm).1.length_openPositions_le
    · rintro pre ⟨rest, h_fills⟩
      exact (h_run h_fills.symm).2.1
    · rintro h_exact pre ⟨rest, rfl⟩ mark
      rw [realized_add_unrealized, (h_run rfl).2.1, (h_run rfl).2.2 h_exact.of_prefix]

def asciiUpper (text : String) : String := String.ofList (text.toList.map Char.toUpper)

/-- One unit bought or sold by an execution. -/
def unitFill (executionId side : String) (price : ℚ) : Fill where
  execution := ⟨executionId, "tenant", "strategy", "BTCUSDT", side, 2, none, none⟩
  fillSize := some 1
  fillPrice := some price
  now := "1700000000.5"

/-- An execution buys a unit, another one sells it, and the first one delivers its second
    partial fill. -/
def lateFill : List Fill :=
  [unitFill "exec_1" "buy" 100, unitFill "exec_2" "sell" 110, unitFill "exec_1" "buy" 105]

theorem lateFill_spelled : Spelled asciiUpper "BTCUSDT" :=
  ⟨by decide +kernel, by decide +kernel, by decide +kernel, by decide +kernel⟩

theorem lateFill_forKey : ∀ f ∈ lateFill, ForKey "tenant" "strategy" "BTCUSDT" f := by
  intro f h_f
  simp only [lateFill, List.mem_cons, List.not_mem_nil, or_false] at h_f
  rcases h_f with rfl | rfl | rfl
  · exact ⟨rfl, rfl, rfl, by decide +kernel, by decide +kernel⟩
  · exact ⟨rfl, rfl, rfl, by decide +kernel, by decide +kernel⟩
  · exact ⟨rfl, rfl, rfl, by decide +kernel, by decide +kernel⟩

theorem lateFill_precise : Throughout asciiUpper (Precise asciiUpper) lateFill := by
  simp only [Throughout, lateFill, Run.throughout_cons]
  refine ⟨?_, ?_, ?_, Run.throughout_nil⟩
  · decide +kernel
  · decide +kernel
  · decide +kernel

/-- The late fill decides whether the positions follow the three fills. -/
theorem lateFill_iff :
    PositionsFollowFills asciiUpper lateFill ↔
      Throughout asciiUpper (Fresh asciiUpper) lateFill :=
  positionsFollowFills_iff asciiUpper "tenant" "strategy" "BTCUSDT" lateFill lateFill_spelled
    lateFill_forKey lateFill_precise

/-- The late fill finds the id of the closed position taken and is refused. -/
theorem not_positionsFollowFills :
    ¬ ∀ upper tenantId strategyId symbol fills, Spelled upper symbol →
      (∀ f ∈ fills, ForKey tenantId strategyId symbol f) →
        PositionsFollowFills upper fills := by
  intro h
  have h_succeeds := (h asciiUpper "tenant" "strategy" "BTCUSDT" lateFill lateFill_spelled
    lateFill_forKey).succeeds
  obtain ⟨answer, h_ok⟩ := h_succeeds [unitFill "exec_1" "buy" 100, unitFill "exec_2" "sell" 110]
    (unitFill "exec_1" "buy" 105) [] rfl
  have h_refused : (updatePositionFromFill asciiUpper (run asciiUpper
      [unitFill "exec_1" "buy" 100, unitFill "exec_2" "sell" 110])
      (unitFill "exec_1" "buy" 105)).2.toOption.isNone := by decide +kernel
  rw [h_ok] at h_refused
  cases h_refused

end VyomQuant.PositionEngine
