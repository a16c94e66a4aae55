/-
  VyomQuant.Execution.PositionStatements

  The position engine as the statements that it issues: every call of the
  repository commits on its own, a row is read back after each commit, and the
  trade history is written in commits of its own, whose failures are swallowed.

  A fill is all or nothing under the failure of a statement exactly where the
  engine raises before its first commit (`allOrNothing_iff`).  The flip of a
  position commits the close before it opens the other side, and every row is read
  back after its commit, so a failure there raises with the row already written.
-/

import VyomQuant.Execution.PositionEngine
import VyomQuant.Lib.Commits

namespace VyomQuant.PositionStatements

open Decimal PositionEngine Program

deriving instance DecidableEq for Position

/-! ## The statements -/

/-- `close_reason`. -/
inductive CloseReason where
  | positionFlipClose
  | fullClose
  | positionFlipOpen
  | partialClose
  deriving DecidableEq

/-- A row of the trade history; the position is the one that its `trade_id` names. -/
structure Trade where
  positionId : String
  tenantId : String
  strategyId : String
  symbol : String
  side : PositionSide
  entryPrice : ℚ
  exitPrice : ℚ
  size : ℚ
  realizedPnl : ℚ
  closeReason : CloseReason

/-- The two tables. -/
structure Store where
  positions : Table
  trades : List Trade

/-- What the engine sends to the database; a write stands for its flush and its commit. -/
inductive Statement where
  | findOpenPosition (tenantId strategyId symbol : String) (side : PositionSide)
  | getById (positionId tenantId : String)
  | insertPosition (row : Position)
  | updatePosition (row : Position)
  | loadPosition (positionId : String)
  | insertTrade (trade : Trade)
  | loadTrade (trade : Trade)

abbrev Answer : Statement → Type
  | .findOpenPosition .. => Option Position
  | .getById .. => Option Position
  | _ => Unit

/-- What a call raises: a refusal, or the failure of a statement. -/
inductive Failure where
  | refused (e : Refusal)
  | database

variable (upper : String → String)

def handle : Handler Answer Failure Store
  | .findOpenPosition tenantId strategyId symbol side, s =>
    (.ok (findOpenPosition upper s.positions tenantId strategyId symbol side), s)
  | .getById positionId tenantId, s => (.ok (getById s.positions positionId tenantId), s)
  | .insertPosition row, s =>
    match s.positions.get? row.positionId with
    | some _ => (.error (.refused .integrityError), s)
    | none => (.ok (), { s with positions := s.positions.put row })
  | .updatePosition row, s => (.ok (), { s with positions := s.positions.put row })
  | .loadPosition _, s => (.ok (), s)
  | .insertTrade trade, s => (.ok (), { s with trades := s.trades ++ [trade] })
  | .loadTrade _, s => (.ok (), s)

/-- The session of the caller: whether a commit expires what was read
    (`expire_on_commit`), so that the next look at an attribute is a statement, and whether
    it can still be read after a write that failed. -/
structure Session where
  expires : Bool
  survives : Bool

/-! ## The engine -/

abbrev Issuing (α : Type) := Program Answer Failure α

/-- The validators of `TradeCreate`. -/
def Recordable (p : Position) : Prop :=
  StrategyDag.strip p.strategyId ≠ "" ∧ StrategyDag.strip p.symbol ≠ ""

instance (p : Position) : Decidable (Recordable p) := inferInstanceAs (Decidable (_ ∧ _))

/-- The row that `_record_trade` writes about a position. -/
def tradeOf (p : Position) (exitPrice exitSize realizedPnl : ℚ) (closeReason : CloseReason) :
    Trade where
  positionId := p.positionId
  tenantId := p.tenantId
  strategyId := p.strategyId
  symbol := p.symbol
  side := p.side
  entryPrice := p.avgEntryPrice
  exitPrice := exitPrice
  size := exitSize
  realizedPnl := realizedPnl
  closeReason := closeReason

variable (session : Session)

/-- `_record_trade`: the log line of the failure looks at the position again. -/
def recordTrade (p : Position) (trade : Trade) : Issuing Unit :=
  if Recordable p then
    ((perform (.insertTrade trade)).bind fun _ =>
      if session.expires then
        (perform (.loadTrade trade)).bind fun _ =>
          (perform (.loadPosition p.positionId)).bind fun _ => ret ()
      else ret ()).tryCatch fun failure =>
        if session.survives then
          (perform (.loadPosition p.positionId)).bind fun _ => ret ()
        else raise failure
  else ret ()

def storedRow (p : Position) : Position :=
  { p with symbol := upper (upper (StrategyDag.strip p.symbol)) }

/-- `create`, behind the validators of `PositionCreate`. -/
def create (p : Position) : Issuing Position :=
  if StrategyDag.strip p.symbol = "" then raise (.refused .blankSymbol)
  else
    (perform (.insertPosition (storedRow upper p))).bind fun _ =>
      (perform (.loadPosition p.positionId)).bind fun _ => ret (storedRow upper p)

/-- `update` and `close_position`. -/
def update (positionId tenantId : String) (f : Position → Position) : Issuing Position :=
  (perform (Statement.getById positionId tenantId)).bind fun (found : Option Position) =>
    match found with
    | none => raise (.refused .missing)
    | some p =>
      (perform (.updatePosition (f p))).bind fun _ =>
        (perform (.loadPosition p.positionId)).bind fun _ => ret (f p)

def rowOf (execution : ExecutionRecord) (fillSize fillPrice : ℚ) (positionSide : PositionSide) :
    Position where
  positionId := "pos_" ++ execution.executionId
  tenantId := execution.tenantId
  strategyId := execution.strategyId
  symbol := execution.symbol
  side := positionSide
  size := fillSize
  avgEntryPrice := fillPrice
  unrealizedPnl := 0
  realizedPnl := 0
  status := .open

/-- `_create_position_from_fill`. -/
def createPositionFromFill (execution : ExecutionRecord) (fillSize fillPrice : ℚ)
    (positionSide : PositionSide) : Issuing Position :=
  create upper (rowOf execution fillSize fillPrice positionSide)

/-- `_update_position_incremental`. -/
def updatePositionIncremental (position : Position) (fillSize fillPrice : ℚ) :
    Issuing Position :=
  match calculateNewAvgEntry position.size position.avgEntryPrice fillSize fillPrice with
  | none => raise (.refused .invalidOperation)
  | some newAvgPrice =>
    update position.positionId position.tenantId fun row =>
      { row with
        size := Context.default.add position.size fillSize
        avgEntryPrice := newAvgPrice
        realizedPnl := position.realizedPnl }

/-- `close_position`. -/
def closePosition (position : Position) (finalRealizedPnl : ℚ) : Issuing Position :=
  update position.positionId position.tenantId fun row =>
    { row with
      size := 0
      unrealizedPnl := 0
      realizedPnl := finalRealizedPnl
      status := .closed }

/-- `_handle_position_reduction`; the last log line of a flip looks at the closed position. -/
def handlePositionReduction (position : Position) (reducingSize reducingPrice : ℚ)
    (now : String) : Issuing Position :=
  if position.size ≤ reducingSize then
    match calculateRealizedPnl position.size reducingPrice position.avgEntryPrice
        position.side with
    | none => raise (.refused .invalidOperation)
    | some closingPnl =>
      let totalRealizedPnl := Context.default.add position.realizedPnl closingPnl
      let flipSize := Context.default.sub reducingSize position.size
      if 0 < flipSize then
        (closePosition position totalRealizedPnl).bind fun _ =>
          (recordTrade session position (tradeOf position reducingPrice position.size
            totalRealizedPnl .positionFlipClose)).bind fun _ =>
            (createPositionFromFill upper (flipExecution position now flipSize reducingPrice)
              flipSize reducingPrice position.side.opposite).bind fun flipped =>
              (recordTrade session flipped (tradeOf flipped reducingPrice flipSize 0
                .positionFlipOpen)).bind fun _ =>
                if session.expires then
                  (perform (.loadPosition position.positionId)).bind fun _ => ret flipped
                else ret flipped
      else
        (closePosition position totalRealizedPnl).bind fun closed =>
          (recordTrade session position (tradeOf position reducingPrice position.size
            totalRealizedPnl .fullClose)).bind fun _ => ret closed
  else
    match calculateRealizedPnl reducingSize reducingPrice position.avgEntryPrice
        position.side with
    | none => raise (.refused .invalidOperation)
    | some closingPnl =>
      (update position.positionId position.tenantId fun row =>
        { row with
          size := Context.default.sub position.size reducingSize
          realizedPnl := Context.default.add position.realizedPnl closingPnl }).bind fun updated =>
        (recordTrade session position (tradeOf position reducingPrice reducingSize closingPnl
          .partialClose)).bind fun _ => ret updated

/-- `find_open_position` of a fill's key on a side. -/
def findOn (f : Fill) (side : PositionSide) : Issuing (Option Position) :=
  perform (Statement.findOpenPosition f.execution.tenantId f.execution.strategyId f.execution.symbol side)

/-- `update_position_from_fill`. -/
def updatePositionFromFill (f : Fill) : Issuing (Option Position) :=
  if f.size ≤ 0 then ret none
  else
    (findOn f f.side).bind fun existing =>
      match existing with
      | some position =>
        (updatePositionIncremental position f.size f.price).bind fun row => ret (some row)
      | none =>
        (findOn f f.side.opposite).bind fun other =>
          match other with
          | some position =>
            (handlePositionReduction upper session position f.size f.price f.now).bind
              fun row => ret (some row)
          | none =>
            (createPositionFromFill upper f.execution f.size f.price f.side).bind
              fun row => ret (some row)

/-! ## Without failures -/

/-- What a reduction writes to the trade history. -/
def reductionTrades (table : Table) (position : Position) (reducingSize reducingPrice : ℚ)
    (now : String) : List Trade :=
  if position.size ≤ reducingSize then
    match calculateRealizedPnl position.size reducingPrice position.avgEntryPrice
        position.side with
    | none => []
    | some closingPnl =>
      let totalRealizedPnl := Context.default.add position.realizedPnl closingPnl
      let flipSize := Context.default.sub reducingSize position.size
      let closing := tradeOf position reducingPrice position.size totalRealizedPnl
      if 0 < flipSize then
        closing .positionFlipClose ::
          match (PositionEngine.createPositionFromFill upper
              (PositionEngine.closePosition table position totalRealizedPnl).1
              (flipExecution position now flipSize reducingPrice) flipSize reducingPrice
              position.side.opposite).2 with
          | .ok flipped => [tradeOf flipped reducingPrice flipSize 0 .positionFlipOpen]
          | .error _ => []
      else [closing .fullClose]
  else
    match calculateRealizedPnl reducingSize reducingPrice position.avgEntryPrice
        position.side with
    | none => []
    | some closingPnl =>
      [tradeOf position reducingPrice reducingSize closingPnl .partialClose]

/-- What a fill writes to the trade history. -/
def tradesOf (table : Table) (f : Fill) : List Trade :=
  if f.size ≤ 0 then []
  else
    match openOn upper table f f.side with
    | some _ => []
    | none =>
      match openOn upper table f f.side.opposite with
      | some position => reductionTrades upper table position f.size f.price f.now
      | none => []

/-- The validators of `TradeCreate`, of a row of the history. -/
def Trade.Recordable (t : Trade) : Prop :=
  StrategyDag.strip t.strategyId ≠ "" ∧ StrategyDag.strip t.symbol ≠ ""

instance (t : Trade) : Decidable t.Recordable := inferInstanceAs (Decidable (_ ∧ _))

/-- The rows that pass the validators. -/
def recorded (trades : List Trade) : List Trade := trades.filter fun t => t.Recordable

variable {upper session}

theorem run_update {s : Store} {p : Position} (h_p : p ∈ s.positions.items)
    (g : Position → Position) :
    (update p.positionId p.tenantId g).run (handle upper) s
      = (.ok (g p), { s with positions := s.positions.put (g p) }) := by
  have h_get : getById s.positions p.positionId p.tenantId = some p := by
    rw [getById, KeyedList.get?_key_of_mem h_p]
    simp
  simp [update, perform, handle, h_get]

theorem run_create (s : Store) (p : Position) :
    (create upper p).run (handle upper) s
      = ((PositionEngine.create upper s.positions p).2.mapError .refused,
          { s with positions := (PositionEngine.create upper s.positions p).1 }) := by
  unfold create PositionEngine.create
  split
  · rfl
  · cases h : s.positions.get? p.positionId with
    | none => simp [perform, handle, storedRow, h, Except.mapError]
    | some q => simp [perform, handle, storedRow, h, Except.mapError]

theorem run_recordTrade (s : Store) (p : Position) (exitPrice exitSize pnl : ℚ)
    (reason : CloseReason) :
    (recordTrade session p (tradeOf p exitPrice exitSize pnl reason)).run (handle upper) s
      = (.ok (), { s with
          trades := s.trades ++ recorded [tradeOf p exitPrice exitSize pnl reason] }) := by
  unfold recordTrade
  by_cases h : Recordable p
  · have h_row : (tradeOf p exitPrice exitSize pnl reason).Recordable := h
    rw [if_pos h]
    cases session.expires with
    | true => simp [perform, handle, recorded, h_row]
    | false => simp [perform, handle, recorded, h_row]
  · have h_row : ¬ (tradeOf p exitPrice exitSize pnl reason).Recordable := h
    rw [if_neg h]
    simp [recorded, h_row]

theorem recorded_nil : recorded [] = [] := rfl

theorem recorded_pair (t u : Trade) : recorded [t, u] = recorded [t] ++ recorded [u] :=
  List.filter_append [t] [u]

theorem run_reduce {s : Store} {p : Position} (h_p : p ∈ s.positions.items) (q price : ℚ)
    (now : String) :
    (handlePositionReduction upper session p q price now).run (handle upper) s
      = ((PositionEngine.handlePositionReduction upper s.positions p q price now).2.mapError
            .refused,
          { positions :=
              (PositionEngine.handlePositionReduction upper s.positions p q price now).1
            trades := s.trades ++ recorded (reductionTrades upper s.positions p q price now) }) := by
  unfold handlePositionReduction PositionEngine.handlePositionReduction reductionTrades
  by_cases h_full : p.size ≤ q
  · simp only [if_pos h_full]
    cases h_pnl : calculateRealizedPnl p.size price p.avgEntryPrice p.side with
    | none => simp [recorded_nil, Except.mapError]
    | some closing =>
      have h_close : PositionEngine.closePosition s.positions p
          (Context.default.add p.realizedPnl closing) = _ := update_of_mem h_p _
      simp only [h_close]
      by_cases h_flip : 0 < Context.default.sub q p.size
      · simp only [if_pos h_flip]
        rw [run_bind, closePosition, run_update h_p]
        simp only [run_bind, run_recordTrade, createPositionFromFill, run_create]
        unfold PositionEngine.createPositionFromFill rowOf
        rcases PositionEngine.create upper _ _ with ⟨table, e | flipped⟩
        · simp [Except.mapError]
        · cases session.expires with
          | true => simp [Except.mapError, perform, handle, recorded_pair]
          | false => simp [Except.mapError, recorded_pair]
      · simp only [if_neg h_flip]
        rw [run_bind, closePosition, run_update h_p]
        simp only [run_bind, run_recordTrade]
        simp [Except.mapError]
  · simp only [if_neg h_full]
    cases h_pnl : calculateRealizedPnl q price p.avgEntryPrice p.side with
    | none => simp [recorded_nil, Except.mapError]
    | some closing =>
      simp only [update_of_mem h_p]
      rw [run_bind, run_update h_p]
      simp only [run_bind, run_recordTrade]
      simp [Except.mapError]

/-- Without failures the statements do to the positions what the engine does, and write the
    trades that pass the validators. -/
theorem run_updatePositionFromFill (s : Store) (f : Fill) :
    (updatePositionFromFill upper session f).run (handle upper) s
      = ((PositionEngine.updatePositionFromFill upper s.positions f).2.mapError .refused,
          { positions := (PositionEngine.updatePositionFromFill upper s.positions f).1
            trades := s.trades ++ recorded (tradesOf upper s.positions f) }) := by
  unfold updatePositionFromFill PositionEngine.updatePositionFromFill tradesOf
  by_cases h_size : f.size ≤ 0
  · simp [if_pos h_size, recorded_nil, Except.mapError]
  · have h_find : ∀ side, (findOn f side).run (handle upper) s
        = (.ok (openOn upper s.positions f side), s) := fun side => rfl
    simp only [if_neg h_size]
    rw [run_bind, h_find]
    cases h_own : openOn upper s.positions f f.side with
    | some p =>
      have h_p := (openOn_eq_some h_own).1
      simp only [updatePositionIncremental, PositionEngine.updatePositionIncremental]
      cases calculateNewAvgEntry p.size p.avgEntryPrice f.size f.price with
      | none => simp [recorded_nil, Except.mapError, Except.map]
      | some avg =>
        simp only [update_of_mem h_p]
        rw [run_bind, run_update h_p]
        simp [recorded_nil, Except.mapError, Except.map]
    | none =>
      simp only []
      rw [run_bind, h_find]
      cases h_other : openOn upper s.positions f f.side.opposite with
      | some p =>
        simp only []
        rw [run_bind, run_reduce (openOn_eq_some h_other).1]
        rcases PositionEngine.handlePositionReduction upper s.positions p f.size f.price f.now
          with ⟨table, e | row⟩
        · rfl
        · rfl
      | none =>
        simp only []
        rw [run_bind, createPositionFromFill, run_create]
        unfold PositionEngine.createPositionFromFill rowOf
        rcases PositionEngine.create upper _ _ with ⟨table, e | row⟩
        · simp [recorded_nil, Except.mapError, Except.map]
        · simp [recorded_nil, Except.mapError, Except.map]

/-! ## What a failure leaves behind -/

section Effects

variable (upper session)

/-- What the writes of the trade history are to a call. -/
def auditEffects (p : Position) : List Effect :=
  if Recordable p then List.replicate (if session.expires then 3 else 1) .audits else []

/-- An update that leaves the row as it is does not show. -/
def writeEffect (old new : Position) : Effect := if new = old then .reads else .commits

def creationEffects (table : Table) (row : Position) (rest : List Effect) : List Effect :=
  if StrategyDag.strip row.symbol = "" then [.refuses]
  else if (table.get? row.positionId).isSome then [.refuses]
  else .commits :: .reads :: rest

/-- An update of a row, and what follows it. -/
def updateEffects (old new : Position) (rest : List Effect) : List Effect :=
  .reads :: writeEffect old new :: .reads :: rest

/-- The row that the flip of a position creates, as it is handed to `create`. -/
def flipRow (p : Position) (q price : ℚ) (now : String) : Position :=
  let flipSize := Context.default.sub q p.size
  rowOf (flipExecution p now flipSize price) flipSize price p.side.opposite

def reductionEffects (table : Table) (p : Position) (q price : ℚ) (now : String) :
    List Effect :=
  if p.size ≤ q then
    match calculateRealizedPnl p.size price p.avgEntryPrice p.side with
    | none => [.refuses]
    | some _ =>
      .reads :: .commits :: .reads :: (auditEffects session p ++
        if 0 < Context.default.sub q p.size then
          creationEffects table (flipRow p q price now)
            (auditEffects session (storedRow upper (flipRow p q price now)) ++
              if session.expires then [.reads] else [])
        else [])
  else
    match calculateRealizedPnl q price p.avgEntryPrice p.side with
    | none => [.refuses]
    | some closing =>
      updateEffects p
        { p with
          size := Context.default.sub p.size q
          realizedPnl := Context.default.add p.realizedPnl closing }
        (auditEffects session p)

def fillEffects (table : Table) (f : Fill) : List Effect :=
  if f.size ≤ 0 then []
  else
    .reads ::
      match openOn upper table f f.side with
      | some p =>
        match calculateNewAvgEntry p.size p.avgEntryPrice f.size f.price with
        | none => [.refuses]
        | some avg =>
          updateEffects p
            { p with
              size := Context.default.add p.size f.size
              avgEntryPrice := avg
              realizedPnl := p.realizedPnl } []
      | none =>
        .reads ::
          match openOn upper table f f.side.opposite with
          | some p => reductionEffects upper session table p f.size f.price f.now
          | none => creationEffects table (rowOf f.execution f.size f.price f.side) []

/-- The program has these effects on the positions, starting from `base`. -/
abbrev Effects {α : Type} (fault : ℕ) (base : Table) :
    Issuing α → Store → List Effect → Prop :=
  Script (handle upper) .database fault session.survives Store.positions base

end Effects

variable {α : Type} {fault : ℕ} {base : Table} {s : Store} {p : Position}

theorem runWith_recover (p : Position) (n : ℕ) (s : Store) (h_n : n ≠ fault) :
    ∃ n', n ≤ n' ∧
      (if session.survives then
          (perform (.loadPosition p.positionId)).bind fun _ => ret ()
        else raise .database : Issuing Unit).runWith (handle upper) (failAt .database fault) n s
      = (if session.survives then .ok () else .error .database, n', s) := by
  cases session.survives with
  | true =>
    refine ⟨n + 1, by omega, ?_⟩
    rw [if_pos rfl, if_pos rfl, runWith_failAt, if_neg h_n]
    rfl
  | false => exact ⟨n, le_rfl, rfl⟩

theorem handles_recordTrade (h : Recordable p) (trade : Trade) :
    Handles (handle upper) .database fault session.survives Store.positions
      (recordTrade session p trade) (if session.expires then 3 else 1) := by
  intro n s
  have h_recover := @runWith_recover upper session fault p
  unfold recordTrade
  rw [if_pos h, runWith_tryCatch, runWith_failAt]
  by_cases h_insert : n = fault
  · obtain ⟨n', h_le, h_run⟩ := h_recover (n + 1) s (by omega)
    refine ⟨n', s, rfl, fun _ => ⟨by omega, ?_⟩, fun h_fault => ?_⟩
    · rw [if_pos h_insert]
      exact h_run
    · exact absurd ⟨by omega, by split <;> omega⟩ h_fault
  rw [if_neg h_insert]
  cases h_expires : session.expires with
  | false =>
    refine ⟨n + 1, { s with trades := s.trades ++ [trade] }, rfl, fun h_fault => ?_, fun _ => ?_⟩
    · simp only [Bool.false_eq_true, if_false] at h_fault
      omega
    · exact ⟨rfl, rfl⟩
  | true =>
    simp only [handle, if_true, runWith_failAt]
    by_cases h_trade : n + 1 = fault
    · obtain ⟨n', h_le, h_run⟩ := h_recover (n + 2) { s with trades := s.trades ++ [trade] }
        (by omega)
      refine ⟨n', { s with trades := s.trades ++ [trade] }, rfl, fun _ => ⟨by omega, ?_⟩,
        fun h_fault => absurd ⟨by omega, by omega⟩ h_fault⟩
      rw [if_pos h_trade]
      exact h_run
    by_cases h_position : n + 2 = fault
    · obtain ⟨n', h_le, h_run⟩ := h_recover (n + 3) { s with trades := s.trades ++ [trade] }
        (by omega)
      refine ⟨n', { s with trades := s.trades ++ [trade] }, rfl, fun _ => ⟨by omega, ?_⟩,
        fun h_fault => absurd ⟨by omega, by omega⟩ h_fault⟩
      rw [if_neg h_trade, if_pos h_position]
      exact h_run
    · refine ⟨n + 3, { s with trades := s.trades ++ [trade] }, rfl, fun h_fault => (by omega),
        fun _ => ⟨rfl, ?_⟩⟩
      rw [if_neg h_trade, if_neg h_position]
      rfl

variable {rest : List Effect}

theorem effects_recordTrade {f : Unit → Issuing α} (trade : Trade)
    (h_rest : ∀ s' : Store, s'.positions = s.positions → Effects upper session fault base (f ()) s' rest) :
    Effects upper session fault base ((recordTrade session p trade).bind f) s
      (auditEffects session p ++ rest) := by
  unfold auditEffects
  by_cases h : Recordable p
  · rw [if_pos h]
    exact .audit (handles_recordTrade h trade) h_rest
  · rw [if_neg h, recordTrade, if_neg h]
    exact h_rest s rfl

variable {f : Position → Issuing α}

theorem effects_update {g : Position → Position} (h_p : p ∈ s.positions.items)
    (h_id : (g p).positionId = p.positionId) (h_base : s.positions = base)
    (h_rest : Effects upper session fault base (f (g p)) { s with positions := s.positions.put (g p) } rest) :
    Effects upper session fault base ((update p.positionId p.tenantId g).bind f) s
      (updateEffects p (g p) rest) := by
  have h_get : handle upper (.getById p.positionId p.tenantId) s = (.ok (some p), s) := by
    simp [handle, getById, KeyedList.get?_key_of_mem h_p]
  rw [update, Program.bind_assoc]
  refine .read h_get Iff.rfl ?_
  rw [Program.bind_assoc]
  unfold writeEffect
  by_cases h : g p = p
  · rw [if_pos h]
    refine .read rfl ?_ ?_
    · show s.positions.put (g p) = base ↔ _
      rw [h, KeyedList.put_of_mem h_p]
    · rw [Program.bind_assoc]
      exact .read rfl Iff.rfl h_rest
  · rw [if_neg h]
    refine .commit rfl ?_ ?_
    · rw [← h_base]
      exact KeyedList.put_ne_self h_p h_id h
    · rw [Program.bind_assoc]
      exact .read rfl Iff.rfl h_rest

theorem effects_create {row : Position}
    (h_taken : (s.positions.get? row.positionId).isSome = (base.get? row.positionId).isSome)
    (h_rest : Effects upper session fault base (f (storedRow upper row)) { s with positions := s.positions.put (storedRow upper row) } rest) :
    Effects upper session fault base ((create upper row).bind f) s
      (creationEffects base row rest) := by
  unfold create creationEffects
  by_cases h_blank : StrategyDag.strip row.symbol = ""
  · rw [if_pos h_blank, if_pos h_blank]
    exact .raise _ _
  · rw [if_neg h_blank, if_neg h_blank, Program.bind_assoc, ← h_taken]
    cases h_get : s.positions.get? row.positionId with
    | some q =>
      refine .refuse (e := .refused .integrityError) _ ?_
      simp [handle, storedRow, h_get]
    | none =>
      have h_insert : handle upper (.insertPosition (storedRow upper row)) s
          = (.ok (), { s with positions := s.positions.put (storedRow upper row) }) := by
        simp [handle, storedRow, h_get]
      refine .commit h_insert ?_ ?_
      · have h_fresh : base.get? row.positionId = none := by simpa [h_get] using h_taken.symm
        exact KeyedList.put_ne_of_fresh h_fresh
      · rw [Program.bind_assoc]
        exact .read rfl Iff.rfl h_rest

theorem effects_close {pnl : ℚ} (h_p : p ∈ s.positions.items) (h_open : p.status = .open)
    (h_base : s.positions = base)
    (h_rest : ∀ closed, closed.positionId = p.positionId → Effects upper session fault base (f closed) { s with positions := s.positions.put closed } rest) :
    Effects upper session fault base ((closePosition p pnl).bind f) s
      (.reads :: .commits :: .reads :: rest) := by
  have h_update : Effects upper session fault base ((closePosition p pnl).bind f) s
      (updateEffects p { p with
        size := 0, unrealizedPnl := 0, realizedPnl := pnl, status := .closed } rest) :=
    effects_update h_p rfl h_base (h_rest _ rfl)
  have h_shows : ({ p with
      size := 0, unrealizedPnl := 0, realizedPnl := pnl, status := .closed } : Position) ≠ p := by
    intro h_eq
    have h_status := congrArg Position.status h_eq
    rw [h_open] at h_status
    cases h_status
  unfold updateEffects writeEffect at h_update
  rw [if_neg h_shows] at h_update
  exact h_update

theorem effects_reduce (h_p : p ∈ s.positions.items) (h_open : p.status = .open)
    (h_base : s.positions = base) (h_f : ∀ row s', Effects upper session fault base (f row) s' [])
    (q price : ℚ) (now : String) :
    Effects upper session fault base
      ((handlePositionReduction upper session p q price now).bind f) s
      (reductionEffects upper session base p q price now) := by
  unfold handlePositionReduction reductionEffects
  by_cases h_full : p.size ≤ q
  · rw [if_pos h_full, if_pos h_full]
    cases calculateRealizedPnl p.size price p.avgEntryPrice p.side with
    | none => exact .raise _ _
    | some closing =>
      simp only []
      by_cases h_flip : 0 < Context.default.sub q p.size
      · rw [if_pos h_flip, if_pos h_flip, Program.bind_assoc]
        refine effects_close h_p h_open h_base fun closed h_closed => ?_
        rw [Program.bind_assoc]
        refine effects_recordTrade _ fun s' h_s' => ?_
        rw [Program.bind_assoc]
        refine effects_create ?_ ?_
        · -- the close leaves the ids as they are
          rw [h_s', KeyedList.get?_put]
          split
          · rename_i h_id
            rw [← h_base, h_id, h_closed, KeyedList.get?_key_of_mem h_p]
            rfl
          · rw [h_base]
        · rw [Program.bind_assoc]
          refine effects_recordTrade _ fun s'' _ => ?_
          cases session.expires with
          | true =>
            rw [if_pos rfl, if_pos rfl, Program.bind_assoc]
            exact .read rfl Iff.rfl (h_f _ _)
          | false => exact h_f _ _
      · rw [if_neg h_flip, if_neg h_flip, Program.bind_assoc]
        refine effects_close h_p h_open h_base fun closed _ => ?_
        rw [Program.bind_assoc]
        exact effects_recordTrade _ fun s' _ => h_f _ _
  · rw [if_neg h_full, if_neg h_full]
    cases calculateRealizedPnl q price p.avgEntryPrice p.side with
    | none => exact .raise _ _
    | some closing =>
      simp only []
      rw [Program.bind_assoc]
      refine effects_update h_p rfl h_base ?_
      rw [Program.bind_assoc, ← List.append_nil (auditEffects session p)]
      exact effects_recordTrade _ fun s' _ => h_f _ _

theorem effects_updatePositionFromFill (s : Store) (f : Fill) :
    Effects upper session fault s.positions (updatePositionFromFill upper session f) s
      (fillEffects upper session s.positions f) := by
  unfold updatePositionFromFill fillEffects
  by_cases h_size : f.size ≤ 0
  · rw [if_pos h_size, if_pos h_size]
    exact .ret _ _
  · rw [if_neg h_size, if_neg h_size]
    have h_find : ∀ side, handle upper (.findOpenPosition f.execution.tenantId
        f.execution.strategyId f.execution.symbol side) s
          = (.ok (openOn upper s.positions f side), s) := fun side => rfl
    have h_ret : ∀ (row : Position) (s' : Store),
        Effects upper session fault s.positions (ret (some row)) s' [] := fun row s' => .ret _ _
    refine .read (h_find f.side) Iff.rfl ?_
    cases h_own : openOn upper s.positions f f.side with
    | some p =>
      simp only [updatePositionIncremental]
      cases calculateNewAvgEntry p.size p.avgEntryPrice f.size f.price with
      | none => exact .raise _ _
      | some avg => exact effects_update (openOn_eq_some h_own).1 rfl rfl (h_ret _ _)
    | none =>
      refine .read (h_find f.side.opposite) Iff.rfl ?_
      cases h_other : openOn upper s.positions f f.side.opposite with
      | some p =>
        obtain ⟨h_p, h_open, -⟩ := openOn_eq_some h_other
        exact effects_reduce h_p h_open rfl h_ret f.size f.price f.now
      | none => exact effects_create rfl (h_ret _ _)

/-! ## All or nothing -/

/-- A fill under the failure of one statement, by its number: where the engine raises, the
    positions are as they were, and the fill applied again without failures answers what it
    would have answered and leaves the positions it would have left. -/
structure AllOrNothing (upper : String → String) (session : Session) (s : Store) (f : Fill)
    (fault : ℕ) : Prop where
  unchanged : ∀ e left n,
    (updatePositionFromFill upper session f).runWith (handle upper) (failAt .database fault) 0 s
      = (.error e, n, left) → left.positions = s.positions
  reapplies : ∀ e left n,
    (updatePositionFromFill upper session f).runWith (handle upper) (failAt .database fault) 0 s
      = (.error e, n, left) →
    ((updatePositionFromFill upper session f).run (handle upper) left).1
        = ((updatePositionFromFill upper session f).run (handle upper) s).1 ∧
      ((updatePositionFromFill upper session f).run (handle upper) left).2.positions
        = ((updatePositionFromFill upper session f).run (handle upper) s).2.positions

/-- A fill is all or nothing under a failure exactly where the engine does not raise, or
    raises before its first commit that shows. -/
theorem allOrNothing_iff (upper : String → String) (session : Session) (s : Store) (f : Fill)
    (fault : ℕ) :
    AllOrNothing upper session s f fault ↔
      ∀ before ∈ raisesAfter session.survives fault 0 (fillEffects upper session s.positions f),
        .commits ∉ before := by
  rw [← (effects_updatePositionFromFill s f).unchanged_iff rfl]
  constructor
  · intro h e h_error
    refine h.unchanged e _ _ (Prod.ext h_error (Prod.ext rfl rfl))
  · intro h
    have h_unchanged : ∀ e left n,
        (updatePositionFromFill upper session f).runWith (handle upper)
          (failAt .database fault) 0 s = (.error e, n, left) → left.positions = s.positions := by
      intro e left n h_run
      have h_positions := h e (by rw [h_run])
      rw [h_run] at h_positions
      exact h_positions
    refine ⟨h_unchanged, fun e left n h_run => ?_⟩
    rw [run_updatePositionFromFill, run_updatePositionFromFill, h_unchanged e left n h_run]
    exact ⟨rfl, rfl⟩

/-- One unit held, and two sold. -/
def heldUnit : Store where
  positions := (PositionEngine.updatePositionFromFill asciiUpper .empty
    (unitFill "exec_1" "buy" 100)).1
  trades := []

def sellTwo : Fill := { unitFill "exec_2" "sell" 110 with fillSize := some 2 }

/-- The insert of the flipped position fails: the held unit is closed, no short position is
    open, and the fill applied again opens one of two units. -/
theorem allOrNothing_divergence :
    ¬ ∀ upper session s f fault, AllOrNothing upper session s f fault := by
  intro h
  have h_raises : ((updatePositionFromFill asciiUpper ⟨false, true⟩ sellTwo).runWith
      (handle asciiUpper) (failAt .database 6) 0 heldUnit).1.toOption.isNone := by
    decide +kernel
  have h_closed : ((updatePositionFromFill asciiUpper ⟨false, true⟩ sellTwo).runWith
      (handle asciiUpper) (failAt .database 6) 0 heldUnit).2.2.positions.items.map
        (fun p => p.status) = [.closed] := by
    decide +kernel
  have h_open : heldUnit.positions.items.map (fun p => p.status) = [.open] := by decide +kernel
  generalize h_run : (updatePositionFromFill asciiUpper ⟨false, true⟩ sellTwo).runWith
    (handle asciiUpper) (failAt .database 6) 0 heldUnit = result at h_raises h_closed
  obtain ⟨e | answer, n, left⟩ := result
  · rw [(h asciiUpper ⟨false, true⟩ heldUnit sellTwo 6).unchanged e left n h_run, h_open]
      at h_closed
    cases h_closed
  · cases h_raises

end VyomQuant.PositionStatements
