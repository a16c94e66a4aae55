/-
  VyomQuant.Execution.TradeHistory

  The trade history beside the positions, over every sequence of fills.

  A partial close records what it realizes, and a full close or a flip records the
  total of the position.  So the rows of a position add up to what it realized
  exactly as long as no position that realized something before is closed in full
  (`tellsTheSame_iff`): the rows of the partial closes are counted twice then.
-/

import VyomQuant.Execution.PositionStatements

namespace VyomQuant.TradeHistory

open Decimal PositionEngine PositionStatements

/-! ## The ledger -/

/-- The tables, with what every fill closed of a position so far. -/
structure Ledger where
  positions : Table
  trades : List Trade
  closings : List (String × ℚ)

namespace Ledger

def empty : Ledger := ⟨.empty, [], []⟩

/-- The profit in the rows of a position. -/
def tradedPnl (trades : List Trade) (positionId : String) : ℚ :=
  ((trades.filter fun t => t.positionId = positionId).map Trade.realizedPnl).sum

/-- The size in the closing rows of a position. -/
def tradedSize (trades : List Trade) (positionId : String) : ℚ :=
  ((trades.filter fun t => t.positionId = positionId ∧ t.closeReason ≠ .positionFlipOpen).map
    Trade.size).sum

def closed (closings : List (String × ℚ)) (positionId : String) : ℚ :=
  ((closings.filter fun c => c.1 = positionId).map Prod.snd).sum

/-- The history and the positions agree. -/
structure TellsTheSame (l : Ledger) : Prop where
  pnl : ∀ p ∈ l.positions.items, tradedPnl l.trades p.positionId = p.realizedPnl
  size : ∀ p ∈ l.positions.items,
    tradedSize l.trades p.positionId = closed l.closings p.positionId

/-- The history is about positions of the table. -/
structure WellFormed (l : Ledger) : Prop where
  trades : ∀ t ∈ l.trades, (l.positions.get? t.positionId).isSome
  closings : ∀ c ∈ l.closings, (l.positions.get? c.1).isSome

end Ledger

section Step

variable (upper : String → String)

def sizeOf (table : Table) (positionId : String) : ℚ :=
  match table.get? positionId with
  | some p => p.size
  | none => 0

/-- What a fill closes of the position that it reduces: the size that the row loses. -/
def closingsOf (table : Table) (f : Fill) : List (String × ℚ) :=
  if f.size ≤ 0 then []
  else
    match openOn upper table f f.side with
    | some _ => []
    | none =>
      match openOn upper table f f.side.opposite with
      | some p =>
        [(p.positionId, p.size -
          sizeOf (PositionEngine.updatePositionFromFill upper table f).1 p.positionId)]
      | none => []

/-- A fill, every row of the history being written. -/
def post (l : Ledger) (f : Fill) : Ledger where
  positions := (PositionEngine.updatePositionFromFill upper l.positions f).1
  trades := l.trades ++ tradesOf upper l.positions f
  closings := l.closings ++ closingsOf upper l.positions f

abbrev transition (l : Ledger) (f : Fill) : Except Empty Ledger := .ok (post upper l f)

abbrev ledger (fills : List Fill) : Ledger := Run.final (transition upper) .empty fills

/-- What a fill finds: a position that it closes in full realized nothing before, and what it
    closes of another one adds up in the digits of the arithmetic. -/
def Settles (l : Ledger) (f : Fill) : Prop :=
  0 < f.size → openOn upper l.positions f f.side = none →
    ∀ p ∈ openOn upper l.positions f f.side.opposite,
      if p.size ≤ f.size then
        calculateRealizedPnl p.size f.price p.avgEntryPrice p.side ≠ none → p.realizedPnl = 0
      else
        ∀ closing ∈ calculateRealizedPnl f.size f.price p.avgEntryPrice p.side,
          Context.default.add p.realizedPnl closing = p.realizedPnl + closing ∧
            Context.default.sub p.size f.size = p.size - f.size

end Step

/-! ## One entry -/

namespace Ledger

theorem tradedPnl_append (trades more : List Trade) (positionId : String) :
    tradedPnl (trades ++ more) positionId
      = tradedPnl trades positionId + tradedPnl more positionId := by
  simp [tradedPnl]

theorem tradedSize_append (trades more : List Trade) (positionId : String) :
    tradedSize (trades ++ more) positionId
      = tradedSize trades positionId + tradedSize more positionId := by
  simp [tradedSize]

theorem closed_append (closings more : List (String × ℚ)) (positionId : String) :
    closed (closings ++ more) positionId
      = closed closings positionId + closed more positionId := by
  simp [closed]

theorem traded_of_ne {trades : List Trade} {positionId : String}
    (h : ∀ t ∈ trades, t.positionId ≠ positionId) :
    tradedPnl trades positionId = 0 ∧ tradedSize trades positionId = 0 := by
  unfold tradedPnl tradedSize
  constructor
  · rw [List.filter_eq_nil_iff.mpr fun t h_t => by simp [h t h_t]]
    rfl
  · rw [List.filter_eq_nil_iff.mpr fun t h_t => by simp [h t h_t]]
    rfl

theorem closed_of_ne {closings : List (String × ℚ)} {positionId : String}
    (h : ∀ c ∈ closings, c.1 ≠ positionId) : closed closings positionId = 0 := by
  unfold closed
  rw [List.filter_eq_nil_iff.mpr fun c h_c => by simp [h c h_c]]
  rfl

variable {l : Ledger} {p p' : Position} {more : List Trade} {less : List (String × ℚ)}

theorem WellFormed.change (h : l.WellFormed) (h_p : p ∈ l.positions.items)
    (h_id : p'.positionId = p.positionId) (h_more : ∀ t ∈ more, t.positionId = p.positionId)
    (h_less : ∀ c ∈ less, c.1 = p.positionId) :
    WellFormed ⟨l.positions.put p', l.trades ++ more, l.closings ++ less⟩ := by
  have h_get : ∀ positionId, ((l.positions.put p').get? positionId).isSome
      = (l.positions.get? positionId).isSome := by
    intro positionId
    rw [KeyedList.get?_put, h_id]
    split
    · rename_i h_eq
      rw [h_eq, KeyedList.get?_key_of_mem h_p]
      rfl
    · rfl
  have h_here : (l.positions.get? p.positionId).isSome := by
    rw [KeyedList.get?_key_of_mem h_p]
    rfl
  constructor
  · intro t h_t
    show ((l.positions.put p').get? t.positionId).isSome
    rw [h_get]
    rcases List.mem_append.mp h_t with h_t | h_t
    · exact h.trades t h_t
    · rw [h_more t h_t]
      exact h_here
  · intro c h_c
    show ((l.positions.put p').get? c.1).isSome
    rw [h_get]
    rcases List.mem_append.mp h_c with h_c | h_c
    · exact h.closings c h_c
    · rw [h_less c h_c]
      exact h_here

/-- The history goes on telling the same exactly when what is recorded about the row is what
    changes in it. -/
theorem TellsTheSame.change_iff (h : l.TellsTheSame) (h_p : p ∈ l.positions.items)
    (h_id : p'.positionId = p.positionId) (h_more : ∀ t ∈ more, t.positionId = p.positionId)
    (h_less : ∀ c ∈ less, c.1 = p.positionId) :
    TellsTheSame ⟨l.positions.put p', l.trades ++ more, l.closings ++ less⟩ ↔
      p.realizedPnl + tradedPnl more p.positionId = p'.realizedPnl ∧
        tradedSize more p.positionId = closed less p.positionId := by
  have h_here : p' ∈ (l.positions.put p').items :=
    (KeyedList.mem_of_get? (KeyedList.get?_put_self _ _)).1
  constructor
  · rintro ⟨h_pnl, h_size⟩
    have h_pnl := h_pnl p' h_here
    have h_size := h_size p' h_here
    rw [h_id, tradedPnl_append, h.pnl p h_p] at h_pnl
    rw [h_id, tradedSize_append, closed_append, h.size p h_p] at h_size
    exact ⟨h_pnl, by linarith⟩
  · rintro ⟨h_pnl, h_size⟩
    constructor
    · intro q h_q
      show tradedPnl (l.trades ++ more) q.positionId = q.realizedPnl
      rw [tradedPnl_append]
      obtain rfl | ⟨h_q, h_ne⟩ := KeyedList.mem_put h_q
      · rw [h_id, h.pnl p h_p, h_pnl]
      · rw [h_id] at h_ne
        have h_other := traded_of_ne fun t h_t h_eq => h_ne ((h_eq.symm.trans (h_more t h_t)))
        rw [h.pnl q h_q, h_other.1, add_zero]
    · intro q h_q
      show tradedSize (l.trades ++ more) q.positionId = closed (l.closings ++ less) q.positionId
      rw [tradedSize_append, closed_append]
      obtain rfl | ⟨h_q, h_ne⟩ := KeyedList.mem_put h_q
      · rw [h_id, h.size p h_p, h_size]
      · rw [h_id] at h_ne
        have h_other := traded_of_ne fun t h_t h_eq => h_ne ((h_eq.symm.trans (h_more t h_t)))
        rw [h.size q h_q, h_other.2,
          closed_of_ne fun c h_c h_eq => h_ne (h_eq.symm.trans (h_less c h_c))]

theorem WellFormed.open (h : l.WellFormed) (h_more : ∀ t ∈ more, t.positionId = p.positionId) :
    WellFormed ⟨l.positions.put p, l.trades ++ more, l.closings⟩ := by
  have h_get : ∀ positionId, (l.positions.get? positionId).isSome →
      ((l.positions.put p).get? positionId).isSome := by
    intro positionId h_some
    rw [KeyedList.get?_put]
    split
    · rfl
    · exact h_some
  constructor
  · intro t h_t
    rcases List.mem_append.mp h_t with h_t | h_t
    · exact h_get _ (h.trades t h_t)
    · show ((l.positions.put p).get? t.positionId).isSome
      rw [h_more t h_t, KeyedList.get?_put_self]
      rfl
  · intro c h_c
    exact h_get _ (h.closings c h_c)

theorem TellsTheSame.open_iff (h : l.WellFormed) (h_fresh : l.positions.get? p.positionId = none)
    (h_realized : p.realizedPnl = 0) (h_more : ∀ t ∈ more, t.positionId = p.positionId)
    (h_pnl : tradedPnl more p.positionId = 0) (h_size : tradedSize more p.positionId = 0) :
    TellsTheSame ⟨l.positions.put p, l.trades ++ more, l.closings⟩ ↔ l.TellsTheSame := by
  have h_none : ∀ {positionId}, (l.positions.get? positionId).isSome → positionId ≠ p.positionId := by
    rintro positionId h_some rfl
    rw [h_fresh] at h_some
    cases h_some
  have h_trades := traded_of_ne fun t h_t => h_none (h.trades t h_t)
  have h_closings := closed_of_ne fun c h_c => h_none (h.closings c h_c)
  have h_old : ∀ q ∈ l.positions.items, q.positionId ≠ p.positionId :=
    KeyedList.get?_eq_none_iff.mp h_fresh
  have h_others : ∀ q ∈ l.positions.items,
      tradedPnl more q.positionId = 0 ∧ tradedSize more q.positionId = 0 := fun q h_q =>
    traded_of_ne fun t h_t h_eq => h_old q h_q (h_eq.symm.trans (h_more t h_t))
  have h_kept : ∀ q ∈ l.positions.items, q ∈ (l.positions.put p).items := by
    intro q h_q
    rw [KeyedList.items_put_of_fresh h_old]
    exact List.mem_append_left _ h_q
  constructor
  · rintro ⟨h_pnl', h_size'⟩
    constructor
    · intro q h_q
      have h_q' := h_pnl' q (h_kept q h_q)
      rw [tradedPnl_append, (h_others q h_q).1, add_zero] at h_q'
      exact h_q'
    · intro q h_q
      have h_q' := h_size' q (h_kept q h_q)
      rw [tradedSize_append, (h_others q h_q).2, add_zero] at h_q'
      exact h_q'
  · intro h_same
    constructor
    · intro q h_q
      show tradedPnl (l.trades ++ more) q.positionId = q.realizedPnl
      rw [tradedPnl_append]
      obtain rfl | ⟨h_q, -⟩ := KeyedList.mem_put h_q
      · rw [h_trades.1, h_pnl, h_realized, add_zero]
      · rw [h_same.pnl q h_q, (h_others q h_q).1, add_zero]
    · intro q h_q
      show tradedSize (l.trades ++ more) q.positionId = closed l.closings q.positionId
      rw [tradedSize_append]
      obtain rfl | ⟨h_q, -⟩ := KeyedList.mem_put h_q
      · rw [h_trades.2, h_size, h_closings, add_zero]
      · rw [h_same.size q h_q, (h_others q h_q).2, add_zero]

end Ledger

/-! ## One fill -/

variable {upper : String → String} {l : Ledger} {f : Fill} {p : Position}

/-- What a fill does to the history: the ledger stays well formed, and it goes on telling the
    same exactly when the fill settles. -/
def Posts (upper : String → String) (l : Ledger) (f : Fill) (l' : Ledger) : Prop :=
  l'.WellFormed ∧ (l'.TellsTheSame ↔ Settles upper l f)

theorem create_cases (upper : String → String) (table : Table) (row : Position) :
    (∃ e, PositionEngine.create upper table row = (table, .error e)) ∨
      table.get? row.positionId = none ∧
        PositionEngine.create upper table row
          = (table.put (storedRow upper row), .ok (storedRow upper row)) := by
  by_cases h_blank : StrategyDag.strip row.symbol = ""
  · exact Or.inl ⟨.blankSymbol, by rw [PositionEngine.create, if_pos h_blank]⟩
  · cases h_get : table.get? row.positionId with
    | some q => exact Or.inl ⟨.integrityError, by simp [PositionEngine.create, h_blank, h_get]⟩
    | none => exact Or.inr ⟨rfl, create_of_fresh h_blank h_get⟩

theorem posts_create (h_wf : l.WellFormed) (h_same : l.TellsTheSame) (h_size : ¬ f.size ≤ 0)
    (h_own : openOn upper l.positions f f.side = none)
    (h_other : openOn upper l.positions f f.side.opposite = none) :
    Posts upper l f (post upper l f) := by
  have h_settles : Settles upper l f := by
    intro _ _ p h_p
    rw [h_other] at h_p
    cases h_p
  have h_trades : tradesOf upper l.positions f = [] := by
    simp [tradesOf, h_own, h_other]
  have h_closings : closingsOf upper l.positions f = [] := by
    simp [closingsOf, h_own, h_other]
  have h_table : (PositionEngine.updatePositionFromFill upper l.positions f).1
      = (PositionEngine.create upper l.positions
          (rowOf f.execution f.size f.price f.side)).1 := by
    rw [PositionEngine.updatePositionFromFill, if_neg h_size]
    simp only [h_own, h_other]
    rfl
  unfold post
  rw [h_trades, h_closings, h_table]
  obtain ⟨e, h_create⟩ | ⟨h_fresh, h_create⟩ :=
    create_cases upper l.positions (rowOf f.execution f.size f.price f.side)
  · rw [h_create, List.append_nil, List.append_nil]
    exact ⟨h_wf, fun _ => h_settles, fun _ => h_same⟩
  · rw [h_create, List.append_nil l.closings]
    refine ⟨h_wf.open (List.forall_mem_nil _), fun _ => h_settles, fun _ => ?_⟩
    exact (Ledger.TellsTheSame.open_iff (p := storedRow upper
      (rowOf f.execution f.size f.price f.side)) h_wf h_fresh rfl (List.forall_mem_nil _) rfl
      rfl).mpr h_same

theorem posts_add (h_wf : l.WellFormed) (h_same : l.TellsTheSame) (h_size : ¬ f.size ≤ 0)
    (h_own : openOn upper l.positions f f.side = some p) : Posts upper l f (post upper l f) := by
  have h_p := (openOn_eq_some h_own).1
  have h_settles : Settles upper l f := by
    intro _ h_none
    rw [h_own] at h_none
    cases h_none
  have h_trades : tradesOf upper l.positions f = [] := by
    simp [tradesOf, h_own]
  have h_closings : closingsOf upper l.positions f = [] := by
    simp [closingsOf, h_own]
  have h_table : (PositionEngine.updatePositionFromFill upper l.positions f).1
      = (PositionEngine.updatePositionIncremental l.positions p f.size f.price).1 := by
    rw [PositionEngine.updatePositionFromFill, if_neg h_size]
    simp only [h_own]
  unfold post
  rw [h_trades, h_closings, h_table]
  unfold PositionEngine.updatePositionIncremental
  cases calculateNewAvgEntry p.size p.avgEntryPrice f.size f.price with
  | none =>
    rw [List.append_nil, List.append_nil]
    exact ⟨h_wf, fun _ => h_settles, fun _ => h_same⟩
  | some avg =>
    simp only [update_of_mem h_p]
    refine ⟨h_wf.change h_p rfl (List.forall_mem_nil _) (List.forall_mem_nil _),
      fun _ => h_settles, fun _ => ?_⟩
    refine (h_same.change_iff h_p ?_ (List.forall_mem_nil _) (List.forall_mem_nil _)).mpr
      ⟨?_, rfl⟩
    · rfl
    · show p.realizedPnl + 0 = p.realizedPnl
      rw [add_zero]

theorem traded_tradeOf (p : Position) (price size pnl : ℚ) (reason : CloseReason) :
    Ledger.tradedPnl [tradeOf p price size pnl reason] p.positionId = pnl ∧
      Ledger.tradedSize [tradeOf p price size pnl reason] p.positionId
        = if reason = .positionFlipOpen then 0 else size := by
  by_cases h : reason = .positionFlipOpen
  · simp [Ledger.tradedPnl, Ledger.tradedSize, tradeOf, h]
  · simp [Ledger.tradedPnl, Ledger.tradedSize, tradeOf, h]

theorem closed_singleton (positionId : String) (size : ℚ) :
    Ledger.closed [(positionId, size)] positionId = size := by
  simp [Ledger.closed]

theorem sizeOf_put_of_ne {table : Table} {q : Position} {positionId : String}
    (h : positionId ≠ q.positionId) : sizeOf (table.put q) positionId = sizeOf table positionId := by
  rw [sizeOf, KeyedList.get?_put, if_neg h, sizeOf]

theorem post_of_other (h_size : ¬ f.size ≤ 0)
    (h_own : openOn upper l.positions f f.side = none)
    (h_other : openOn upper l.positions f f.side.opposite = some p) :
    post upper l f =
      ⟨(PositionEngine.handlePositionReduction upper l.positions p f.size f.price f.now).1,
        l.trades ++ reductionTrades upper l.positions p f.size f.price f.now,
        l.closings ++ [(p.positionId, p.size - sizeOf
          (PositionEngine.handlePositionReduction upper l.positions p f.size f.price f.now).1
          p.positionId)]⟩ := by
  have h_table : (PositionEngine.updatePositionFromFill upper l.positions f).1
      = (PositionEngine.handlePositionReduction upper l.positions p f.size f.price f.now).1 := by
    rw [PositionEngine.updatePositionFromFill, if_neg h_size]
    simp only [h_own, h_other]
  have h_trades : tradesOf upper l.positions f
      = reductionTrades upper l.positions p f.size f.price f.now := by
    simp [tradesOf, h_own, h_other, h_size]
  have h_closings : closingsOf upper l.positions f = [(p.positionId, p.size -
      sizeOf (PositionEngine.updatePositionFromFill upper l.positions f).1 p.positionId)] := by
    simp [closingsOf, h_own, h_other, h_size]
  rw [post, h_trades, h_closings, h_table]

theorem forall_mem_closing (p : Position) (size : ℚ) :
    ∀ c ∈ [(p.positionId, size)], c.1 = p.positionId := by
  simp

theorem forall_mem_trade (p : Position) (price size pnl : ℚ) (reason : CloseReason) :
    ∀ t ∈ [tradeOf p price size pnl reason], t.positionId = p.positionId := by
  simp [tradeOf]

theorem refused_reduction (h_wf : l.WellFormed) (h_same : l.TellsTheSame)
    (h_p : p ∈ l.positions.items) :
    (⟨l.positions, l.trades ++ [],
        l.closings ++ [(p.positionId, p.size - sizeOf l.positions p.positionId)]⟩ :
      Ledger).WellFormed ∧
    (⟨l.positions, l.trades ++ [],
        l.closings ++ [(p.positionId, p.size - sizeOf l.positions p.positionId)]⟩ :
      Ledger).TellsTheSame := by
  have h_old : sizeOf l.positions p.positionId = p.size := by
    rw [sizeOf, KeyedList.get?_key_of_mem h_p]
  have h_wf' := h_wf.change h_p rfl (List.forall_mem_nil _) (forall_mem_closing p 0)
  have h_iff := h_same.change_iff h_p rfl (List.forall_mem_nil _) (forall_mem_closing p 0)
  rw [KeyedList.put_of_mem h_p] at h_wf' h_iff
  rw [h_old, sub_self]
  refine ⟨h_wf', h_iff.mpr ⟨?_, ?_⟩⟩
  · exact add_zero _
  · exact (closed_singleton _ _).symm

theorem posts_reduce (h_wf : l.WellFormed) (h_same : l.TellsTheSame) (h_size : ¬ f.size ≤ 0)
    (h_own : openOn upper l.positions f f.side = none)
    (h_other : openOn upper l.positions f f.side.opposite = some p) (h_part : ¬ p.size ≤ f.size) :
    Posts upper l f (post upper l f) := by
  have h_p := (openOn_eq_some h_other).1
  have h_settles : Settles upper l f ↔
      ∀ closing ∈ calculateRealizedPnl f.size f.price p.avgEntryPrice p.side,
        Context.default.add p.realizedPnl closing = p.realizedPnl + closing ∧
          Context.default.sub p.size f.size = p.size - f.size := by
    unfold Settles
    rw [h_other]
    simp [h_own, not_le.mp h_size, h_part]
  unfold Posts
  rw [h_settles, post_of_other h_size h_own h_other]
  unfold reductionTrades PositionEngine.handlePositionReduction
  rw [if_neg h_part, if_neg h_part]
  cases calculateRealizedPnl f.size f.price p.avgEntryPrice p.side with
  | none =>
    obtain ⟨h_wf', h_same'⟩ := refused_reduction h_wf h_same h_p
    exact ⟨h_wf', fun _ closing h_none => (by cases h_none), fun _ => h_same'⟩
  | some closing =>
    simp only [update_of_mem h_p]
    have h_new : sizeOf (l.positions.put { p with
        size := Context.default.sub p.size f.size
        realizedPnl := Context.default.add p.realizedPnl closing }) p.positionId
        = Context.default.sub p.size f.size := by
      rw [sizeOf, KeyedList.get?_put, if_pos rfl]
    have h_traded := traded_tradeOf p f.price f.size closing .partialClose
    have h_trade := forall_mem_trade p f.price f.size closing .partialClose
    rw [h_new]
    refine ⟨h_wf.change h_p rfl h_trade (forall_mem_closing _ _), ?_⟩
    rw [h_same.change_iff h_p (by rfl) h_trade (forall_mem_closing _ _), closed_singleton,
      h_traded.1, h_traded.2, if_neg (by decide)]
    show p.realizedPnl + closing = Context.default.add p.realizedPnl closing ∧
      f.size = p.size - Context.default.sub p.size f.size ↔ _
    constructor
    · rintro ⟨h_pnl, h_closed⟩ closing' h_some
      cases h_some
      exact ⟨h_pnl.symm, by linarith⟩
    · intro h
      obtain ⟨h_pnl, h_closed⟩ := h closing rfl
      exact ⟨h_pnl.symm, by linarith⟩

theorem closed_position (h_wf : l.WellFormed) (h_same : l.TellsTheSame)
    (h_p : p ∈ l.positions.items) {row : Position} (h_id : row.positionId = p.positionId)
    (price : ℚ) {reason : CloseReason} (h_reason : reason ≠ .positionFlipOpen) :
    (⟨l.positions.put row, l.trades ++ [tradeOf p price p.size row.realizedPnl reason],
        l.closings ++ [(p.positionId, p.size)]⟩ : Ledger).WellFormed ∧
      ((⟨l.positions.put row, l.trades ++ [tradeOf p price p.size row.realizedPnl reason],
        l.closings ++ [(p.positionId, p.size)]⟩ : Ledger).TellsTheSame ↔ p.realizedPnl = 0) := by
  have h_traded := traded_tradeOf p price p.size row.realizedPnl reason
  have h_trade := forall_mem_trade p price p.size row.realizedPnl reason
  refine ⟨h_wf.change h_p h_id h_trade (forall_mem_closing _ _), ?_⟩
  rw [h_same.change_iff h_p h_id h_trade (forall_mem_closing _ _), closed_singleton,
    h_traded.1, h_traded.2, if_neg h_reason]
  constructor
  · rintro ⟨h_pnl, -⟩
    linarith
  · intro h_zero
    exact ⟨by rw [h_zero, zero_add], rfl⟩

/-- A fill that closes a position in full, with or without a flip, or is refused. -/
theorem posts_close (h_wf : l.WellFormed) (h_same : l.TellsTheSame) (h_size : ¬ f.size ≤ 0)
    (h_own : openOn upper l.positions f f.side = none)
    (h_other : openOn upper l.positions f f.side.opposite = some p) (h_full : p.size ≤ f.size) :
    Posts upper l f (post upper l f) := by
  have h_p := (openOn_eq_some h_other).1
  have h_settles : Settles upper l f ↔
      (calculateRealizedPnl p.size f.price p.avgEntryPrice p.side ≠ none → p.realizedPnl = 0) := by
    unfold Settles
    rw [h_other]
    simp [h_own, not_le.mp h_size, h_full]
  unfold Posts
  rw [h_settles, post_of_other h_size h_own h_other]
  unfold reductionTrades PositionEngine.handlePositionReduction
  rw [if_pos h_full, if_pos h_full]
  cases calculateRealizedPnl p.size f.price p.avgEntryPrice p.side with
  | none =>
    obtain ⟨h_wf', h_same'⟩ := refused_reduction h_wf h_same h_p
    exact ⟨h_wf', fun _ h_none => absurd rfl h_none, fun _ => h_same'⟩
  | some closing =>
    have h_zero : (some closing ≠ none → p.realizedPnl = 0) ↔ p.realizedPnl = 0 := by simp
    have h_close : PositionEngine.closePosition l.positions p
        (Context.default.add p.realizedPnl closing) = _ := update_of_mem h_p _
    rw [h_zero]
    simp only [h_close]
    generalize h_row : ({ p with
      size := 0
      unrealizedPnl := 0
      realizedPnl := Context.default.add p.realizedPnl closing
      status := .closed } : Position) = row
    have h_id : row.positionId = p.positionId := by rw [← h_row]
    have h_pnl : Context.default.add p.realizedPnl closing = row.realizedPnl := by rw [← h_row]
    have h_empty : p.size - sizeOf (l.positions.put row) p.positionId = p.size := by
      rw [sizeOf, KeyedList.get?_put, if_pos h_id.symm, ← h_row]
      exact sub_zero _
    rw [h_pnl]
    by_cases h_flip : 0 < Context.default.sub f.size p.size
    · rw [if_pos h_flip, if_pos h_flip]
      have h_reason : CloseReason.positionFlipClose ≠ .positionFlipOpen := by decide
      obtain ⟨h_wf₁, h_iff₁⟩ := closed_position h_wf h_same h_p h_id f.price h_reason
      have h_open : PositionEngine.createPositionFromFill upper (l.positions.put row)
          (flipExecution p f.now (Context.default.sub f.size p.size) f.price)
          (Context.default.sub f.size p.size) f.price p.side.opposite
            = PositionEngine.create upper (l.positions.put row)
                (flipRow p f.size f.price f.now) := rfl
      rw [h_open]
      obtain ⟨e, h_create⟩ | ⟨h_fresh, h_create⟩ := create_cases upper (l.positions.put row)
        (flipRow p f.size f.price f.now)
      · rw [h_create]
        simp only [h_empty]
        exact ⟨h_wf₁, h_iff₁⟩
      · have h_other_id : p.positionId ≠ (flipRow p f.size f.price f.now).positionId := by
          intro h_eq
          rw [← h_eq, KeyedList.get?_put, if_pos h_id.symm] at h_fresh
          cases h_fresh
        have h_empty' : p.size - sizeOf ((l.positions.put row).put
            (storedRow upper (flipRow p f.size f.price f.now))) p.positionId = p.size := by
          rw [sizeOf_put_of_ne (q := storedRow upper _) h_other_id, h_empty]
        have h_trade := forall_mem_trade (storedRow upper (flipRow p f.size f.price f.now)) f.price
          (Context.default.sub f.size p.size) 0 .positionFlipOpen
        have h_traded := traded_tradeOf (storedRow upper (flipRow p f.size f.price f.now)) f.price
          (Context.default.sub f.size p.size) 0 .positionFlipOpen
        rw [h_create]
        simp only [h_empty']
        rw [List.append_cons]
        refine ⟨h_wf₁.open h_trade, ?_⟩
        rw [← h_iff₁]
        exact Ledger.TellsTheSame.open_iff h_wf₁ h_fresh rfl h_trade h_traded.1 h_traded.2
    · rw [if_neg h_flip, if_neg h_flip, h_empty]
      exact closed_position h_wf h_same h_p h_id f.price (by decide)

theorem posts_post (h_wf : l.WellFormed) (h_same : l.TellsTheSame) (f : Fill) :
    Posts upper l f (post upper l f) := by
  by_cases h_size : f.size ≤ 0
  · have h_post : post upper l f = l := by
      simp [post, PositionEngine.updatePositionFromFill, tradesOf, closingsOf, h_size]
    rw [h_post]
    refine ⟨h_wf, fun _ h_pos => absurd h_size (not_le.mpr h_pos), fun _ => h_same⟩
  · cases h_own : openOn upper l.positions f f.side with
    | some p => exact posts_add h_wf h_same h_size h_own
    | none =>
      cases h_other : openOn upper l.positions f f.side.opposite with
      | none => exact posts_create h_wf h_same h_size h_own h_other
      | some p =>
        by_cases h_full : p.size ≤ f.size
        · exact posts_close h_wf h_same h_size h_own h_other h_full
        · exact posts_reduce h_wf h_same h_size h_own h_other h_full

/-! ## Sequences of fills -/

theorem empty_wellFormed : Ledger.empty.WellFormed :=
  ⟨List.forall_mem_nil _, List.forall_mem_nil _⟩

theorem empty_tellsTheSame : Ledger.empty.TellsTheSame :=
  ⟨List.forall_mem_nil _, List.forall_mem_nil _⟩

theorem ledger_append_singleton (upper : String → String) (fills : List Fill) (f : Fill) :
    ledger upper (fills ++ [f]) = post upper (ledger upper fills) f := by
  show Run.final _ _ _ = _
  unfold Run.final
  rw [List.foldl_append]
  rfl

theorem ledger_tellsTheSame {fills : List Fill}
    (h : Run.Throughout (transition upper) (Settles upper) .empty fills) :
    (ledger upper fills).WellFormed ∧ (ledger upper fills).TellsTheSame := by
  induction fills using List.reverseRecOn with
  | nil => exact ⟨empty_wellFormed, empty_tellsTheSame⟩
  | append_singleton fills f ih =>
    obtain ⟨h_wf, h_same⟩ := ih h.of_prefix
    have h_posts : Posts upper _ f (post upper (ledger upper fills) f) := posts_post h_wf h_same f
    rw [ledger_append_singleton]
    exact ⟨h_posts.1, h_posts.2.mpr (h fills f [] rfl)⟩

/-- The trade history and the positions tell the same after every fill exactly where no fill
    closes in full a position that realized something before, and what the others close adds
    up in the digits of the arithmetic. -/
theorem tellsTheSame_iff (upper : String → String) (fills : List Fill) :
    (∀ pre, pre <+: fills → (ledger upper pre).TellsTheSame) ↔
      Run.Throughout (transition upper) (Settles upper) .empty fills := by
  constructor
  · intro h
    have h_wf : ∀ pre, pre <+: fills → (ledger upper pre).WellFormed := by
      intro pre h_pre
      induction pre using List.reverseRecOn with
      | nil => exact empty_wellFormed
      | append_singleton pre f ih =>
        have h_before : pre <+: fills := (List.prefix_append pre [f]).trans h_pre
        rw [ledger_append_singleton]
        exact (posts_post (ih h_before) (h pre h_before) f).1
    rintro pre f rest rfl
    have h_before : pre <+: pre ++ f :: rest := List.prefix_append _ _
    have h_after := h (pre ++ [f]) (by simp)
    rw [ledger_append_singleton] at h_after
    exact (posts_post (h_wf pre h_before) (h pre h_before) f).2.mp h_after
  · rintro h pre ⟨rest, rfl⟩
    exact (ledger_tellsTheSame h.of_prefix).2

/-- Two units bought, and sold one by one. -/
def scaledOut : List Fill :=
  [{ unitFill "exec_1" "buy" 100 with fillSize := some 2 }, unitFill "exec_2" "sell" 110,
    unitFill "exec_3" "sell" 120]

/-- The first sale realizes 10 and the second one 20: the position says 30, and the history
    10 and 30. -/
theorem tellsTheSame_divergence :
    ¬ ∀ upper fills, ∀ pre, pre <+: fills → (ledger upper pre).TellsTheSame := by
  intro h
  have h_pnl := (h asciiUpper scaledOut scaledOut List.prefix_rfl).pnl
  have h_all : (ledger asciiUpper scaledOut).positions.items.all (fun p =>
      Ledger.tradedPnl (ledger asciiUpper scaledOut).trades p.positionId = p.realizedPnl)
        = true := by
    rw [List.all_eq_true]
    exact fun p h_p => decide_eq_true (h_pnl p h_p)
  have h_none : (ledger asciiUpper scaledOut).positions.items.all (fun p =>
      Ledger.tradedPnl (ledger asciiUpper scaledOut).trades p.positionId = p.realizedPnl)
        = false := by
    decide +kernel
  rw [h_all] at h_none
  cases h_none

end VyomQuant.TradeHistory
