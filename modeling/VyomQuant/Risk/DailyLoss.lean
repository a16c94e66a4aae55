/-
  VyomQuant.Risk.DailyLoss

  The daily loss of the risk manager (`core/risk_manager.py`), with a day that is rolled over
  by whatever looks at it first.

  Every call but `update_equity` rolls over before it does anything.  An update that is the
  first call of its date is booked on the day before, and is taken off with that day by the
  next call.  On every date whose updates all found the day rolled over the figure is right
  (`dailyLossPct_eq`).
-/

import Mathlib.Algebra.Order.Group.MinMax
import VyomQuant.Risk.Manager

namespace VyomQuant.Risk

variable {δ : Type} [LinearOrder δ]

/-! ## The book -/

structure EquityBook (δ : Type) where
  currentEquity : ℚ
  peakEquity : ℚ
  currentDate : δ
  dailyPnl : ℚ
  dailyStartingEquity : ℚ

namespace EquityBook

variable (m : Manager ℚ) (s : EquityBook δ) (today : δ)

/-- A manager made at a date. -/
def start (initialEquity : ℚ) (today : δ) : EquityBook δ :=
  { currentEquity := initialEquity, peakEquity := initialEquity, currentDate := today
    dailyPnl := 0, dailyStartingEquity := initialEquity }

omit [LinearOrder δ] in
/-- `update_equity`. -/
def updateEquity (pnl : ℚ) : EquityBook δ :=
  { s with
    currentEquity := s.currentEquity + pnl
    dailyPnl := s.dailyPnl + pnl
    peakEquity := max s.peakEquity (s.currentEquity + pnl) }

def drawdown : ℚ :=
  if s.peakEquity ≤ 0 then 0 else (s.peakEquity - s.currentEquity) / s.peakEquity

/-- `_reset_daily_if_needed`. -/
def resetDailyIfNeeded : EquityBook δ :=
  if today ≠ s.currentDate then
    { s with currentDate := today, dailyPnl := 0, dailyStartingEquity := s.currentEquity }
  else s

def dailyLossPct : EquityBook δ × ℚ :=
  let s := s.resetDailyIfNeeded today
  if s.dailyStartingEquity ≤ 0 then (s, 0)
  else (s, -min 0 s.dailyPnl / s.dailyStartingEquity)

def canTrade : EquityBook δ × Bool :=
  let s := s.resetDailyIfNeeded today
  if m.thresholds.maxDrawdown < s.drawdown then (s, false)
  else
    let (s, loss) := s.dailyLossPct today
    (s, decide (loss ≤ m.thresholds.maxDailyLossPct))

def canOpenPosition (positionValue : ℚ) (openTradesCount : ℤ) : EquityBook δ × Bool :=
  let s := s.resetDailyIfNeeded today
  if s.currentEquity * m.thresholds.maxPositionSizePct < positionValue then (s, false)
  else
    let (s, allowed) := s.canTrade m today
    if allowed then
      let effectiveOpen := if openTradesCount ≠ 0 then openTradesCount else m.openTradesCount
      (s, decide (effectiveOpen < m.thresholds.maxOpenTrades))
    else (s, false)

structure RiskStatus where
  currentEquity : ℚ
  peakEquity : ℚ
  drawdownPct : ℚ
  dailyPnl : ℚ
  dailyLossPct : ℚ
  maxDailyLossPct : ℚ
  openTrades : ℤ
  maxOpenTrades : ℤ
  positionLimitPct : ℚ

def getRiskStatus : EquityBook δ × RiskStatus :=
  let s := s.resetDailyIfNeeded today
  ((s.dailyLossPct today).1,
    { currentEquity := s.currentEquity
      peakEquity := s.peakEquity
      drawdownPct := s.drawdown * 100
      dailyPnl := s.dailyPnl
      dailyLossPct := (s.dailyLossPct today).2 * 100
      maxDailyLossPct := m.thresholds.maxDailyLossPct * 100
      openTrades := m.openTradesCount
      maxOpenTrades := m.thresholds.maxOpenTrades
      positionLimitPct := m.thresholds.maxPositionSizePct * 100 })

end EquityBook

/-! ## Histories -/

inductive BookCall where
  | updateEquity (pnl : ℚ)
  | canTrade
  | canOpenPosition (positionValue : ℚ) (openTradesCount : ℤ)
  | dailyLossPct
  | getRiskStatus

structure DatedCall (δ : Type) where
  date : δ
  call : BookCall

def EquityBook.after (m : Manager ℚ) (s : EquityBook δ) (c : DatedCall δ) : EquityBook δ :=
  match c.call with
  | .updateEquity pnl => s.updateEquity pnl
  | .canTrade => (s.canTrade m c.date).1
  | .canOpenPosition positionValue openTradesCount =>
    (s.canOpenPosition m c.date positionValue openTradesCount).1
  | .dailyLossPct => (s.dailyLossPct c.date).1
  | .getRiskStatus => (s.getRiskStatus m c.date).1

def EquityBook.afterAll (m : Manager ℚ) (s : EquityBook δ) (calls : List (DatedCall δ)) :
    EquityBook δ := calls.foldl (EquityBook.after m) s

def BookCall.pnl : BookCall → ℚ
  | .updateEquity pnl => pnl
  | _ => 0

def recordedOn (date : δ) (calls : List (DatedCall δ)) : ℚ :=
  ((calls.filter fun c => c.date = date).map fun c => c.call.pnl).sum

def equityAtStartOf (date : δ) (initialEquity : ℚ) (calls : List (DatedCall δ)) : ℚ :=
  initialEquity + ((calls.filter fun c => c.date < date).map fun c => c.call.pnl).sum

/-- The loss of a date as a share of the equity at its start. -/
def lossOf (date : δ) (initialEquity : ℚ) (calls : List (DatedCall δ)) : ℚ :=
  if equityAtStartOf date initialEquity calls ≤ 0 then 0
  else max 0 (-recordedOn date calls) / equityAtStartOf date initialEquity calls

section

variable {m : Manager ℚ} {s : EquityBook δ} {today : δ} {initialEquity : ℚ}
  {calls : List (DatedCall δ)} {c : DatedCall δ}

theorem recordedOn_concat (date : δ) :
    recordedOn date (calls ++ [c]) = recordedOn date calls + if c.date = date then c.call.pnl else 0 := by
  unfold recordedOn
  rw [List.filter_append, List.map_append, List.sum_append]
  split_ifs with h
  · rw [List.filter_cons_of_pos (by simpa using h), List.filter_nil, List.map_singleton,
      List.sum_singleton]
  · rw [List.filter_cons_of_neg (by simpa using h), List.filter_nil, List.map_nil, List.sum_nil]

theorem equityAtStartOf_concat (date : δ) : equityAtStartOf date initialEquity (calls ++ [c]) =
    equityAtStartOf date initialEquity calls + if c.date < date then c.call.pnl else 0 := by
  unfold equityAtStartOf
  rw [List.filter_append, List.map_append, List.sum_append, ← add_assoc]
  split_ifs with h
  · rw [List.filter_cons_of_pos (by simpa using h), List.filter_nil, List.map_singleton,
      List.sum_singleton]
  · rw [List.filter_cons_of_neg (by simpa using h), List.filter_nil, List.map_nil, List.sum_nil]

/-! ## All calls but updates only roll over -/

namespace EquityBook

@[simp] theorem resetDailyIfNeeded_idem :
    (s.resetDailyIfNeeded today).resetDailyIfNeeded today = s.resetDailyIfNeeded today := by
  unfold resetDailyIfNeeded
  split_ifs with h h'
  · exact absurd rfl h'
  · rfl
  · rfl

@[simp] theorem dailyLossPct_book : (s.dailyLossPct today).1 = s.resetDailyIfNeeded today := by
  unfold dailyLossPct
  dsimp only
  split_ifs <;> rfl

@[simp] theorem canTrade_book : (s.canTrade m today).1 = s.resetDailyIfNeeded today := by
  unfold canTrade
  dsimp only
  split_ifs
  · rfl
  · simp

@[simp] theorem canOpenPosition_book {positionValue : ℚ} {openTradesCount : ℤ} :
    (s.canOpenPosition m today positionValue openTradesCount).1 = s.resetDailyIfNeeded today := by
  unfold canOpenPosition
  dsimp only
  split_ifs <;> simp

@[simp] theorem getRiskStatus_book : (s.getRiskStatus m today).1 = s.resetDailyIfNeeded today := by
  unfold getRiskStatus
  simp

theorem after_cases (m : Manager ℚ) (s : EquityBook δ) (c : DatedCall δ) :
    (∃ pnl, c.call = .updateEquity pnl ∧ s.after m c = s.updateEquity pnl) ∨
      (c.call.pnl = 0 ∧ s.after m c = s.resetDailyIfNeeded c.date) := by
  unfold EquityBook.after
  cases c.call with
  | updateEquity pnl => exact .inl ⟨pnl, rfl, rfl⟩
  | canTrade => exact .inr ⟨rfl, canTrade_book⟩
  | canOpenPosition positionValue openTradesCount => exact .inr ⟨rfl, canOpenPosition_book⟩
  | dailyLossPct => exact .inr ⟨rfl, dailyLossPct_book⟩
  | getRiskStatus => exact .inr ⟨rfl, getRiskStatus_book⟩

end EquityBook

/-! ## The book of a date -/

/-- What the book says of `today`, which it may not have come to yet. -/
structure Follows (today : δ) (initialEquity : ℚ) (s : EquityBook δ) (calls : List (DatedCall δ)) :
    Prop where
  opened : s.currentDate = today → s.dailyPnl = recordedOn today calls ∧
    s.dailyStartingEquity = equityAtStartOf today initialEquity calls
  ahead : s.currentDate ≠ today → recordedOn today calls = 0 ∧
    s.currentEquity = equityAtStartOf today initialEquity calls

theorem Follows.start {date : δ} : Follows today initialEquity (.start initialEquity date) [] where
  opened := fun _ => ⟨rfl, (add_zero _).symm⟩
  ahead := fun _ => ⟨rfl, (add_zero _).symm⟩

/-- An update of today finds it rolled over. -/
def RolledOver (today : δ) (s : EquityBook δ) (c : DatedCall δ) : Prop :=
  c.date = today → ∀ pnl, c.call = .updateEquity pnl → s.currentDate = today

def EachRolledOver (m : Manager ℚ) (today : δ) : EquityBook δ → List (DatedCall δ) → Prop
  | _, [] => True
  | s, c :: rest => RolledOver today s c ∧ EachRolledOver m today (s.after m c) rest

theorem Follows.resetDailyIfNeeded (h : Follows today initialEquity s calls) {date : δ}
    (h_from : s.currentDate ≤ date) (h_until : date ≤ today) :
    Follows today initialEquity (s.resetDailyIfNeeded date) calls := by
  unfold EquityBook.resetDailyIfNeeded
  split_ifs with h_date
  · have h_before : s.currentDate ≠ today := fun h_current =>
      h_date (le_antisymm (h_until.trans h_current.ge) h_from)
    obtain ⟨h_none, h_equity⟩ := h.ahead h_before
    exact ⟨fun _ => ⟨h_none.symm, h_equity⟩, fun _ => ⟨h_none, h_equity⟩⟩
  · exact h

theorem Follows.quiet (h : Follows today initialEquity s calls) (h_pnl : c.call.pnl = 0) :
    Follows today initialEquity s (calls ++ [c]) := by
  have h_recorded : recordedOn today (calls ++ [c]) = recordedOn today calls := by
    rw [recordedOn_concat, h_pnl, ite_self, add_zero]
  have h_start : equityAtStartOf today initialEquity (calls ++ [c])
      = equityAtStartOf today initialEquity calls := by
    rw [equityAtStartOf_concat, h_pnl, ite_self, add_zero]
  constructor
  · rw [h_recorded, h_start]
    exact h.opened
  · rw [h_recorded, h_start]
    exact h.ahead

theorem Follows.updateEquity (h : Follows today initialEquity s calls) {pnl : ℚ}
    (h_call : c.call = .updateEquity pnl) (h_from : s.currentDate ≤ c.date)
    (h_until : c.date ≤ today) (h_rolled : RolledOver today s c) :
    Follows today initialEquity (s.updateEquity pnl) (calls ++ [c]) := by
  have h_pnl : c.call.pnl = pnl := by rw [h_call]; rfl
  refine ⟨fun h_today => ?_, fun h_today => ?_⟩
  · have h_date : c.date = today := le_antisymm h_until (h_today.symm.le.trans h_from)
    obtain ⟨h_daily, h_start⟩ := h.opened h_today
    rw [recordedOn_concat, equityAtStartOf_concat, if_pos h_date, if_neg h_date.not_lt, h_pnl, add_zero]
    exact ⟨congrArg (· + pnl) h_daily, h_start⟩
  · have h_date : c.date ≠ today := fun h_same => h_today (h_rolled h_same pnl h_call)
    obtain ⟨h_none, h_equity⟩ := h.ahead h_today
    rw [recordedOn_concat, equityAtStartOf_concat, if_neg h_date,
      if_pos (lt_of_le_of_ne h_until h_date), h_pnl, add_zero]
    exact ⟨h_none, congrArg (· + pnl) h_equity⟩

theorem Follows.after (h : Follows today initialEquity s calls) (h_from : s.currentDate ≤ c.date)
    (h_until : c.date ≤ today) (h_rolled : RolledOver today s c) :
    Follows today initialEquity (s.after m c) (calls ++ [c]) ∧ (s.after m c).currentDate ≤ c.date := by
  obtain ⟨pnl, h_call, h_after⟩ | ⟨h_pnl, h_after⟩ := s.after_cases m c
  · rw [h_after]
    exact ⟨h.updateEquity h_call h_from h_until h_rolled, h_from⟩
  · rw [h_after]
    refine ⟨(h.resetDailyIfNeeded h_from h_until).quiet h_pnl, ?_⟩
    unfold EquityBook.resetDailyIfNeeded
    split_ifs
    · exact le_rfl
    · exact h_from

/-- A run whose calls are in order and not past today, and whose updates of today find it
    rolled over. -/
theorem Follows.run {later : List (DatedCall δ)} (h : Follows today initialEquity s calls)
    (h_from : ∀ c ∈ later, s.currentDate ≤ c.date) (h_until : ∀ c ∈ later, c.date ≤ today)
    (h_order : later.Pairwise fun a b => a.date ≤ b.date)
    (h_rolled : EachRolledOver m today s later) (h_current : s.currentDate ≤ today) :
    Follows today initialEquity (s.afterAll m later) (calls ++ later) ∧
      (s.afterAll m later).currentDate ≤ today := by
  induction later generalizing s calls with
  | nil =>
    rw [List.append_nil]
    exact ⟨h, h_current⟩
  | cons c rest ih =>
    obtain ⟨h_c_from, -⟩ := List.forall_mem_cons.mp h_from
    obtain ⟨h_c_until, h_rest_until⟩ := List.forall_mem_cons.mp h_until
    obtain ⟨h_rest_from, h_rest_order⟩ := List.pairwise_cons.mp h_order
    obtain ⟨h_after, h_date⟩ := h.after (m := m) h_c_from h_c_until h_rolled.1
    have h_all := ih h_after (fun d h_d => h_date.trans (h_rest_from d h_d)) h_rest_until
      h_rest_order h_rolled.2 (h_date.trans h_c_until)
    rw [List.append_assoc] at h_all
    exact h_all

theorem Follows.dailyLossPct (h : Follows today initialEquity s calls) (h_current : s.currentDate ≤ today) :
    (s.dailyLossPct today).2 = lossOf today initialEquity calls := by
  have h_rolled := h.resetDailyIfNeeded h_current le_rfl
  have h_today : (s.resetDailyIfNeeded today).currentDate = today := by
    unfold EquityBook.resetDailyIfNeeded
    split_ifs with h_date
    · rfl
    · exact (not_not.mp h_date).symm
  obtain ⟨h_daily, h_start⟩ := h_rolled.opened h_today
  unfold EquityBook.dailyLossPct lossOf
  dsimp only
  rw [h_daily, h_start]
  split_ifs
  · rfl
  · rw [← max_neg_neg, neg_zero]

/-- Calls at dates that do not go back, by a manager made at `made`. -/
structure InDateOrder (made today : δ) (calls : List (DatedCall δ)) : Prop where
  made_le : made ≤ today
  from_ : ∀ c ∈ calls, made ≤ c.date
  until_ : ∀ c ∈ calls, c.date ≤ today
  order : calls.Pairwise fun a b => a.date ≤ b.date

/-- After any calls of whose updates those of today found it rolled over, the daily loss is the
    loss of today. -/
theorem dailyLossPct_eq {made : δ} (h : InDateOrder made today calls)
    (h_rolled : EachRolledOver m today (EquityBook.start initialEquity made) calls) :
    (((EquityBook.start initialEquity made).afterAll m calls).dailyLossPct today).2 =
      lossOf today initialEquity calls := by
  obtain ⟨h_follows, h_current⟩ := (@Follows.start δ _ today initialEquity made).run (m := m)
    h.from_ h.until_ h.order h_rolled h.made_le
  exact h_follows.dailyLossPct h_current

end

/-! ### A loss in the morning -/

def defaultManager : Manager ℚ :=
  { thresholds := .default, totalCapital := 100000, strategyAllocations := fun _ => none
    openTradesCount := 0 }

/-- A loss of ten per cent on the second day, after whatever is asked first. -/
def morningLoss (first : List BookCall) : List (DatedCall ℕ) :=
  (first ++ [BookCall.updateEquity (-10000)]).map fun call => { date := 2, call := call }

theorem morningLoss_inOrder (first : List BookCall) : InDateOrder 1 2 (morningLoss first) where
  made_le := by decide
  from_ := by
    intro c h_c
    obtain ⟨call, -, rfl⟩ := List.mem_map.mp h_c
    show 1 ≤ 2
    omega
  until_ := by
    intro c h_c
    obtain ⟨call, -, rfl⟩ := List.mem_map.mp h_c
    exact le_rfl
  order := by
    refine List.pairwise_map.mpr (List.pairwise_of_forall fun _ _ => ?_)
    exact le_rfl

theorem morningLoss_seen :
    (((EquityBook.start 100000 1).afterAll defaultManager (morningLoss [.canTrade])).dailyLossPct 2).2
      = lossOf 2 100000 (morningLoss [.canTrade]) := by
  refine dailyLossPct_eq (morningLoss_inOrder [.canTrade]) ⟨fun _ _ h_call => ?_, fun _ _ _ => ?_, trivial⟩
  · cases h_call
  · decide +kernel

/-- As the first call of its day the loss is nothing afterwards, and trading goes on. -/
theorem morningLoss_lost :
    InDateOrder 1 2 (morningLoss []) ∧
      (((EquityBook.start 100000 1).afterAll defaultManager (morningLoss [])).dailyLossPct 2).2 = 0 ∧
      lossOf 2 100000 (morningLoss []) = 1 / 10 ∧
      (((EquityBook.start 100000 1).afterAll defaultManager (morningLoss [])).canTrade
        defaultManager 2).2 = true :=
  ⟨morningLoss_inOrder [], by decide +kernel, by decide +kernel, by decide +kernel⟩

end VyomQuant.Risk
