/-
  VyomQuant.MarketData.StreamAndBatch

  One value per bar, and the stream equals the batch.

  What a streaming gate has drained and still holds are the records of the closed bars that
  were offered, however the drains and the clock fell in between (`run_bars`).  The rest is
  read off the records (`one_value_per_bar`).
-/

import VyomQuant.MarketData.ClosedBarIngest

namespace VyomQuant.MarketData

open HighWater
open StrategyDag (Value Scalar PyFloat)

variable {lib : Library} {s : ClosedBarIngest} {candle : Value} {bar : Parsed} {interval : ℤ}
  {now : Instant}

/-! ## What `offer` does not catch -/

/-- An item that becomes a finite number. -/
def Readable (lib : Library) (item : Value) : Prop :=
  ∃ x, toFloat lib item = .ok (some x) ∧ isFinite x = true

/-- The first value that is no finite number is an integer that is too large. -/
def Overflows (lib : Library) (candle : Value) : Prop :=
  ∃ raw, normaliseCandle lib candle = some raw ∧
    ∃ (before : List Value) (n : ℤ) (after : List Value),
      raw.values = before ++ .scalar (.int n) :: after ∧ overflowBound ≤ n.natAbs ∧
        ∀ item ∈ before, Readable lib item

variable {e : Unit}

theorem toFloat_eq_error_iff {item : Value} : toFloat lib item = .error e ↔
    ∃ n : ℤ, item = .scalar (.int n) ∧ overflowBound ≤ n.natAbs := by
  unfold toFloat
  split
  · rename_i n
    split_ifs with h_large
    · exact iff_of_true rfl ⟨n, rfl, h_large⟩
    · refine iff_of_false nofun ?_
      rintro ⟨n', h_item, h_large'⟩
      cases h_item
      exact h_large h_large'
  · exact iff_of_false nofun nofun
  · exact iff_of_false nofun nofun
  · exact iff_of_false nofun nofun
  · rename_i h_int _ _ _
    refine iff_of_false nofun ?_
    rintro ⟨n, rfl, -⟩
    exact h_int n rfl

theorem toFloats_eq_error_iff {values : List Value} : toFloats lib values = .error e ↔
    ∃ (before : List Value) (n : ℤ) (after : List Value),
      values = before ++ .scalar (.int n) :: after ∧ overflowBound ≤ n.natAbs ∧
        ∀ item ∈ before, Readable lib item := by
  induction values with
  | nil =>
    refine iff_of_false (fun h => by cases h) ?_
    rintro ⟨before, n, after, h_nil, -⟩
    exact List.append_ne_nil_of_right_ne_nil before (List.cons_ne_nil _ after) h_nil.symm
  | cons item rest ih =>
    rw [toFloats]
    cases h_float : toFloat lib item with
    | error e' =>
      refine iff_of_true rfl ?_
      obtain ⟨n, rfl, h_large⟩ := toFloat_eq_error_iff.mp h_float
      exact ⟨[], n, rest, rfl, h_large, List.forall_mem_nil _⟩
    | ok x =>
      have h_small : ¬ ∃ n : ℤ, item = .scalar (.int n) ∧ overflowBound ≤ n.natAbs := by
        rw [← @toFloat_eq_error_iff lib () item, h_float]
        simp
      dsimp only [bind, Except.bind]
      cases h_finite : x.filter isFinite with
      | none =>
        refine iff_of_false (fun h => by cases h) ?_
        rintro ⟨before, n, after, h_split, h_large, h_before⟩
        cases before with
        | nil => exact h_small ⟨n, (List.cons.inj h_split).1, h_large⟩
        | cons first before =>
          obtain ⟨rfl, -⟩ := List.cons.inj h_split
          obtain ⟨y, h_y, h_readable⟩ := h_before item List.mem_cons_self
          cases h_float.symm.trans h_y
          rw [Option.filter_some, if_pos h_readable] at h_finite
          cases h_finite
      | some y =>
        have h_readable : Readable lib item := by
          obtain ⟨h_x, h_y⟩ := Option.filter_eq_some_iff.mp h_finite
          exact ⟨y, h_x ▸ h_float, h_y⟩
        have h_bind : (toFloats lib rest >>= fun xs => Except.ok (xs.map (y :: ·))) = .error e ↔
            toFloats lib rest = .error e := by
          cases toFloats lib rest with
          | error e' => exact iff_of_eq (congrArg₂ Eq rfl rfl)
          | ok xs => exact iff_of_false (by simp [bind, Except.bind]) (by simp)
        refine h_bind.trans (ih.trans ?_)
        constructor
        · rintro ⟨before, n, after, rfl, h_large, h_before⟩
          exact ⟨item :: before, n, after, rfl, h_large, List.forall_mem_cons.mpr ⟨h_readable, h_before⟩⟩
        · rintro ⟨before, n, after, h_split, h_large, h_before⟩
          cases before with
          | nil => exact absurd ⟨n, (List.cons.inj h_split).1, h_large⟩ h_small
          | cons first before =>
            exact ⟨before, n, after, (List.cons.inj h_split).2, h_large,
              (List.forall_mem_cons.mp h_before).2⟩

theorem parse_eq_error_iff : parse lib candle = .error e ↔ Overflows lib candle := by
  unfold parse Overflows
  cases h_raw : normaliseCandle lib candle with
  | none => exact iff_of_false nofun nofun
  | some raw =>
    simp only [Option.some_inj, exists_eq_left']
    rw [← @toFloats_eq_error_iff lib e raw.values]
    cases toFloats lib raw.values with
    | error e' => exact iff_of_true rfl rfl
    | ok values => exact iff_of_false nofun nofun

/-! ## One offer -/

/-- The bar of a candle that can be read and is closed before an instant. -/
def closedBar (lib : Library) (closedBefore : Instant) (candle : Value) : Option Bar :=
  match parse lib candle with
  | .ok (some bar) =>
    if bar.feedSaysClosed ≠ some false ∧ bar.openTime ≤ closedBefore then
      some (bar.openTime, bar.values)
    else none
  | _ => none

/-- The bars came in order, and none is above the mark. -/
structure InOrder (s : ClosedBarIngest) : Prop where
  sorted : s.bars.Pairwise fun a b => a.1 < b.1
  below : ∀ bar ∈ s.bars, ¬ Above s.highWater bar.1

theorem InOrder.new (interval : ℤ) (dropLate : Bool) (now : Instant) :
    InOrder (ClosedBarIngest.new interval dropLate now) := ⟨.nil, List.forall_mem_nil _⟩

theorem InOrder.frame_eq (h : InOrder s) : s.frame = s.bars :=
  @KeySort.insertionSort_eq_self _ _ _ Prod.fst _ h.sorted

namespace ClosedBarIngest

/-- The gate with a bar offered to its mark, if there is one. -/
def taking (s : ClosedBarIngest) (bar : Option Bar) (counters : IngestCounters) : ClosedBarIngest :=
  { s with
    bars := s.bars ++ records s.highWater bar.toList
    highWater := markAfter s.highWater bar.toList
    counters := counters }

theorem taking_of_not_above {bar : Option Bar} (h : ∀ x ∈ bar, ¬ Above s.highWater x.1)
    (counters : IngestCounters) : { s with counters := counters } = s.taking bar counters := by
  unfold taking
  cases bar with
  | none =>
    rw [Option.toList_none, records, List.append_nil]
    rfl
  | some x =>
    have h_mark : markAfter s.highWater [x] = s.highWater := if_neg (h x rfl)
    rw [Option.toList_some, records, if_neg (h x rfl), records, List.append_nil, List.append_nil,
      h_mark]

theorem taking_of_above {counters : IngestCounters} (h : Above s.highWater bar.openTime) :
    s.store bar counters =
      s.taking (some (bar.openTime, bar.values)) { counters with accepted := counters.accepted + 1 } := by
  unfold taking
  have h_mark : markAfter s.highWater [(bar.openTime, bar.values)] = some bar.openTime := if_pos h
  rw [Option.toList_some, records, if_pos h, records, List.append_nil, h_mark, store,
    if_pos (show ∀ mark ∈ s.highWater, mark < bar.openTime from h)]

theorem admissible_iff (h : InOrder s) {t : Instant} :
    (¬ (t ∈ s.bars.map Prod.fst ∨ s.highWater = some t) ∧ ¬ ∃ mark ∈ s.highWater, t < mark) ↔
      Above s.highWater t := by
  constructor
  · rintro ⟨h_duplicate, h_late⟩ mark h_mark
    refine lt_of_le_of_ne (not_lt.mp fun h_lt => h_late ⟨mark, h_mark, h_lt⟩) fun h_eq => ?_
    exact h_duplicate (.inr (h_eq ▸ h_mark))
  · intro h_above
    refine ⟨?_, ?_⟩
    · rintro (h_stored | h_mark)
      · obtain ⟨stored, h_mem, rfl⟩ := List.mem_map.mp h_stored
        exact h.below stored h_mem h_above
      · exact lt_irrefl t (h_above t h_mark)
    · rintro ⟨mark, h_mark, h_lt⟩
      exact lt_asymm h_lt (h_above mark h_mark)

theorem judge_streaming (h_stream : s.dropLate = true) (h : InOrder s) : ∃ counters, (s.judge bar).1 =
    s.taking (if s.IsClosed bar then some (bar.openTime, bar.values) else none) counters := by
  unfold judge
  dsimp only
  by_cases h_closed : s.IsClosed bar
  · rw [if_neg (not_not.mpr h_closed), if_pos h_closed]
    by_cases h_duplicate : bar.openTime ∈ s.bars.map Prod.fst ∨ s.highWater = some bar.openTime
    · rw [if_pos h_duplicate]
      refine ⟨_, taking_of_not_above (fun x h_x h_above => ?_) _⟩
      obtain rfl := Option.some.inj h_x
      exact ((admissible_iff h).mpr h_above).1 h_duplicate
    · rw [if_neg h_duplicate]
      by_cases h_late : ∃ mark ∈ s.highWater, bar.openTime < mark
      · rw [if_pos h_late, if_pos h_stream]
        refine ⟨_, taking_of_not_above (fun x h_x h_above => ?_) _⟩
        obtain rfl := Option.some.inj h_x
        exact ((admissible_iff h).mpr h_above).2 h_late
      · rw [if_neg h_late]
        exact ⟨_, taking_of_above ((admissible_iff h).mp ⟨h_duplicate, h_late⟩)⟩
  · rw [if_pos h_closed, if_neg h_closed]
    exact ⟨_, taking_of_not_above (fun _ h_x => by cases h_x) _⟩

theorem offer_streaming (h_stream : s.dropLate = true) (h : InOrder s) :
    ∃ counters, (s.offer lib candle).1 = s.taking (closedBar lib s.closedBefore candle) counters := by
  unfold offer closedBar
  dsimp only
  cases parse lib candle with
  | error e => exact ⟨_, taking_of_not_above (fun _ h_x => by cases h_x) _⟩
  | ok parsed =>
    cases parsed with
    | none => exact ⟨_, taking_of_not_above (fun _ h_x => by cases h_x) _⟩
    | some bar =>
      obtain ⟨counters, h_judge⟩ := @judge_streaming
        { s with counters := { s.counters with offered := s.counters.offered + 1 } } bar h_stream
        ⟨h.sorted, h.below⟩
      exact ⟨counters, h_judge⟩

end ClosedBarIngest

theorem InOrder.taking (h : InOrder s) (bar : Option Bar) (counters : IngestCounters) :
    InOrder (s.taking bar counters) where
  sorted := by
    refine List.pairwise_append.mpr ⟨h.sorted, pairwise_records, fun a h_a b h_b => ?_⟩
    obtain ⟨mark, h_mark, h_not⟩ : ∃ mark ∈ s.highWater, ¬ mark < a.1 := by
      simpa only [Above, not_forall, exists_prop] using h.below a h_a
    exact (not_lt.mp h_not).trans_lt (above_of_mem_records h_b mark h_mark)
  below := by
    intro a h_a h_above
    obtain ⟨h_mark, h_all⟩ := above_markAfter.mp h_above
    rcases List.mem_append.mp h_a with h_old | h_new
    · exact h.below a h_old h_mark
    · obtain ⟨pre, post, h_split, -, -⟩ := mem_records.mp h_new
      refine lt_irrefl a.1 (h_all a ?_)
      rw [h_split]
      exact List.mem_append_right pre List.mem_cons_self

/-! ## Runs -/

inductive Op where
  | offer (candle : Value)
  | advanceTo (now : Option Instant)
  | drain

/-- The gate after some operations, and what it drained. -/
def run (lib : Library) : ClosedBarIngest → List Op → ClosedBarIngest × List Bar
  | s, [] => (s, [])
  | s, .offer candle :: rest => run lib (s.offer lib candle).1 rest
  | s, .advanceTo now :: rest => run lib (s.advanceTo now) rest
  | s, .drain :: rest => ((run lib s.drain.1 rest).1, s.drain.2 ++ (run lib s.drain.1 rest).2)

/-- The clock that `advance_to` leaves. -/
def moved (now : Instant) : Option Instant → Instant
  | none => now
  | some moment => if now < moment then moment else now

theorem advanceTo_eq (moment : Option Instant) :
    s.advanceTo moment = { s with now := moved s.now moment } := by
  unfold ClosedBarIngest.advanceTo moved
  cases moment with
  | none => rfl
  | some moment =>
    dsimp only
    split_ifs
    · rfl
    · rfl

/-- The clock after some operations. -/
def clockAfter (now : Instant) : List Op → Instant
  | [] => now
  | .offer _ :: rest => clockAfter now rest
  | .advanceTo moment :: rest => clockAfter (moved now moment) rest
  | .drain :: rest => clockAfter now rest

/-- The closed bars that are offered. -/
def arrivals (lib : Library) (interval : ℤ) : Instant → List Op → List Bar
  | _, [] => []
  | now, .offer candle :: rest =>
    (closedBar lib (now - interval) candle).toList ++ arrivals lib interval now rest
  | now, .advanceTo moment :: rest => arrivals lib interval (moved now moment) rest
  | now, .drain :: rest => arrivals lib interval now rest

variable {ops : List Op}

theorem run_bars (h_stream : s.dropLate = true) (h : InOrder s) :
    (run lib s ops).2 ++ (run lib s ops).1.bars =
      s.bars ++ records s.highWater (arrivals lib s.interval s.now ops) ∧
    InOrder (run lib s ops).1 := by
  induction ops generalizing s with
  | nil =>
    rw [run, arrivals, records, List.nil_append, List.append_nil]
    exact ⟨rfl, h⟩
  | cons op rest ih =>
    cases op with
    | offer candle =>
      obtain ⟨counters, h_offer⟩ := @ClosedBarIngest.offer_streaming lib s candle h_stream h
      rw [run, arrivals, h_offer, records_append, ← List.append_assoc]
      exact ih h_stream (h.taking _ counters)
    | advanceTo moment =>
      rw [run, arrivals, advanceTo_eq]
      exact ih h_stream ⟨h.sorted, h.below⟩
    | drain =>
      obtain ⟨h_bars, h_order⟩ := ih (s := s.drain.1) h_stream ⟨.nil, List.forall_mem_nil _⟩
      have h_frame : s.drain.2 = s.bars := h.frame_eq
      rw [run, arrivals, h_frame, List.append_assoc, h_bars]
      exact ⟨rfl, h_order⟩

theorem exists_offer_of_arrivals {pre post : List Bar} {x : Bar}
    (h : arrivals lib interval now ops = pre ++ x :: post) :
    ∃ before candle after, ops = before ++ .offer candle :: after ∧
      arrivals lib interval now before = pre ∧
      closedBar lib (clockAfter now before - interval) candle = some x := by
  induction ops generalizing now pre with
  | nil => exact absurd h.symm (List.append_ne_nil_of_right_ne_nil pre (List.cons_ne_nil x post))
  | cons op rest ih =>
    have h_later : ∀ {now' : Instant} {pre' : List Bar},
        (∀ before, arrivals lib interval now (op :: before) = pre ↔
          arrivals lib interval now' before = pre') →
        (∀ before, clockAfter now (op :: before) = clockAfter now' before) →
        arrivals lib interval now' rest = pre' ++ x :: post →
        ∃ before candle after, op :: rest = before ++ .offer candle :: after ∧
          arrivals lib interval now before = pre ∧
          closedBar lib (clockAfter now before - interval) candle = some x := by
      intro now' pre' h_arrivals h_clock h_rest
      obtain ⟨before, candle, after, rfl, h_before, h_bar⟩ := ih h_rest
      refine ⟨op :: before, candle, after, rfl, (h_arrivals before).mpr h_before, ?_⟩
      rw [h_clock]
      exact h_bar
    cases op with
    | offer candle =>
      rw [arrivals] at h
      cases h_bar : closedBar lib (now - interval) candle with
      | none =>
        rw [h_bar, Option.toList_none, List.nil_append] at h
        refine h_later (fun before => ?_) (fun _ => rfl) h
        rw [arrivals, h_bar, Option.toList_none, List.nil_append]
      | some first =>
        rw [h_bar, Option.toList_some, List.singleton_append] at h
        cases pre with
        | nil =>
          obtain ⟨rfl, -⟩ := List.cons.inj h
          exact ⟨[], candle, rest, rfl, rfl, h_bar⟩
        | cons head pre =>
          obtain ⟨rfl, h_rest⟩ := List.cons.inj h
          refine h_later (fun before => ?_) (fun _ => rfl) h_rest
          rw [arrivals, h_bar, Option.toList_some, List.singleton_append, List.cons_inj_right]
    | advanceTo moment => exact h_later (fun _ => Iff.rfl) (fun _ => rfl) h
    | drain => exact h_later (fun _ => Iff.rfl) (fun _ => rfl) h

theorem arrivals_append {rest : List Op} : arrivals lib interval now (ops ++ rest) =
    arrivals lib interval now ops ++ arrivals lib interval (clockAfter now ops) rest := by
  induction ops generalizing now with
  | nil => rfl
  | cons op ops ih =>
    cases op with
    | offer candle => rw [List.cons_append, arrivals, arrivals, ih, List.append_assoc, clockAfter]
    | advanceTo moment => rw [List.cons_append, arrivals, arrivals, ih, clockAfter]
    | drain => rw [List.cons_append, arrivals, arrivals, ih, clockAfter]

/-! ## Batches -/

def candles (ops : List Op) : List Value :=
  ops.filterMap fun op => match op with
    | .offer candle => some candle
    | _ => none

/-- The clock stands still. -/
def FixedClock (ops : List Op) : Prop := ∀ moment, .advanceTo moment ∉ ops

theorem arrivals_map_offer (rows : List Value) : arrivals lib interval now (rows.map .offer) =
    rows.flatMap fun candle => (closedBar lib (now - interval) candle).toList := by
  induction rows with
  | nil => rfl
  | cons candle rest ih => rw [List.map_cons, arrivals, ih, List.flatMap_cons]

theorem arrivals_of_fixedClock (h : FixedClock ops) :
    arrivals lib interval now ops = arrivals lib interval now ((candles ops).map .offer) := by
  induction ops with
  | nil => rfl
  | cons op rest ih =>
    have h_rest := ih fun moment h_moment => h moment (List.mem_cons_of_mem op h_moment)
    cases op with
    | offer candle =>
      rw [arrivals, h_rest]
      rfl
    | advanceTo moment => exact absurd List.mem_cons_self (h moment)
    | drain => exact h_rest

theorem offer_eq_error_iff : (s.offer lib candle).2 = .error e ↔ Overflows lib candle := by
  rw [← @parse_eq_error_iff lib candle e]
  unfold ClosedBarIngest.offer
  dsimp only
  cases parse lib candle with
  | error e' => exact iff_of_true rfl rfl
  | ok parsed =>
    cases parsed with
    | none => exact iff_of_false nofun nofun
    | some bar => exact iff_of_false nofun nofun

theorem offer_returns_iff :
    (∃ admitted, (s.offer lib candle).2 = .ok admitted) ↔ ¬ Overflows lib candle := by
  rw [← @offer_eq_error_iff lib s candle ()]
  cases (s.offer lib candle).2 with
  | error e => exact iff_of_false nofun (not_not.mpr rfl)
  | ok admitted => exact iff_of_true ⟨admitted, rfl⟩ nofun

variable {rows : List Value}

theorem extend_eq_ok (h : ∀ candle ∈ rows, ¬ Overflows lib candle) :
    s.extend lib rows = .ok (run lib s (rows.map .offer)).1 := by
  induction rows generalizing s with
  | nil => rfl
  | cons candle rest ih =>
    obtain ⟨h_candle, h_rest⟩ := List.forall_mem_cons.mp h
    obtain ⟨admitted, h_offer⟩ := (offer_returns_iff (s := s)).mpr h_candle
    have h_pair : s.offer lib candle = ((s.offer lib candle).1, .ok admitted) := Prod.ext rfl h_offer
    rw [List.map_cons, run, ← ih h_rest, ClosedBarIngest.extend, List.foldlM_cons, h_pair]
    rfl

theorem extend_eq_error (h : ∃ candle ∈ rows, Overflows lib candle) :
    s.extend lib rows = .error () := by
  induction rows generalizing s with
  | nil =>
    obtain ⟨candle, h_candle, -⟩ := h
    cases h_candle
  | cons candle rest ih =>
    rw [ClosedBarIngest.extend, List.foldlM_cons]
    by_cases h_first : Overflows lib candle
    · have h_pair : s.offer lib candle = ((s.offer lib candle).1, .error ()) :=
        Prod.ext rfl (offer_eq_error_iff.mpr h_first)
      rw [h_pair]
      rfl
    · obtain ⟨admitted, h_offer⟩ := (offer_returns_iff (s := s)).mpr h_first
      have h_pair : s.offer lib candle = ((s.offer lib candle).1, .ok admitted) := Prod.ext rfl h_offer
      obtain ⟨other, h_other, h_overflows⟩ := h
      rw [h_pair]
      refine ih ⟨other, (List.mem_cons.mp h_other).resolve_left ?_, h_overflows⟩
      rintro rfl
      exact h_first h_overflows

theorem closedBarFrame_eq_ok {dropLate : Bool} (h : ∀ candle ∈ rows, ¬ Overflows lib candle) :
    (closedBarFrame lib interval dropLate now rows).map Prod.fst =
      .ok (run lib (.new interval dropLate now) (rows.map .offer)).1.frame := by
  rw [closedBarFrame, extend_eq_ok h]
  rfl

theorem closedBarFrame_eq_error {dropLate : Bool} (h : ∃ candle ∈ rows, Overflows lib candle) :
    (closedBarFrame lib interval dropLate now rows).map Prod.fst = .error () := by
  rw [closedBarFrame, extend_eq_error h]
  rfl

/-! ## Historical gates -/

/-- A historical gate with a bar that it has not seen, if there is one. -/
def Keeps (s : ClosedBarIngest) (bar : Option Bar) (s' : ClosedBarIngest) : Prop :=
  s'.interval = s.interval ∧ s'.dropLate = s.dropLate ∧ s'.now = s.now ∧
    s'.bars = s.bars ++ bar.toList ∧ ∀ mark ∈ s'.highWater, mark ∈ s'.bars.map Prod.fst

theorem keeps_none (h_mark : ∀ mark ∈ s.highWater, mark ∈ s.bars.map Prod.fst)
    (counters : IngestCounters) : Keeps s none { s with counters := counters } :=
  ⟨rfl, rfl, rfl, (List.append_nil _).symm, h_mark⟩

theorem keeps_store (h_mark : ∀ mark ∈ s.highWater, mark ∈ s.bars.map Prod.fst)
    (counters : IngestCounters) : Keeps s (some (bar.openTime, bar.values)) (s.store bar counters) := by
  refine ⟨rfl, rfl, rfl, rfl, fun mark h_highWater => ?_⟩
  unfold ClosedBarIngest.store at h_highWater ⊢
  rw [List.map_append, List.mem_append]
  dsimp only at h_highWater
  split_ifs at h_highWater
  · refine .inr ?_
    rw [← Option.some.inj h_highWater]
    exact List.mem_singleton_self _
  · exact .inl (h_mark mark h_highWater)

theorem judge_historical (h_late : s.dropLate = false)
    (h_mark : ∀ mark ∈ s.highWater, mark ∈ s.bars.map Prod.fst)
    (h_fresh : s.IsClosed bar → bar.openTime ∉ s.bars.map Prod.fst) :
    Keeps s (if s.IsClosed bar then some (bar.openTime, bar.values) else none) (s.judge bar).1 := by
  unfold ClosedBarIngest.judge
  dsimp only
  by_cases h_closed : s.IsClosed bar
  · have h_seen : ¬ (bar.openTime ∈ s.bars.map Prod.fst ∨ s.highWater = some bar.openTime) :=
      fun h => h.elim (h_fresh h_closed) fun h_at => h_fresh h_closed (h_mark _ h_at)
    rw [if_neg (not_not.mpr h_closed), if_pos h_closed, if_neg h_seen]
    by_cases h_below : ∃ mark ∈ s.highWater, bar.openTime < mark
    · rw [if_pos h_below, if_neg (Bool.eq_false_iff.mp h_late)]
      exact keeps_store h_mark _
    · rw [if_neg h_below]
      exact keeps_store h_mark _
  · rw [if_pos h_closed, if_neg h_closed]
    exact keeps_none h_mark _

theorem offer_historical (h_late : s.dropLate = false)
    (h_mark : ∀ mark ∈ s.highWater, mark ∈ s.bars.map Prod.fst)
    (h_fresh : ∀ x ∈ closedBar lib s.closedBefore candle, x.1 ∉ s.bars.map Prod.fst) :
    Keeps s (closedBar lib s.closedBefore candle) (s.offer lib candle).1 := by
  unfold ClosedBarIngest.offer
  unfold closedBar at h_fresh ⊢
  dsimp only
  cases h_parse : parse lib candle with
  | error e => exact keeps_none h_mark _
  | ok parsed =>
    cases parsed with
    | none => exact keeps_none h_mark _
    | some bar =>
      rw [h_parse] at h_fresh
      have h_judge := @judge_historical
        { s with counters := { s.counters with offered := s.counters.offered + 1 } } bar h_late h_mark
        fun h_closed => h_fresh (bar.openTime, bar.values) (if_pos h_closed)
      exact h_judge

theorem run_historical (h_late : s.dropLate = false)
    (h_mark : ∀ mark ∈ s.highWater, mark ∈ s.bars.map Prod.fst)
    (h_nodup : ((s.bars ++ arrivals lib s.interval s.now (rows.map .offer)).map Prod.fst).Nodup) :
    (run lib s (rows.map .offer)).1.bars = s.bars ++ arrivals lib s.interval s.now (rows.map .offer) := by
  induction rows generalizing s with
  | nil => exact (List.append_nil _).symm
  | cons candle rest ih =>
    rw [List.map_cons, arrivals, ← List.append_assoc] at h_nodup
    have h_fresh : ∀ x ∈ closedBar lib s.closedBefore candle, x.1 ∉ s.bars.map Prod.fst := by
      intro x h_x h_seen
      have h_first := (List.sublist_append_left _ _).map Prod.fst |>.nodup h_nodup
      rw [List.map_append] at h_first
      refine List.disjoint_of_nodup_append h_first h_seen (List.mem_map_of_mem ?_)
      exact Option.mem_toList.mpr h_x
    obtain ⟨h_interval, h_dropLate, h_now, h_bars, h_highWater⟩ := offer_historical h_late h_mark h_fresh
    have h_rest := ih (s := (s.offer lib candle).1) (h_dropLate.trans h_late) h_highWater (by
      rw [h_interval, h_now, h_bars]
      exact h_nodup)
    rw [List.map_cons, run, h_rest, h_interval, h_now, h_bars, arrivals, List.append_assoc]
    rfl

theorem closedBarFrame_perm {rows' : List Value} (h : rows.Perm rows')
    (h_nodup : ((arrivals lib interval now (rows.map .offer)).map Prod.fst).Nodup) :
    (closedBarFrame lib interval false now rows).map Prod.fst =
      (closedBarFrame lib interval false now rows').map Prod.fst := by
  by_cases h_overflows : ∃ candle ∈ rows, Overflows lib candle
  · rw [closedBarFrame_eq_error h_overflows, closedBarFrame_eq_error]
    obtain ⟨candle, h_candle, h_candle_overflows⟩ := h_overflows
    exact ⟨candle, h.subset h_candle, h_candle_overflows⟩
  · have h_fine : ∀ candle ∈ rows, ¬ Overflows lib candle := fun candle h_candle h_candle_overflows =>
      h_overflows ⟨candle, h_candle, h_candle_overflows⟩
    have h_arrivals : (arrivals lib interval now (rows.map .offer)).Perm
        (arrivals lib interval now (rows'.map .offer)) := by
      rw [arrivals_map_offer, arrivals_map_offer]
      exact h.flatMap_right _
    have h_nodup' := ((h_arrivals.map Prod.fst).nodup_iff).mp h_nodup
    have h_bars := @run_historical lib (.new interval false now) rows rfl nofun h_nodup
    have h_bars' := @run_historical lib (.new interval false now) rows' rfl nofun h_nodup'
    rw [closedBarFrame_eq_ok h_fine, closedBarFrame_eq_ok fun candle h_candle =>
      h_fine candle (h.symm.subset h_candle), ClosedBarIngest.frame, ClosedBarIngest.frame, h_bars, h_bars']
    exact congrArg Except.ok (KeySort.insertionSort_congr h_nodup h_arrivals)

/-! ## Counting -/

/-- What becomes of an offer: accepted, forming, duplicate, malformed or late. -/
def fates (c : IngestCounters) : List ℕ :=
  [c.accepted, c.formingDropped, c.duplicates, c.malformed, c.lateEvents]

/-- One more offer, and one more of exactly one fate. -/
def CountsOne (c c' : IngestCounters) : Prop :=
  c'.offered = c.offered + 1 ∧ ∃ i < 5, fates c' = (fates c).modify i (· + 1)

theorem judge_counts (s : ClosedBarIngest) (bar : Parsed) :
    (s.judge bar).1.counters.offered = s.counters.offered ∧
      ∃ i < 5, fates (s.judge bar).1.counters = (fates s.counters).modify i (· + 1) := by
  unfold ClosedBarIngest.judge
  dsimp only
  split_ifs with h_closed h_duplicate h_below h_stream
  · exact ⟨rfl, 2, by omega, rfl⟩
  · exact ⟨rfl, 4, by omega, rfl⟩
  · exact ⟨rfl, 0, by omega, rfl⟩
  · exact ⟨rfl, 0, by omega, rfl⟩
  · exact ⟨rfl, 1, by omega, rfl⟩

theorem offer_counts (h : ¬ Overflows lib candle) :
    CountsOne s.counters (s.offer lib candle).1.counters := by
  unfold ClosedBarIngest.offer CountsOne
  dsimp only
  cases h_parse : parse lib candle with
  | error e => exact absurd (parse_eq_error_iff.mp h_parse) h
  | ok parsed =>
    cases parsed with
    | none => exact ⟨rfl, 3, by omega, rfl⟩
    | some bar => exact judge_counts _ bar

/-! ## The contract -/

theorem run_append {rest : List Op} : run lib s (ops ++ rest) =
    ((run lib (run lib s ops).1 rest).1, (run lib s ops).2 ++ (run lib (run lib s ops).1 rest).2) := by
  induction ops generalizing s with
  | nil => rfl
  | cons op ops ih =>
    cases op with
    | offer candle => rw [List.cons_append, run, run, ih]
    | advanceTo moment => rw [List.cons_append, run, run, ih]
    | drain => rw [List.cons_append, run, run, ih, List.append_assoc]

theorem run_drained : (run lib (.new interval true now) (ops ++ [.drain])).2 =
    records none (arrivals lib interval now ops) := by
  obtain ⟨h_bars, h_order⟩ :=
    @run_bars lib _ ops rfl (InOrder.new interval true now)
  have h_records : (run lib (.new interval true now) ops).2 ++ (run lib (.new interval true now) ops).1.bars =
      records none (arrivals lib interval now ops) := h_bars
  rw [run_append, ← h_records]
  show _ ++ ((run lib (.new interval true now) ops).1.frame ++ []) = _
  rw [List.append_nil, h_order.frame_eq]

/-- One value per bar, and the stream equals the batch. -/
structure OneValuePerBar (lib : Library) (interval : ℤ) (now : Instant) (ops : List Op) : Prop where
  /-- Every offer returns, and counts one fate. -/
  returns : ∀ before candle after, ops = before ++ .offer candle :: after →
    (∃ admitted, ((run lib (.new interval true now) before).1.offer lib candle).2 = .ok admitted) ∧
      CountsOne (run lib (.new interval true now) before).1.counters
        ((run lib (.new interval true now) before).1.offer lib candle).1.counters
  /-- What the drains release has increasing open times. -/
  increasing : (run lib (.new interval true now) ops).2.Pairwise fun a b => a.1 < b.1
  /-- A bar that was released was offered when the clock had closed it, later than all closed
      bars before it. -/
  admitted : ∀ x ∈ (run lib (.new interval true now) ops).2,
    ∃ before candle after, ops = before ++ .offer candle :: after ∧
      closedBar lib (clockAfter now before - interval) candle = some x ∧
      ∀ y ∈ arrivals lib interval now before, y.1 < x.1
  /-- Every such bar is released by the next drain, if not before. -/
  released : ∀ before candle after x, ops = before ++ .offer candle :: after →
    closedBar lib (clockAfter now before - interval) candle = some x →
    (∀ y ∈ arrivals lib interval now before, y.1 < x.1) →
    x ∈ (run lib (.new interval true now) (ops ++ [.drain])).2
  /-- With a fixed clock the drains release the frame of the batch. -/
  batch : FixedClock ops → (closedBarFrame lib interval true now (candles ops)).map Prod.fst =
    .ok (run lib (.new interval true now) (ops ++ [.drain])).2

/-- The frame of rows without duplicates is the same for every order of arrival. -/
def OrderFree (lib : Library) (interval : ℤ) (now : Instant) (rows : List Value) : Prop :=
  ((arrivals lib interval now (rows.map .offer)).map Prod.fst).Nodup → ∀ rows', rows.Perm rows' →
    (closedBarFrame lib interval false now rows).map Prod.fst =
      (closedBarFrame lib interval false now rows').map Prod.fst

theorem drained_begins : (run lib (.new interval true now) ops).2 <+:
    records none (arrivals lib interval now ops) := by
  rw [← run_drained, run_append]
  exact List.prefix_append _ _

theorem frame_of_batch (h_fixed : FixedClock ops)
    (h_fine : ∀ candle, .offer candle ∈ ops → ¬ Overflows lib candle) :
    (closedBarFrame lib interval true now (candles ops)).map Prod.fst =
      .ok (run lib (.new interval true now) (ops ++ [.drain])).2 := by
  have h_rows : ∀ candle ∈ candles ops, ¬ Overflows lib candle := by
    intro candle h_candle
    obtain ⟨op, h_op, h_eq⟩ := List.mem_filterMap.mp h_candle
    cases op with
    | offer other =>
      obtain rfl := Option.some.inj h_eq
      exact h_fine _ h_op
    | advanceTo moment => cases h_eq
    | drain => cases h_eq
  obtain ⟨h_bars, h_order⟩ :=
    @run_bars lib _ ((candles ops).map .offer) rfl (InOrder.new interval true now)
  have h_undrained : ∀ (rows : List Value) (s : ClosedBarIngest), (run lib s (rows.map .offer)).2 = [] := by
    intro rows
    induction rows with
    | nil => exact fun _ => rfl
    | cons candle rest ih => exact fun s => ih _
  have h_batch : (run lib (.new interval true now) ((candles ops).map .offer)).1.bars =
      records none (arrivals lib interval now ((candles ops).map .offer)) := by
    rw [h_undrained] at h_bars
    exact h_bars
  rw [closedBarFrame_eq_ok h_rows, h_order.frame_eq, h_batch, run_drained, arrivals_of_fixedClock h_fixed]

/-- The stream keeps its contract exactly where no offered candle overflows a float; the order
    in which a batch arrives never matters. -/
theorem one_value_per_bar (lib : Library) (interval : ℤ) (now : Instant) (ops : List Op)
    (rows : List Value) :
    (OneValuePerBar lib interval now ops ↔ ∀ candle, .offer candle ∈ ops → ¬ Overflows lib candle) ∧
      OrderFree lib interval now rows := by
  refine ⟨⟨fun h candle h_offer => ?_, fun h_fine => ?_⟩, fun h_nodup rows' h_perm =>
    closedBarFrame_perm h_perm h_nodup⟩
  · obtain ⟨before, after, h_ops⟩ := List.append_of_mem h_offer
    exact offer_returns_iff.mp (h.returns before candle after h_ops).1
  · refine ⟨?_, ?_, ?_, ?_, fun h_fixed => frame_of_batch h_fixed h_fine⟩
    · rintro before candle after rfl
      have h_candle := h_fine candle (List.mem_append_right before List.mem_cons_self)
      exact ⟨offer_returns_iff.mpr h_candle, offer_counts h_candle⟩
    · exact pairwise_records.sublist drained_begins.sublist
    · intro x h_x
      obtain ⟨pre, post, h_arrivals, -, h_pre⟩ := mem_records.mp (drained_begins.subset h_x)
      obtain ⟨before, candle, after, h_ops, rfl, h_bar⟩ := exists_offer_of_arrivals h_arrivals
      exact ⟨before, candle, after, h_ops, h_bar, h_pre⟩
    · rintro before candle after x rfl h_bar h_before
      rw [run_drained, mem_records, arrivals_append, arrivals, h_bar]
      exact ⟨_, _, rfl, above_none, h_before⟩

/-! ## A price that is too large -/

/-- A row whose opening price has 401 digits. -/
def largePrice : Value :=
  .list ((.scalar (.int 0)) :: (.scalar (.int (10 ^ 400))) :: List.replicate 4 (.scalar (.int 1)))

theorem largePrice_raises : ∃ (lib : Library) (ops : List Op), ¬ OneValuePerBar lib 60 1000 ops := by
  let lib : Library := { ofMillis := some, ofTimeText := fun _ => none
                         floatOfInt := fun n => .finite (n < 0) n.natAbs 0, floatOfText := fun _ => none }
  refine ⟨lib, [.offer largePrice], fun h => ?_⟩
  refine offer_returns_iff.mp (h.returns [] largePrice [] rfl).1 ?_
  refine ⟨⟨0, (.scalar (.int (10 ^ 400))) :: List.replicate 4 (.scalar (.int 1)), none⟩, rfl,
    [], 10 ^ 400, _, rfl, ?_, List.forall_mem_nil _⟩
  decide +kernel

end VyomQuant.MarketData
