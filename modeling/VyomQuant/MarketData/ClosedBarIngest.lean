/-
  VyomQuant.MarketData.ClosedBarIngest

  The arrival of bars (`market_data_contract.py`): what is read of a candle, the four gates
  of `offer`, and the frame or the drains that the bars leave by.

  A streaming gate admits what is above its high-water mark, so what it drains are the
  records of the closed bars that it was offered (`run_drained`).  An integer that is too
  large for a float is the one thing that `offer` does not catch.
-/

import VyomQuant.Lib.HighWater
import VyomQuant.Lib.KeySort
import VyomQuant.Lib.Rounding
import VyomQuant.StrategyDag.DagHash

namespace VyomQuant.MarketData

open StrategyDag (Value Scalar PyFloat finiteValue)

/-- A tz-naive UTC instant, in nanoseconds. -/
abbrev Instant := ℤ

/-! ## Reading a candle -/

/-- The readings that are the library's: of a time in milliseconds, of the text of a time, of
    an integer within the range of floats, and of the text of a number. -/
structure Library where
  ofMillis : ℤ → Option Instant
  ofTimeText : String → Option Instant
  floatOfInt : ℤ → PyFloat
  floatOfText : String → Option PyFloat

/-- `to_utc_naive`. -/
def toUtcNaive (lib : Library) : Value → Option Instant
  | .scalar (.int n) => lib.ofMillis n
  | .scalar (.float (.finite negative digits exponent)) =>
    lib.ofMillis (Decimal.towardZero (finiteValue negative digits exponent))
  | .scalar (.str text) => lib.ofTimeText text
  | _ => none

/-- `OHLCV_COLUMNS`. -/
def ohlcvColumns : List String := ["open", "high", "low", "close", "volume"]

/-- `_TIMESTAMP_KEYS`. -/
def timestampKeys : List String := ["open_time", "timestamp", "time", "t"]

/-- `key in candle`, and the value. -/
def member (members : List (String × Value)) (key : String) : Option Value := members.lookup key

/-- `bool(value)`. -/
def truthy : Value → Bool
  | .scalar .none => false
  | .scalar (.bool b) => b
  | .scalar (.int n) => n ≠ 0
  | .scalar (.float (.finite _ digits _)) => digits ≠ 0
  | .scalar (.float _) => true
  | .scalar (.str text) => text ≠ ""
  | .list items => !items.isEmpty
  | .dict members => !members.isEmpty

/-- `is_closed`, where the feed says anything. -/
def feedSaysClosed (members : List (String × Value)) : Option Bool :=
  match member members "is_closed" with
  | none => none
  | some (.scalar .none) => none
  | some flag => some (truthy flag)

/-- A candle before its values are converted. -/
structure RawCandle where
  openTime : Instant
  values : List Value
  feedSaysClosed : Option Bool

/-- `list(candle)` of what is not a mapping. -/
def rowOf : Value → Option (List Value)
  | .list items => some items
  | .scalar (.str text) => some (text.toList.map fun c => .scalar (.str (String.ofList [c])))
  | _ => none

/-- `normalise_candle`. -/
def normaliseCandle (lib : Library) : Value → Option RawCandle
  | .dict members => do
    let stamp ← timestampKeys.findSome? (member members)
    let values ← ohlcvColumns.mapM (member members)
    let openTime ← toUtcNaive lib stamp
    return { openTime := openTime, values := values, feedSaysClosed := feedSaysClosed members }
  | candle =>
    match rowOf candle with
    | some (stamp :: rest) =>
      if rest.length < 5 then none
      else (toUtcNaive lib stamp).map fun openTime =>
        { openTime := openTime, values := rest.take 5, feedSaysClosed := none }
    | _ => none

/-- What `float` cannot convert: the least integer that rounds beyond the largest float. -/
def overflowBound : ℕ := 2 ^ 1024 - 2 ^ 970

/-- `float(item)`, which raises for an integer that is too large. -/
def toFloat (lib : Library) : Value → Except Unit (Option PyFloat)
  | .scalar (.int n) =>
    if overflowBound ≤ n.natAbs then .error () else .ok (some (lib.floatOfInt n))
  | .scalar (.bool b) => .ok (some (.finite false (if b then 1 else 0) 0))
  | .scalar (.float x) => .ok (some x)
  | .scalar (.str text) => .ok (lib.floatOfText text)
  | _ => .ok none

/-- `math.isfinite`. -/
def isFinite : PyFloat → Bool
  | .finite _ _ _ => true
  | _ => false

/-- The loop of `_parse`, up to the first value that is no finite number. -/
def toFloats (lib : Library) : List Value → Except Unit (Option (List PyFloat))
  | [] => .ok (some [])
  | item :: rest => do
    match (← toFloat lib item).filter isFinite with
    | none => return none
    | some x =>
      let xs ← toFloats lib rest
      return xs.map (x :: ·)

structure Parsed where
  openTime : Instant
  values : List PyFloat
  feedSaysClosed : Option Bool

/-- `_parse`. -/
def parse (lib : Library) (candle : Value) : Except Unit (Option Parsed) :=
  match normaliseCandle lib candle with
  | none => .ok none
  | some raw => do
    let values ← toFloats lib raw.values
    return values.map fun values =>
      { openTime := raw.openTime, values := values, feedSaysClosed := raw.feedSaysClosed }

/-! ## The gate -/

structure IngestCounters where
  offered : ℕ := 0
  accepted : ℕ := 0
  formingDropped : ℕ := 0
  lateEvents : ℕ := 0
  outOfOrder : ℕ := 0
  duplicates : ℕ := 0
  malformed : ℕ := 0

/-- An open time and the five values. -/
abbrev Bar := Instant × List PyFloat

structure ClosedBarIngest where
  interval : ℤ
  dropLate : Bool
  now : Instant
  /-- In the order of arrival. -/
  bars : List Bar
  highWater : Option Instant
  counters : IngestCounters

namespace ClosedBarIngest

def new (interval : ℤ) (dropLate : Bool) (now : Instant) : ClosedBarIngest :=
  { interval := interval, dropLate := dropLate, now := now, bars := [], highWater := none
    counters := {} }

variable (s : ClosedBarIngest)

def closedBefore : Instant := s.now - s.interval

/-- `advance_to`, which raises and changes nothing where the instant cannot be read. -/
def advanceTo : Option Instant → ClosedBarIngest
  | none => s
  | some moment => if s.now < moment then { s with now := moment } else s

/-- The feed has not said that the bar is forming, and neither does the clock. -/
def IsClosed (bar : Parsed) : Prop :=
  bar.feedSaysClosed ≠ some false ∧ bar.openTime ≤ s.closedBefore

instance (bar : Parsed) : Decidable (s.IsClosed bar) := inferInstanceAs (Decidable (_ ∧ _))

/-- The bar is stored and the mark moves. -/
def store (bar : Parsed) (counters : IngestCounters) : ClosedBarIngest :=
  { s with
    bars := s.bars ++ [(bar.openTime, bar.values)]
    highWater := if ∀ mark ∈ s.highWater, mark < bar.openTime then some bar.openTime else s.highWater
    counters := { counters with accepted := counters.accepted + 1 } }

/-- The gates behind the reading: forming, duplicate, and below the mark. -/
def judge (bar : Parsed) : ClosedBarIngest × Bool :=
  let counters := s.counters
  if ¬ s.IsClosed bar then
    ({ s with counters := { counters with formingDropped := counters.formingDropped + 1 } }, false)
  else if bar.openTime ∈ s.bars.map Prod.fst ∨ s.highWater = some bar.openTime then
    ({ s with counters := { counters with duplicates := counters.duplicates + 1 } }, false)
  else if ∃ mark ∈ s.highWater, bar.openTime < mark then
    let counters := { counters with outOfOrder := counters.outOfOrder + 1 }
    if s.dropLate then
      ({ s with counters := { counters with lateEvents := counters.lateEvents + 1 } }, false)
    else (s.store bar counters, true)
  else (s.store bar counters, true)

/-- `offer`: the gate after it, and what it returns unless it raises. -/
def offer (lib : Library) (candle : Value) : ClosedBarIngest × Except Unit Bool :=
  let counters := { s.counters with offered := s.counters.offered + 1 }
  match parse lib candle with
  | .error e => ({ s with counters := counters }, .error e)
  | .ok none =>
    ({ s with counters := { counters with malformed := counters.malformed + 1 } }, .ok false)
  | .ok (some bar) =>
    let judged := { s with counters := counters }.judge bar
    (judged.1, .ok judged.2)

/-- `extend`, which raises where an offer does. -/
def extend (lib : Library) (candles : List Value) : Except Unit ClosedBarIngest :=
  candles.foldlM (fun s candle =>
    match s.offer lib candle with
    | (s', .ok _) => .ok s'
    | (_, .error e) => .error e) s

/-- `frame`: the bars, sorted. -/
def frame : List Bar := s.bars.insertionSort fun a b => a.1 ≤ b.1

/-- `drain` of a streaming gate: what it releases, and what is left. -/
def drain : ClosedBarIngest × List Bar := ({ s with bars := [] }, s.frame)

end ClosedBarIngest

/-- `closed_bar_frame`. -/
def closedBarFrame (lib : Library) (interval : ℤ) (dropLate : Bool) (now : Instant) (rows : List Value) :
    Except Unit (List Bar × IngestCounters) := do
  let ingest ← (ClosedBarIngest.new interval dropLate now).extend lib rows
  return (ingest.frame, ingest.counters)

end VyomQuant.MarketData
