/-
  VyomQuant.Marketplace.PricingEvaluator

  The price suggestion of a submission (`marketplace/pricing_evaluator.py`): seven statistics
  of its backtest evidence are scored in decimal arithmetic of 28 digits, the score is
  rounded to an integer of 0 to 100, and the range of prices is integer arithmetic on it.
  The digest of the evidence is what a stored evaluation is found again by.

  An operation that leaves the exponents of the context raises a signal of `decimal`
  (`decimalException`).
-/

import Mathlib.Data.Prod.Lex
import VyomQuant.Lib.DecimalLimits
import VyomQuant.Marketplace.CalendarDate
import VyomQuant.Marketplace.Money
import VyomQuant.StrategyDag.DagHash

namespace VyomQuant.Marketplace.Pricing

open Decimal
open StrategyDag (strip dumps Value)

/-! ## Constants -/

/-- `WEIGHTS`. -/
structure Weights where
  sharpe : ℕ
  ret : ℕ
  drawdown : ℕ
  winrate : ℕ
  profitFactor : ℕ
  consistency : ℕ
  breadth : ℕ

def WEIGHTS : Weights :=
  { sharpe := 30, ret := 20, drawdown := 15, winrate := 10, profitFactor := 10, consistency := 10,
    breadth := 5 }

/-- `ANCHORS`: the base and the span of a currency. -/
def ANCHORS : List (String × ℕ × ℕ) := [("USD", 2000, 18000), ("INR", 150000, 1350000)]

def MINIMUM_RATIO_PCT : ℕ := 60

def MAXIMUM_RATIO_PCT : ℕ := 250

def ABSOLUTE_MAX_MINOR : ℕ := 100000000

/-- `_EVALUATION_CONTEXT`. -/
def evaluationContext : BoundedContext :=
  { prec := 28, prec_pos := Context.default.prec_pos, emin := -999999, emax := 999999 }

/-- `PRICING_INPUTS`. -/
def PRICING_INPUTS : List String :=
  ["total_return_pct", "sharpe_ratio", "sortino_ratio", "max_drawdown_pct", "win_rate_pct",
    "profit_factor", "total_trades", "start_date", "end_date"]

/-- `DIGEST_INPUTS`. -/
def DIGEST_INPUTS : List String :=
  PRICING_INPUTS ++
    ["source_backtest_id", "dataset_checksum", "dag_hash", "executed_bar_count", "final_capital"]

/-! ## Refusals -/

inductive PricingError where
  | missingEvidenceInputs (names : List String)
  | invalidEvidenceInput (message : String)
  | unsupportedCurrency (currency : String)
  /-- A signal of `decimal` that is trapped. -/
  | decimalException
  | assertionError
deriving DecidableEq

/-! ## Rows -/

/-- What a column of a row holds. -/
inductive Cell where
  | null
  | bool (b : Bool)
  | int (n : ℤ)
  | decimal (d : Number)
  /-- `Decimal('NaN')` and the infinities, by their text. -/
  | special (shown : String)
  | text (s : String)
  | date (d : Date)
  | datetime (d : Date) (shown : String)
  | bytes (typeName : String)
  /-- Anything else, such as a float, by its type and its text. -/
  | other (typeName shown : String)
deriving DecidableEq

/-- `type(value).__name__`. -/
def Cell.typeName : Cell → String
  | .null => "NoneType"
  | .bool _ => "bool"
  | .int _ => "int"
  | .decimal _ => "Decimal"
  | .special _ => "Decimal"
  | .text _ => "str"
  | .date _ => "date"
  | .datetime _ _ => "datetime"
  | .bytes typeName => typeName
  | .other typeName _ => typeName

/-- `str(value)`. -/
def Cell.str : Cell → String
  | .null => "None"
  | .bool b => if b then "True" else "False"
  | .int n => toString n
  | .decimal d => d.str
  | .special shown => shown
  | .text s => s
  | .date d => d.isoformat
  | .datetime _ shown => shown
  | .bytes typeName => typeName
  | .other _ shown => shown

/-- A mapping by column name, or an object with the columns as attributes. -/
abbrev Row := List (String × Cell)

/-- `_ALIASES`. -/
def aliases (name : String) : List String :=
  if name = "source_backtest_id" then ["source_backtest_id", "id"]
  else if name = "max_drawdown_pct" then ["max_drawdown_pct", "max_drawdown"]
  else if name = "win_rate_pct" then ["win_rate_pct", "win_rate"]
  else [name]

/-- `_read`: a column that is null is absent. -/
def read (row : Row) (name : String) : Option Cell :=
  (aliases name).findSome? fun candidate => (row.lookup candidate).filter (· ≠ .null)

/-- `missing_evidence_inputs`. -/
def missingEvidenceInputs (rows : List Row) (required : List String) : List String :=
  let missing :=
    if rows.isEmpty then required
    else required.filter fun name => rows.any fun row => read row name = none
  missing.dedup.insertionSort (· ≤ ·)

/-- `_require`. -/
def require (rows : List Row) (required : List String) : Except PricingError Unit :=
  Except.refuseIf (missingEvidenceInputs rows required ≠ [])
    (.missingEvidenceInputs (missingEvidenceInputs rows required))

section Inputs

variable (scripts : ScriptDigits) (row : Row) (name : String)

/-- `_decimal_input`. -/
def decimalInput : Except PricingError Number :=
  match read row name with
  | none => .error (.missingEvidenceInputs [name])
  | some (.bool _) => .error (.invalidEvidenceInput s!"{name} must be a numeric figure, got a boolean")
  | some (.decimal d) => .ok d
  | some (.int n) => .ok (.ofInt n)
  | some (.special _) => .error (.invalidEvidenceInput s!"{name} is not a finite figure")
  | some (.text s) =>
    match readDecimal scripts (strip s) with
    | .ok d => .ok d
    | .error (.invalidAmount .notFinite) =>
      .error (.invalidEvidenceInput s!"{name} is not a finite figure")
    | .error _ => .error (.invalidEvidenceInput s!"{name} is not a decimal number")
  | some cell =>
    let found := cell.typeName
    .error (.invalidEvidenceInput (s!"{name} must be a Decimal, an int or a decimal string, got " ++
      s!"{found} - a binary floating-point value has already lost exactness by the time it " ++
      "reaches this module (Requirement 8.13)"))

/-- `_integer_input`. -/
def integerInput : Except PricingError ℤ :=
  match read row name with
  | none => .error (.missingEvidenceInputs [name])
  | some (.bool _) => .error (.invalidEvidenceInput s!"{name} must be a whole count, got a boolean")
  | some (.int n) => .ok n
  | some _ => do
    let d ← decimalInput scripts row name
    let found := d.str
    Except.refuseIf (d.value.den ≠ 1)
      (.invalidEvidenceInput s!"{name} must be a whole count, got {found}")
    return d.value.num

/-- `_date_input`. -/
def dateInput : Except PricingError Date :=
  match read row name with
  | none => .error (.missingEvidenceInputs [name])
  | some (.datetime d _) => .ok d
  | some (.date d) => .ok d
  | some (.text s) =>
    Except.ofOption (.invalidEvidenceInput s!"{name} is not an ISO-8601 date")
      (Date.fromisoformat (String.ofList ((strip s).toList.take 10)))
  | some cell =>
    let found := cell.typeName
    .error (.invalidEvidenceInput
      s!"{name} must be a date or an ISO-8601 date string, got {found}")

/-- `_text_input`. -/
def textInput : Except PricingError String :=
  match read row name with
  | none => .error (.missingEvidenceInputs [name])
  | some (.bytes found) =>
    .error (.invalidEvidenceInput s!"{name} must be text, got {found}")
  | some cell => .ok cell.str

/-- `_window_days`: the days from the start to the end, both counted. -/
def windowDays : Except PricingError ℤ := do
  let last ← dateInput row "end_date"
  let first ← dateInput row "start_date"
  return last.toordinal - first.toordinal + 1

end Inputs

/-! ## The statistics -/

/-- The figures of the rows, by column. -/
structure Columns where
  returns : List ℚ
  sharpes : List ℚ
  sortinos : List ℚ
  drawdowns : List ℚ
  winRates : List ℚ
  profitFactors : List ℚ
  tradeCounts : List ℤ
  windowLengths : List ℤ

/-- One column of measured figures. -/
def decimalColumn (scripts : ScriptDigits) (rows : List Row) (name : String) :
    Except PricingError (List ℚ) :=
  rows.mapM fun row => do
    let d ← decimalInput scripts row name
    return d.value

def readColumns (scripts : ScriptDigits) (rows : List Row) : Except PricingError Columns := do
  let returns ← decimalColumn scripts rows "total_return_pct"
  let sharpes ← decimalColumn scripts rows "sharpe_ratio"
  let sortinos ← decimalColumn scripts rows "sortino_ratio"
  let drawdowns ← decimalColumn scripts rows "max_drawdown_pct"
  let winRates ← decimalColumn scripts rows "win_rate_pct"
  let profitFactors ← decimalColumn scripts rows "profit_factor"
  let tradeCounts ← rows.mapM fun row => integerInput scripts row "total_trades"
  let windowLengths ← rows.mapM windowDays
  return {
    returns, sharpes, sortinos, drawdowns, winRates, profitFactors, tradeCounts, windowLengths }

/-- `_clamp01`. -/
def clamp01 (x : ℚ) : ℚ := if x < 0 then 0 else if 1 < x then 1 else x

section Statistics

variable (ctx : BoundedContext)

/-- `_median`: the middle value, or the mean of the two. -/
def median (values : List ℚ) : Option ℚ := do
  let ordered := values.insertionSort (· ≤ ·)
  let middle := values.length / 2
  let high ← ordered[middle]?
  if values.length % 2 = 1 then return high
  else do
    let low ← ordered[middle - 1]?
    let both ← ctx.add low high
    ctx.div both 2

/-- `(value - mean) * (value - mean)`. -/
def squaredDeviation (mean value : ℚ) : Option ℚ := do
  let deviation ← ctx.sub value mean
  ctx.mul deviation deviation

/-- `_population_sd`: both sums run over the values in the order they come. -/
def populationSd (values : List ℚ) : Option ℚ := do
  let total ← ctx.sum values
  let mean ← ctx.div total values.length
  let squares ← values.foldlM (fun acc value => do
    let square ← squaredDeviation ctx mean value
    ctx.add acc square) 0
  let variance ← ctx.div squares values.length
  ctx.sqrt variance

/-- `max(abs(value) for value in drawdowns)`. -/
def worstDrawdown (drawdowns : List ℚ) : Option ℚ := do
  let magnitudes ← drawdowns.mapM ctx.abs
  magnitudes.max?

end Statistics

/-! ## The score -/

/-- What is taken of the columns. -/
structure Statistics where
  conditionCount : ℕ
  returnMedian : ℚ
  returnSd : ℚ
  sharpeMedian : ℚ
  sortinoMedian : ℚ
  drawdownWorst : ℚ
  winRateMedian : ℚ
  profitFactorMedian : ℚ
  tradeTotal : ℤ
  windowDaysShortest : ℤ

/-- What `quality_components` returns. -/
structure Components extends Statistics where
  consistency : ℚ
  qSharpe : ℚ
  qReturn : ℚ
  qDrawdown : ℚ
  qWinrate : ℚ
  qProfitFactor : ℚ
  qConsistency : ℚ
  qBreadth : ℚ
  total : ℚ

section Score

variable (ctx : BoundedContext)

def statistics (columns : Columns) : Option Statistics := do
  let returnMedian ← median ctx columns.returns
  let returnSd ← populationSd ctx columns.returns
  let sharpeMedian ← median ctx columns.sharpes
  let sortinoMedian ← median ctx columns.sortinos
  let drawdownWorst ← worstDrawdown ctx columns.drawdowns
  let winRateMedian ← median ctx columns.winRates
  let profitFactorMedian ← median ctx columns.profitFactors
  let windowDaysShortest ← columns.windowLengths.min?
  return {
    conditionCount := columns.returns.length, returnMedian, returnSd, sharpeMedian, sortinoMedian,
    drawdownWorst, winRateMedian, profitFactorMedian, tradeTotal := columns.tradeCounts.sum,
    windowDaysShortest }

/-- `_clamp01(x / span) * weight`. -/
def weighted (x span : ℚ) (weight : ℕ) : Option ℚ := do
  let fraction ← ctx.div x span
  ctx.mul (clamp01 fraction) weight

variable (s : Statistics)

def sharpeTerm : Option ℚ := do
  let both ← ctx.add s.sharpeMedian s.sortinoMedian
  weighted ctx both 6 WEIGHTS.sharpe

def returnTerm : Option ℚ := weighted ctx s.returnMedian 60 WEIGHTS.ret

def drawdownTerm : Option ℚ := do
  let headroom ← ctx.sub 30 s.drawdownWorst
  weighted ctx headroom 30 WEIGHTS.drawdown

def winrateTerm : Option ℚ := do
  let excess ← ctx.sub s.winRateMedian 40
  weighted ctx excess 30 WEIGHTS.winrate

def profitFactorTerm : Option ℚ := do
  let excess ← ctx.sub s.profitFactorMedian 1
  weighted ctx excess (3 / 2) WEIGHTS.profitFactor

/-- Dispersion inverted, on the scale of the median return. -/
def consistencyOf : Option ℚ := do
  let size ← ctx.abs s.returnMedian
  let dispersion ← ctx.div s.returnSd (max size 1)
  ctx.sub 1 (clamp01 dispersion)

/-- A third of the breadth: a whole number above its floor, as a clamped fraction of its span. -/
def breadthPart (count floor span : ℤ) : Option ℚ := do
  let fraction ← ctx.div (count - floor : ℤ) span
  return clamp01 fraction

def breadthTerm : Option ℚ := do
  let conditionPart ← breadthPart ctx s.conditionCount 3 7
  let tradePart ← breadthPart ctx s.tradeTotal 60 240
  let windowPart ← breadthPart ctx s.windowDaysShortest 90 275
  let twoParts ← ctx.add conditionPart tradePart
  let parts ← ctx.add twoParts windowPart
  let breadth ← ctx.div parts 3
  ctx.mul breadth WEIGHTS.breadth

/-- The seven terms, and their sum from the left. -/
def components : Option Components := do
  let qSharpe ← sharpeTerm ctx s
  let qReturn ← returnTerm ctx s
  let qDrawdown ← drawdownTerm ctx s
  let qWinrate ← winrateTerm ctx s
  let qProfitFactor ← profitFactorTerm ctx s
  let consistency ← consistencyOf ctx s
  let qConsistency ← ctx.mul consistency WEIGHTS.consistency
  let qBreadth ← breadthTerm ctx s
  let total ← [qReturn, qDrawdown, qWinrate, qProfitFactor, qConsistency, qBreadth].foldlM ctx.add
    qSharpe
  return { s with
    consistency, qSharpe, qReturn, qDrawdown, qWinrate, qProfitFactor, qConsistency, qBreadth, total }

end Score

/-- `quality_components`. -/
def qualityComponents (scripts : ScriptDigits) (rows : List Row) :
    Except PricingError Components := do
  require rows PRICING_INPUTS
  let columns ← readColumns scripts rows
  Except.ofOption .decimalException (statistics evaluationContext columns >>= components evaluationContext)

/-- `int(total.quantize(1))`. -/
def wholeScore (total : ℚ) : Option ℤ :=
  (evaluationContext.quantize .halfEven 0 total).map Rat.num

/-- `quality_score`. -/
def qualityScore (scripts : ScriptDigits) (rows : List Row) : Except PricingError ℤ := do
  let components ← qualityComponents scripts rows
  let score ← Except.ofOption .decimalException (wholeScore components.total)
  Except.refuseIf (¬ (0 ≤ score ∧ score ≤ 100)) .assertionError
  return score

/-! ## The range of prices -/

structure PriceRange where
  minimumPriceMinor : ℤ
  recommendedPriceMinor : ℤ
  maximumPriceMinor : ℤ

/-- `_anchor`. -/
def anchor (currency : String) : Except PricingError (ℕ × ℕ) :=
  Except.ofOption (.unsupportedCurrency currency) (ANCHORS.lookup currency)

/-- The three prices of a score. -/
def pricesOf (base span : ℕ) (quality : ℤ) : PriceRange :=
  let recommended := base + span * quality / 100
  { minimumPriceMinor := max 1 (recommended * MINIMUM_RATIO_PCT / 100)
    recommendedPriceMinor := recommended
    maximumPriceMinor := min ABSOLUTE_MAX_MINOR (recommended * MAXIMUM_RATIO_PCT / 100) }

/-- What the closing invariant of `price_range` checks. -/
def PriceRange.InOrder (prices : PriceRange) : Prop :=
  1 ≤ prices.minimumPriceMinor ∧ prices.minimumPriceMinor ≤ prices.recommendedPriceMinor ∧
    prices.recommendedPriceMinor ≤ prices.maximumPriceMinor ∧
    prices.maximumPriceMinor ≤ ABSOLUTE_MAX_MINOR

instance (prices : PriceRange) : Decidable prices.InOrder := by
  unfold PriceRange.InOrder
  infer_instance

/-- `price_range`. -/
def priceRange (scripts : ScriptDigits) (rows : List Row) (currency : String) :
    Except PricingError PriceRange := do
  require rows PRICING_INPUTS
  let (base, span) ← anchor currency
  let quality ← qualityScore scripts rows
  Except.refuseIf (¬ (pricesOf base span quality).InOrder) .assertionError
  return pricesOf base span quality

/-! ## The digest -/

/-- `_digest_entry`, before its figures are written as texts. -/
structure DigestEntry where
  ret : Number
  sharpe : Number
  sortino : Number
  dd : Number
  win : Number
  pf : Number
  trades : ℤ
  start : Date
  last : Date
  id : String
  datasetChecksum : String
  dagHash : String
  bars : ℤ
  finalCapital : Number

/-- `_digest_entry` reads the inputs in the order of `DIGEST_INPUTS`. -/
def digestEntry (scripts : ScriptDigits) (row : Row) : Except PricingError DigestEntry := do
  let ret ← decimalInput scripts row "total_return_pct"
  let sharpe ← decimalInput scripts row "sharpe_ratio"
  let sortino ← decimalInput scripts row "sortino_ratio"
  let dd ← decimalInput scripts row "max_drawdown_pct"
  let win ← decimalInput scripts row "win_rate_pct"
  let pf ← decimalInput scripts row "profit_factor"
  let trades ← integerInput scripts row "total_trades"
  let start ← dateInput row "start_date"
  let last ← dateInput row "end_date"
  let id ← textInput row "source_backtest_id"
  let datasetChecksum ← textInput row "dataset_checksum"
  let dagHash ← textInput row "dag_hash"
  let bars ← integerInput scripts row "executed_bar_count"
  let finalCapital ← decimalInput scripts row "final_capital"
  return {
    ret, sharpe, sortino, dd, win, pf, trades, start, last, id, datasetChecksum, dagHash, bars, finalCapital }

/-- The dictionary of an entry, under the keys of `_DIGEST_KEYS`. -/
def DigestEntry.members (entry : DigestEntry) : List (String × Value) :=
  [("ret", .scalar (.str entry.ret.str)), ("sharpe", .scalar (.str entry.sharpe.str)),
    ("sortino", .scalar (.str entry.sortino.str)), ("dd", .scalar (.str entry.dd.str)),
    ("win", .scalar (.str entry.win.str)), ("pf", .scalar (.str entry.pf.str)),
    ("trades", .scalar (.int entry.trades)), ("start", .scalar (.str entry.start.isoformat)),
    ("end", .scalar (.str entry.last.isoformat)), ("id", .scalar (.str entry.id)),
    ("dataset_checksum", .scalar (.str entry.datasetChecksum)),
    ("dag_hash", .scalar (.str entry.dagHash)), ("bars", .scalar (.int entry.bars)),
    ("final", .scalar (.str entry.finalCapital.str))]

def DigestEntry.value (entry : DigestEntry) : Value := .dict entry.members

/-- The key that the entries are sorted by: the id, and the text of the entry. -/
def DigestEntry.sortKey (entry : DigestEntry) : Lex (String × String) :=
  toLex (entry.id, String.ofList (dumps entry.value))

def digestText (entries : List DigestEntry) : List Char :=
  dumps (.list ((entries.insertionSort fun a b => a.sortKey ≤ b.sortKey).map DigestEntry.value))

/-- `inputs_digest`. -/
def inputsDigest (scripts : ScriptDigits) (rows : List Row) : Except PricingError String := do
  require rows DIGEST_INPUTS
  let entries ← rows.mapM (digestEntry scripts)
  return String.ofList (Sha256.hex (Sha256.sha256 ((digestText entries).map fun c => c.toUInt8)))

end VyomQuant.Marketplace.Pricing
