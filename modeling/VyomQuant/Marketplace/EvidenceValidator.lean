/-
  VyomQuant.Marketplace.EvidenceValidator

  The quality rules of backtest evidence (`marketplace/evidence_validator.py`): one outcome for
  each criterion of a set of backtest runs, none of them stopping the others.

  `EvidencePassed` says what a set of runs whose outcomes all pass is like.
-/

import Mathlib.Algebra.Order.Floor.Ring
import Mathlib.Data.List.Dedup
import Mathlib.Data.Rat.Floor
import VyomQuant.StrategyDag.Schema

namespace VyomQuant.Marketplace.Evidence

open StrategyDag (strip)

/-! ## Criterion codes -/

/-- `EV_CODES`. -/
inductive EvCode where
  | count
  | ownership
  | completed
  | params
  | duration
  | trades
  | bars
  | oneVersion
  | checksums
  | distinct

def EvCode.text : EvCode → String
  | .count => "EV_COUNT"
  | .ownership => "EV_OWNERSHIP"
  | .completed => "EV_COMPLETED"
  | .params => "EV_PARAMS"
  | .duration => "EV_DURATION"
  | .trades => "EV_TRADES"
  | .bars => "EV_BARS"
  | .oneVersion => "EV_ONE_VERSION"
  | .checksums => "EV_CHECKSUMS"
  | .distinct => "EV_DISTINCT"

/-- `EV_PUBLIC_MESSAGES`. -/
def EvCode.publicMessage : EvCode → String
  | .count =>
    "A submission must reference several different completed backtest runs of this strategy, "
      ++ "and each reference must name a different run."
  | .ownership =>
    "Every referenced backtest run must be one of your own completed runs of this strategy."
  | .completed =>
    "Every referenced backtest run must have finished successfully, with no reported error."
  | .params =>
    "Every referenced backtest run must have recorded the full set of settings it ran with. "
      ++ "Re-run any test that is missing them."
  | .duration =>
    "Every referenced backtest run must cover a long enough stretch of market history."
  | .trades =>
    "Every referenced backtest run must contain enough trades for its results to be meaningful."
  | .bars =>
    "Every referenced backtest run must have executed over enough market data, and must have "
      ++ "recorded how much."
  | .oneVersion =>
    "Every referenced backtest run must test the same saved version of this strategy."
  | .checksums =>
    "Every referenced backtest run must use a different set of market data."
  | .distinct =>
    "Referenced backtest runs must test genuinely different conditions. Two runs over largely "
      ++ "the same stretch of the same market data count as one test."

/-- `MP_CODES`: the criteria of the gate itself. -/
inductive MpCode where
  | ownership
  | tenant
  | versionExists
  | versionValid
  | executionOk
  | metricsComplete
  | submissionOpen

def MpCode.text : MpCode → String
  | .ownership => "MP_OWNERSHIP"
  | .tenant => "MP_TENANT"
  | .versionExists => "MP_VERSION_EXISTS"
  | .versionValid => "MP_VERSION_VALID"
  | .executionOk => "MP_EXECUTION_OK"
  | .metricsComplete => "MP_METRICS_COMPLETE"
  | .submissionOpen => "MP_SUBMISSION_OPEN"

inductive CriterionCode where
  | ev (code : EvCode)
  | mp (code : MpCode)

def CriterionCode.text : CriterionCode → String
  | .ev code => code.text
  | .mp code => code.text

/-- One criterion's verdict, for one run, a pair of runs or the whole set. -/
structure CriterionOutcome where
  code : CriterionCode
  passed : Bool
  message : String
  subjects : List String

/-! ## Rows -/

/-- The number of a calendar day. -/
abbrev Day := ℤ

/-- What a numeric column holds. -/
inductive Numeric where
  | finite (value : ℚ)
  | notFinite
deriving DecidableEq

/-- The columns of `strategy_backtests` that the gate reads. -/
structure BacktestRow where
  id : Option String
  userId : Option String
  strategyId : Option String
  versionId : Option String
  status : Option String
  completedAt : Option String
  errorMessage : Option String
  dataset : Option String
  startDate : Option Day
  endDate : Option Day
  initialCapital : Option Numeric
  commission : Option Numeric
  slippage : Option Numeric
  datasetChecksum : Option String
  dagHash : Option String
  totalTrades : Option Numeric
  executedBarCount : Option Numeric
  totalReturnPct : Option Numeric
  sharpeRatio : Option Numeric
  maxDrawdown : Option Numeric
  winRate : Option Numeric
  profitFactor : Option Numeric
  finalCapital : Option Numeric
deriving DecidableEq

/-- One run as the validator reads it. -/
structure BacktestCondition where
  id : Option String
  userId : Option String
  strategyId : Option String
  versionId : Option String
  status : Option String
  completedAt : Option String
  errorMessage : Option String
  dataset : Option String
  startDate : Option Day
  endDate : Option Day
  initialCapital : Option Numeric
  commission : Option Numeric
  slippage : Option Numeric
  datasetChecksum : Option String
  dagHash : Option String
  totalTrades : Option Numeric
  executedBarCount : Option Numeric

/-- `_as_text`: a blank text is no text. -/
def asText (value : Option String) : Option String :=
  (value.map strip).filter fun text => text ≠ ""

/-- `_is_present`. -/
def isPresent : Option String → Bool
  | none => false
  | some text => strip text ≠ ""

/-- `_as_decimal`. -/
def asDecimal : Option Numeric → Option ℚ
  | some (.finite value) => some value
  | _ => none

/-- `_as_int`: rounded down. -/
def asInt (value : Option Numeric) : Option ℤ := (asDecimal value).map fun q => ⌊q⌋

theorem asText_some (text : String) :
    asText (some text) = if strip text = "" then none else some (strip text) := by
  rw [asText, Option.map_some, Option.filter_some]
  by_cases h_blank : strip text = "" <;> simp [h_blank]

theorem asText_asText (value : Option String) : asText (asText value) = asText value := by
  cases value with
  | none => rfl
  | some text =>
    rw [asText_some]
    split
    · rfl
    · rename_i h_text
      rw [asText_some, StrategyDag.strip_strip, if_neg h_text]

/-- `BacktestCondition.from_row`. -/
def BacktestCondition.fromRow (row : BacktestRow) : BacktestCondition where
  id := asText row.id
  userId := asText row.userId
  strategyId := asText row.strategyId
  versionId := asText row.versionId
  status := asText row.status
  completedAt := row.completedAt
  errorMessage := asText row.errorMessage
  dataset := asText row.dataset
  startDate := row.startDate
  endDate := row.endDate
  initialCapital := row.initialCapital
  commission := row.commission
  slippage := row.slippage
  datasetChecksum := asText row.datasetChecksum
  dagHash := asText row.dagHash
  totalTrades := row.totalTrades
  executedBarCount := row.executedBarCount

/-- `coerce_conditions`. -/
def coerceConditions (rows : List BacktestRow) : List BacktestCondition :=
  rows.map .fromRow

/-! ## Windows -/

/-- `window_days`. -/
def windowDays (condition : BacktestCondition) : Option ℤ := do
  let start ← condition.startDate
  let «end» ← condition.endDate
  return («end» - start) + 1

/-- `intersection_days`. -/
def intersectionDays (a b : BacktestCondition) : Option ℤ := do
  let aStart ← a.startDate
  let aEnd ← a.endDate
  let bStart ← b.startDate
  let bEnd ← b.endDate
  let low := max aStart bStart
  let high := min aEnd bEnd
  return if high < low then 0 else (high - low) + 1

def minConditions : ℕ := 3
def maxConditions : ℕ := 10
def minWindowDays : ℤ := 90
def minTrades : ℤ := 20
def minBars : ℤ := 50
def maxOverlapNumerator : ℤ := 4

/-- `distinct`: of different markets, or overlapping by a quarter of the shorter window at
    most. -/
def distinct (a b : BacktestCondition) : Bool :=
  if a.dataset.isSome ∧ b.dataset.isSome ∧ a.dataset ≠ b.dataset then true
  else match windowDays a, windowDays b, intersectionDays a b with
    | some aDays, some bDays, some overlap =>
      if aDays ≤ 0 ∨ bDays ≤ 0 then false
      else overlap * maxOverlapNumerator ≤ min aDays bDays
    | _, _, _ => false

/-! ## `validate` -/

/-- `_outcome`. -/
def evOutcome (code : EvCode) (passed : Bool) (subjects : List String) : CriterionOutcome where
  code := .ev code
  passed := passed
  message := code.publicMessage
  subjects := subjects

/-- `_subjects`. -/
def subjectsOf (condition : BacktestCondition) : List String := condition.id.toList

/-- `_parameters_recorded`. -/
def parametersRecorded (condition : BacktestCondition) : Bool :=
  condition.dataset.isSome && condition.startDate.isSome && condition.endDate.isSome &&
    condition.datasetChecksum.isSome && condition.dagHash.isSome &&
    (asDecimal condition.initialCapital).isSome && (asDecimal condition.commission).isSome &&
    (asDecimal condition.slippage).isSome

/-- `combinations(items, 2)`. -/
def pairsOf {α : Type} : List α → List (α × α)
  | [] => []
  | first :: rest => rest.map (fun second => (first, second)) ++ pairsOf rest

section Validate

-- `str.casefold`, of which nothing is used.
variable (casefold : String → String)

/-- `_same_id`: a missing identifier matches nothing. -/
def sameId (left right : Option String) : Bool :=
  match asText left, asText right with
  | some leftText, some rightText => casefold leftText = casefold rightText
  | _, _ => false

theorem sameId_asText_left (left right : Option String) :
    sameId casefold (asText left) right = sameId casefold left right := by
  rw [sameId, sameId, asText_asText]

def conditionOutcomes (ownerId strategyId : Option String) (condition : BacktestCondition) :
    List CriterionOutcome :=
  let subjects := subjectsOf condition
  [evOutcome .ownership
      (sameId casefold condition.userId ownerId && sameId casefold condition.strategyId strategyId)
      subjects,
    evOutcome .completed
      ((asText condition.status).isSome &&
        condition.status.any (fun status => (strip status).toLower = "completed") &&
        isPresent condition.completedAt && (asText condition.errorMessage).isNone) subjects,
    evOutcome .params (parametersRecorded condition) subjects,
    evOutcome .duration ((windowDays condition).any fun days => minWindowDays ≤ days) subjects,
    evOutcome .trades ((asInt condition.totalTrades).any fun trades => minTrades ≤ trades) subjects,
    evOutcome .bars ((asInt condition.executedBarCount).any fun bars => minBars ≤ bars) subjects]

/-- `EV_COUNT`: how many, and all of them different runs. -/
def countInRange (conditions : List BacktestCondition) : Bool :=
  minConditions ≤ conditions.length ∧ conditions.length ≤ maxConditions ∧
    (conditions.filterMap (·.id)).Nodup

/-- `EV_ONE_VERSION`: the set of versions has one member, which is not null. -/
def sameVersion (conditions : List BacktestCondition) : Bool :=
  let versions := conditions.map (·.versionId)
  versions.dedup.length = 1 ∧ none ∉ versions

/-- `EV_CHECKSUMS`. -/
def differentChecksums (conditions : List BacktestCondition) : Bool :=
  let checksums := conditions.map (·.datasetChecksum)
  checksums.Nodup ∧ none ∉ checksums

/-- `EV_DISTINCT` of one pair. -/
def distinctOutcome (pair : BacktestCondition × BacktestCondition) : CriterionOutcome :=
  evOutcome .distinct (distinct pair.1 pair.2) (subjectsOf pair.1 ++ subjectsOf pair.2)

/-- `validate`. -/
def validate (conditions : List BacktestCondition) (ownerId strategyId : Option String) :
    List CriterionOutcome :=
  [evOutcome .count (countInRange conditions) []]
    ++ conditions.flatMap (conditionOutcomes casefold ownerId strategyId)
    ++ [evOutcome .oneVersion (sameVersion conditions) [],
      evOutcome .checksums (differentChecksums conditions) []]
    ++ (pairsOf conditions).map distinctOutcome

/-- `all_passed`. -/
def allPassed (outcomes : List CriterionOutcome) : Bool := outcomes.all (·.passed)

/-! ## A set of runs that passes -/

/-- The run passes each criterion of its own. -/
def ConditionPassed (ownerId strategyId : Option String) (condition : BacktestCondition) : Prop :=
  ∀ outcome ∈ conditionOutcomes casefold ownerId strategyId condition, outcome.passed = true

/-- Three to ten different runs, each passing its criteria, all of one version and pairwise
    over different data. -/
structure EvidencePassed (conditions : List BacktestCondition)
    (ownerId strategyId : Option String) : Prop where
  atLeast : minConditions ≤ conditions.length
  atMost : conditions.length ≤ maxConditions
  differentRuns : (conditions.filterMap (·.id)).Nodup
  each : ∀ condition ∈ conditions, ConditionPassed casefold ownerId strategyId condition
  oneVersion : ∃ versionId, ∀ condition ∈ conditions, condition.versionId = some versionId
  differentData : (conditions.map (·.datasetChecksum)).Nodup
  dataRecorded : ∀ condition ∈ conditions, condition.datasetChecksum ≠ none
  distinctPairs : ∀ pair ∈ pairsOf conditions, distinct pair.1 pair.2 = true

variable {casefold}

theorem dedup_length_eq_one_iff {α : Type} [DecidableEq α] {l : List α} :
    l.dedup.length = 1 ↔ ∃ a, a ∈ l ∧ ∀ b ∈ l, b = a := by
  rw [List.length_eq_one_iff]
  constructor
  · rintro ⟨a, h_a⟩
    have h_mem : ∀ b, b ∈ l ↔ b = a := by
      intro b
      rw [← List.mem_dedup, h_a, List.mem_singleton]
    exact ⟨a, (h_mem a).mpr rfl, fun b h_b => (h_mem b).mp h_b⟩
  · rintro ⟨a, h_a, h_all⟩
    refine ⟨a, (List.perm_singleton.mp ?_)⟩
    rw [List.perm_ext_iff_of_nodup (List.nodup_dedup l) (List.nodup_singleton a)]
    intro b
    rw [List.mem_dedup, List.mem_singleton]
    exact ⟨h_all b, fun h_eq => h_eq ▸ h_a⟩

theorem ConditionPassed.ownership {ownerId strategyId : Option String} {row : BacktestRow}
    (h : ConditionPassed casefold ownerId strategyId (.fromRow row)) :
    sameId casefold row.userId ownerId = true ∧ sameId casefold row.strategyId strategyId = true := by
  have h_owner : (sameId casefold (asText row.userId) ownerId
      && sameId casefold (asText row.strategyId) strategyId) = true := h _ List.mem_cons_self
  rwa [sameId_asText_left, sameId_asText_left, Bool.and_eq_true] at h_owner

theorem sameVersion_iff {conditions : List BacktestCondition} :
    sameVersion conditions = true ↔ conditions ≠ [] ∧
      ∃ versionId, ∀ condition ∈ conditions, condition.versionId = some versionId := by
  simp only [sameVersion, decide_eq_true_eq, dedup_length_eq_one_iff]
  constructor
  · rintro ⟨⟨version, h_mem, h_all⟩, h_none⟩
    obtain ⟨versionId, rfl⟩ := Option.ne_none_iff_exists'.mp fun h => h_none (h ▸ h_mem)
    obtain ⟨first, h_first, _⟩ := List.mem_map.mp h_mem
    exact ⟨List.ne_nil_of_mem h_first, versionId,
      fun condition h => h_all _ (List.mem_map_of_mem h)⟩
  · rintro ⟨h_ne, versionId, h_all⟩
    obtain ⟨condition, h_mem⟩ := List.exists_mem_of_ne_nil conditions h_ne
    have h_versions : ∀ version ∈ conditions.map (·.versionId), version = some versionId := by
      intro version h_version
      obtain ⟨other, h_other, rfl⟩ := List.mem_map.mp h_version
      exact h_all other h_other
    refine ⟨⟨some versionId, h_all condition h_mem ▸ List.mem_map_of_mem h_mem, h_versions⟩, ?_⟩
    intro h_none
    cases h_versions none h_none

theorem differentChecksums_iff {conditions : List BacktestCondition} :
    differentChecksums conditions = true ↔ (conditions.map (·.datasetChecksum)).Nodup ∧
      ∀ condition ∈ conditions, condition.datasetChecksum ≠ none := by
  rw [differentChecksums, decide_eq_true_eq]
  refine and_congr Iff.rfl ⟨fun h condition h_mem h_null => ?_, fun h h_none => ?_⟩
  · exact h (h_null ▸ List.mem_map_of_mem h_mem)
  · obtain ⟨condition, h_mem, h_null⟩ := List.mem_map.mp h_none
    exact h condition h_mem h_null

/-- The outcomes of a set of runs all pass exactly when the set is as `EvidencePassed` says. -/
theorem allPassed_validate_iff {conditions : List BacktestCondition}
    {ownerId strategyId : Option String} :
    allPassed (validate casefold conditions ownerId strategyId) = true ↔
      EvidencePassed casefold conditions ownerId strategyId := by
  have h_each : (conditions.flatMap (conditionOutcomes casefold ownerId strategyId)).all (·.passed)
        = true ↔
      ∀ condition ∈ conditions, ConditionPassed casefold ownerId strategyId condition := by
    simp only [List.all_flatMap, List.all_eq_true, ConditionPassed]
  have h_pairs : ((pairsOf conditions).map distinctOutcome).all (·.passed) = true ↔
      ∀ pair ∈ pairsOf conditions, distinct pair.1 pair.2 = true := by
    rw [List.all_map, List.all_eq_true]
    rfl
  simp only [allPassed, validate, List.all_append, List.all_cons, List.all_nil, Bool.and_eq_true,
    h_each, h_pairs, and_true, evOutcome, sameVersion_iff, differentChecksums_iff, countInRange,
    decide_eq_true_eq]
  constructor
  · rintro ⟨⟨⟨⟨h_min, h_max, h_runs⟩, h_conditions⟩, ⟨_, h_version⟩, h_data, h_recorded⟩, h_distinct⟩
    exact ⟨h_min, h_max, h_runs, h_conditions, h_version, h_data, h_recorded, h_distinct⟩
  · intro h
    have h_ne : conditions ≠ [] := by
      rintro rfl
      exact absurd h.atLeast (by decide)
    exact ⟨⟨⟨⟨h.atLeast, h.atMost, h.differentRuns⟩, h.each⟩, ⟨h_ne, h.oneVersion⟩,
      h.differentData, h.dataRecorded⟩, h.distinctPairs⟩

end Validate

end VyomQuant.Marketplace.Evidence
