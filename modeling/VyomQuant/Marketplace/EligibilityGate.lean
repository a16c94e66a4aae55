/-
  VyomQuant.Marketplace.EligibilityGate

  The publication gate (`marketplace/eligibility_gate.py`): four reads scoped to the owner, one
  outcome for each criterion, and the admission that needs all of them.

  Every criterion is about the rows that a read returned.  A reference without a row of the
  owner is not among them, and of the versions it is enough that one is valid:
  `restsOnEvidence_iff` says when an admission still rests on the evidence it names.
-/

import VyomQuant.Marketplace.EntitlementResolver
import VyomQuant.Marketplace.EvidenceValidator

namespace VyomQuant.Marketplace.Eligibility

open StrategyDag (strip)
open Evidence
open Resolver (SubmissionState)

/-! ## Messages -/

def evaluatorVersion : String := "eligibility-gate/1.0.0"

/-- `MP_PUBLIC_MESSAGES`. -/
def publicMessage : MpCode → String
  | .ownership => "You can only publish a strategy that you own."
  | .tenant => "This strategy belongs to a different workspace and cannot be published here."
  | .versionExists =>
    "This strategy must have at least one saved version before it can be published. Save the "
      ++ "strategy, then try again."
  | .versionValid =>
    "The saved version of this strategy did not pass validation. Open it in the builder, resolve "
      ++ "the reported problems, and save it again."
  | .executionOk =>
    "Every backtest you reference must be a run that finished successfully. Re-run any test that "
      ++ "did not complete before publishing."
  | .metricsComplete =>
    "Every backtest you reference must have recorded its full set of performance results. Re-run "
      ++ "any test that is missing them."
  | .submissionOpen =>
    "This strategy already has a submission in progress or a published listing. Complete or "
      ++ "withdraw it before submitting again."

/-! ## The persistence layer -/

structure StrategyRow where
  id : String
  userId : Option String

/-- `strategy_versions.validation_state`. -/
inductive ValidationState where
  | unvalidated
  | valid
  | invalid
deriving DecidableEq

/-- A version of a strategy; `graph` is what `load_graph` reads of the row. -/
structure VersionRow where
  id : Option String
  strategyId : String
  isDraft : Option Bool
  validationState : Option ValidationState
  graph : String

structure SubmissionRow where
  sourceStrategyId : Option String
  submissionState : Option SubmissionState

structure ListingRow where
  sourceStrategyId : Option String
  moderationStatus : Option String
  isActive : Option Bool

inductive Read where
  | strategies
  | strategyVersions
  | strategyBacktests
  | marketplaceSubmissions
  | libraryStrategies

/-- The client: the rows of the five tables, and the reads that raise with the type of what
    they raise. -/
structure Supabase where
  strategies : List StrategyRow
  strategyVersions : List VersionRow
  strategyBacktests : List BacktestRow
  marketplaceSubmissions : List SubmissionRow
  libraryStrategies : List ListingRow
  raises : Read → Option String

/-- A select that returns its rows, unless the read raises. -/
def Supabase.select {α : Type} (db : Supabase) (read : Read) (rows : List α) :
    Except String (List α) :=
  match db.raises read with
  | some error => .error error
  | none => .ok rows

/-- `_read_strategy`. -/
def readStrategy (db : Supabase) (strategyId callerId : String) :
    Except String (Option StrategyRow) := do
  let rows ← db.select .strategies
    (db.strategies.filter fun row => row.id = strategyId ∧ row.userId = some callerId)
  return rows.head?

def versionsOf (db : Supabase) (strategyId : String) : List VersionRow :=
  db.strategyVersions.filter fun row => row.strategyId = strategyId

/-- `_read_versions`. -/
def readVersions (db : Supabase) (strategyId : String) : Except String (List VersionRow) :=
  db.select .strategyVersions (versionsOf db strategyId)

/-- The runs of the caller among some references. -/
def referencedRuns (db : Supabase) (backtestIds : List String) (callerId : String) :
    List BacktestRow :=
  db.strategyBacktests.filter fun row =>
    row.id.any (fun id => id ∈ backtestIds) ∧ row.userId = some callerId

/-- `_read_backtests`. -/
def readBacktests (db : Supabase) (backtestIds : List String) (callerId : String) :
    Except String (List BacktestRow) :=
  db.select .strategyBacktests (referencedRuns db backtestIds callerId)

/-- `_read_open_state`. -/
def readOpenState (db : Supabase) (strategyId : String) :
    Except String (List (Option SubmissionState) × Bool) := do
  let submissions ← db.select .marketplaceSubmissions
    (db.marketplaceSubmissions.filter fun row => row.sourceStrategyId = some strategyId)
  let listings ← db.select .libraryStrategies
    (db.libraryStrategies.filter fun row => row.sourceStrategyId = some strategyId ∧
      row.moderationStatus = some "approved" ∧ row.isActive = some true)
  return (submissions.map (·.submissionState), 0 < listings.length)

/-! ## The criteria -/

structure Caller where
  id : String
  tenantId : Option String

/-- `_normalise_ids`: without nulls and repetitions. -/
def normaliseIds (backtestIds : List (Option String)) : List String :=
  (backtestIds.filterMap id).eraseDups

/-- `OPEN_STATES`. -/
def openState : SubmissionState → Bool
  | .submitted => true
  | .underReview => true
  | .approved => true
  | .published => true
  | _ => false

/-- `_execution_ok`. -/
def executionOk (conditions : List BacktestCondition) : Bool :=
  conditions ≠ [] ∧ ∀ condition ∈ conditions,
    condition.status.any (fun status => (strip status).toLower = "completed") ∧
      isPresent condition.errorMessage = false

/-- `METRIC_FIELDS`. -/
def metricFields (row : BacktestRow) : List (Option Numeric) :=
  [row.totalReturnPct, row.sharpeRatio, row.maxDrawdown, row.winRate, row.profitFactor,
    row.totalTrades, row.finalCapital]

/-- `_metrics_complete`. -/
def metricsComplete (rows : List BacktestRow) : Bool :=
  rows ≠ [] ∧ ∀ row ∈ rows, ∀ value ∈ metricFields row, (asDecimal value).isSome

/-- `_is_draft`: a null flag is a saved version. -/
def isDraft (version : VersionRow) : Bool := version.isDraft = some true

/-- `_mp_outcome`. -/
def mpOutcome (code : MpCode) (passed : Bool) : CriterionOutcome where
  code := .mp code
  passed := passed
  message := publicMessage code
  subjects := []

/-- `_evaluated_version_id`. -/
def evaluatedVersionId (conditions : List BacktestCondition) (versions : List VersionRow) :
    Option String :=
  match (conditions.filterMap (·.versionId)).dedup with
  | [versionId] => some versionId
  | _ =>
    match versions.filter fun version => ¬ isDraft version with
    | [version] => asText version.id
    | _ => none

/-- The result of one evaluation. -/
structure EligibilityVerdict where
  admitted : Bool
  outcomes : List CriterionOutcome
  versionId : Option String
  evaluatorVersion : String
  unevaluable : Bool

def EligibilityVerdict.failedOutcomes (verdict : EligibilityVerdict) : List CriterionOutcome :=
  verdict.outcomes.filter fun outcome => ¬ outcome.passed

structure AuditRecord where
  actorId : String
  resourceType : String
  resourceId : String
  reason : String
  strategyId : String
  versionId : Option String
  evaluatorVersion : String
  admitted : Bool
  unevaluable : Bool
  outcomes : List (CriterionCode × Bool × List String)
  unevaluableReason : Option String

section Gate

-- `str.casefold`; `loadGraph`, whether the builder's `load_graph` accepts what a version
-- stores; `record`, the audit log, which may raise.
variable (casefold : String → String) (loadGraph : String → Bool)
  (record : AuditRecord → Except String Unit)

/-- `_version_graph_is_valid`. -/
def versionGraphIsValid (version : VersionRow) : Bool :=
  if version.validationState = some .valid then true else loadGraph version.graph

/-- `_tenant_matches`, for the owner column that is the tenant of a strategy. -/
def tenantMatches (strategyTenant callerTenant : Option String) : Bool :=
  match asText callerTenant with
  | none => true
  | some callerText =>
    match asText strategyTenant with
    | none => false
    | some strategyText => casefold strategyText = casefold callerText

/-- What the four reads return. -/
structure ReadRows where
  strategy : Option StrategyRow
  versions : List VersionRow
  backtests : List BacktestRow
  submissionStates : List (Option SubmissionState)
  publishedListing : Bool

/-- The four reads, in their order. -/
def readAll (db : Supabase) (strategyId callerId : String) (backtestIds : List String) :
    Except String ReadRows := do
  let strategy ← readStrategy db strategyId callerId
  let versions ← readVersions db strategyId
  let backtests ← readBacktests db backtestIds callerId
  let (submissionStates, publishedListing) ← readOpenState db strategyId
  return { strategy, versions, backtests, submissionStates, publishedListing }

/-- Every criterion, in the order in which the gate emits them. -/
def gateOutcomes (caller : Caller) (strategyId : String) (rows : ReadRows) :
    List CriterionOutcome :=
  let conditions := coerceConditions rows.backtests
  let ownerMatches := rows.strategy.any fun row => sameId casefold row.userId (some caller.id)
  let savedVersions := rows.versions.filter fun version => ¬ isDraft version
  [mpOutcome .ownership ownerMatches,
    mpOutcome .tenant (ownerMatches &&
      tenantMatches casefold (rows.strategy.bind (·.userId)) caller.tenantId),
    mpOutcome .versionExists (1 ≤ savedVersions.length),
    mpOutcome .versionValid (savedVersions.any (versionGraphIsValid loadGraph)),
    mpOutcome .executionOk (executionOk conditions)]
    ++ validate casefold conditions (some caller.id) (some strategyId)
    ++ [mpOutcome .metricsComplete (metricsComplete rows.backtests),
      mpOutcome .submissionOpen
        (¬ rows.submissionStates.any (fun state => state.any openState) ∧ ¬ rows.publishedListing)]

/-- `_write_audit`. -/
def auditRecord (caller : Caller) (strategyId : String) (verdict : EligibilityVerdict)
    (unevaluableReason : Option String) : AuditRecord where
  actorId := caller.id
  resourceType := "strategy"
  resourceId := strategyId
  reason :=
    if verdict.unevaluable then "eligibility unevaluable: a required read did not complete"
    else if verdict.admitted then "eligibility admitted: every criterion passed"
    else "eligibility rejected: "
      ++ ", ".intercalate (verdict.failedOutcomes.map fun outcome => outcome.code.text)
  strategyId := strategyId
  versionId := verdict.versionId
  evaluatorVersion := verdict.evaluatorVersion
  admitted := verdict.admitted
  unevaluable := verdict.unevaluable
  outcomes := verdict.outcomes.map fun outcome => (outcome.code, outcome.passed, outcome.subjects)
  unevaluableReason := unevaluableReason

/-- `evaluate`.  A read that raises leaves the eligibility unknown; the audit record is written
    on every path, and nothing is returned without it. -/
def evaluate (caller : Caller) (strategyId : String) (backtestIds : List (Option String))
    (db : Supabase) : Except String EligibilityVerdict :=
  match readAll db strategyId caller.id (normaliseIds backtestIds) with
  | .error raised => do
    let verdict : EligibilityVerdict := {
      admitted := false
      outcomes := []
      versionId := none
      evaluatorVersion := evaluatorVersion
      unevaluable := true }
    record (auditRecord caller strategyId verdict (some raised))
    return verdict
  | .ok rows => do
    let outcomes := gateOutcomes casefold loadGraph caller strategyId rows
    let verdict : EligibilityVerdict := {
      admitted := allPassed outcomes
      outcomes := outcomes
      versionId := evaluatedVersionId (coerceConditions rows.backtests) rows.versions
      evaluatorVersion := evaluatorVersion
      unevaluable := false }
    record (auditRecord caller strategyId verdict none)
    return verdict

/-! ## What an admission rests on -/

/-- The law: each reference came back as a run of the owner and of the strategy that passed
    its validation, and each run tested a saved version of the strategy that is valid itself. -/
structure RestsOnEvidence (caller : Caller) (strategyId : String)
    (backtestIds : List (Option String)) (db : Supabase) : Prop where
  validated : allPassed (validate casefold
    (coerceConditions (referencedRuns db (normaliseIds backtestIds) caller.id)) (some caller.id)
    (some strategyId)) = true
  referenced : ∀ id ∈ normaliseIds backtestIds,
    ∃ row ∈ referencedRuns db (normaliseIds backtestIds) caller.id, row.id = some id ∧
      sameId casefold row.userId (some caller.id) = true ∧
      sameId casefold row.strategyId (some strategyId) = true ∧
      ConditionPassed casefold (some caller.id) (some strategyId) (.fromRow row)
  tested : ∀ row ∈ referencedRuns db (normaliseIds backtestIds) caller.id,
    ∃ versionId, asText row.versionId = some versionId ∧
      ∃ version ∈ versionsOf db strategyId, asText version.id = some versionId ∧
        isDraft version = false ∧ versionGraphIsValid loadGraph version = true

/-- Every reference is the id of a stored run of the caller. -/
def ReferencesStored (caller : Caller) (backtestIds : List (Option String)) (db : Supabase) : Prop :=
  ∀ id ∈ normaliseIds backtestIds,
    ∃ row ∈ db.strategyBacktests, row.id = some id ∧ row.userId = some caller.id

/-- The version that a run of the caller names, if it is referenced, is stored for the strategy
    as a valid one that is not a draft. -/
def TestedVersionsStored (caller : Caller) (strategyId : String)
    (backtestIds : List (Option String)) (db : Supabase) : Prop :=
  ∀ row ∈ db.strategyBacktests, some caller.id = row.userId →
    (∃ id ∈ normaliseIds backtestIds, row.id = some id) →
    ∃ version ∈ db.strategyVersions, version.strategyId = strategyId ∧
      asText version.id = asText row.versionId ∧
      ¬ isDraft version ∧ versionGraphIsValid loadGraph version

variable {casefold loadGraph record} {caller : Caller} {strategyId : String}
  {backtestIds : List (Option String)} {db : Supabase} {verdict : EligibilityVerdict}

theorem Supabase.select_eq_ok {α : Type} {read : Read} {rows result : List α}
    (h : db.select read rows = .ok result) : result = rows := by
  unfold Supabase.select at h
  split at h
  · cases h
  · exact (Except.ok.inj h).symm

theorem mem_referencedRuns {row : BacktestRow} {ids : List String} {callerId : String} :
    row ∈ referencedRuns db ids callerId ↔
      row ∈ db.strategyBacktests ∧ (∃ id ∈ ids, row.id = some id) ∧ row.userId = some callerId := by
  simp only [referencedRuns, List.mem_filter, decide_eq_true_eq, Option.any_eq_true]
  constructor
  · rintro ⟨h_mem, ⟨id, h_id, h_in⟩, h_owner⟩
    exact ⟨h_mem, ⟨id, by simpa using h_in, h_id⟩, h_owner⟩
  · rintro ⟨h_mem, ⟨id, h_in, h_id⟩, h_owner⟩
    exact ⟨h_mem, ⟨id, h_id, by simpa using h_in⟩, h_owner⟩

theorem mem_versionsOf {version : VersionRow} :
    version ∈ versionsOf db strategyId ↔
      version ∈ db.strategyVersions ∧ version.strategyId = strategyId := by
  simp [versionsOf]

theorem readAll_eq_ok {ids : List String} {callerId : String} {rows : ReadRows}
    (h : readAll db strategyId callerId ids = .ok rows) :
    rows.versions = versionsOf db strategyId ∧ rows.backtests = referencedRuns db ids callerId := by
  simp only [readAll, readVersions, readBacktests, Except.bind_eq_ok, Except.pure_eq_ok] at h
  obtain ⟨strategy, _, versions, h_versions, backtests, h_backtests, openState, _, rfl⟩ := h
  exact ⟨Supabase.select_eq_ok h_versions, Supabase.select_eq_ok h_backtests⟩

theorem evidencePassed_of_admitted
    (h : evaluate casefold loadGraph record caller strategyId backtestIds db = .ok verdict)
    (h_admitted : verdict.admitted = true) :
    EvidencePassed casefold
      (coerceConditions (referencedRuns db (normaliseIds backtestIds) caller.id))
      (some caller.id) (some strategyId) := by
  unfold evaluate at h
  split at h
  · simp only [Except.bind_eq_ok, Except.pure_eq_ok] at h
    obtain ⟨_, _, rfl⟩ := h
    cases h_admitted
  · rename_i rows h_rows
    simp only [Except.bind_eq_ok, Except.pure_eq_ok] at h
    obtain ⟨_, _, rfl⟩ := h
    rw [← (readAll_eq_ok h_rows).2, ← allPassed_validate_iff]
    simp only [allPassed, gateOutcomes, List.all_append, Bool.and_eq_true] at h_admitted ⊢
    exact h_admitted.1.2

/-- An admission rests on the evidence it names exactly when no reference was dropped and the
    versions that the runs tested are themselves saved and valid. -/
theorem restsOnEvidence_iff
    (h : evaluate casefold loadGraph record caller strategyId backtestIds db = .ok verdict)
    (h_admitted : verdict.admitted = true) :
    RestsOnEvidence casefold loadGraph caller strategyId backtestIds db ↔
      ReferencesStored caller backtestIds db ∧
        TestedVersionsStored loadGraph caller strategyId backtestIds db := by
  have h_passed := evidencePassed_of_admitted h h_admitted
  constructor
  · intro h_rests
    constructor
    · intro id h_id
      obtain ⟨row, h_row, h_row_id, _⟩ := h_rests.referenced id h_id
      obtain ⟨h_mem, _, h_owner⟩ := mem_referencedRuns.mp h_row
      exact ⟨row, h_mem, h_row_id, h_owner⟩
    · intro row h_mem h_owner h_reference
      obtain ⟨versionId, h_version, version, h_saved, h_id, h_draft, h_valid⟩ :=
        h_rests.tested row (mem_referencedRuns.mpr ⟨h_mem, h_reference, h_owner.symm⟩)
      obtain ⟨h_stored, h_strategy⟩ := mem_versionsOf.mp h_saved
      exact ⟨version, h_stored, h_strategy, h_id.trans h_version.symm, by simp [h_draft], h_valid⟩
  · rintro ⟨h_stored, h_versions⟩
    refine ⟨allPassed_validate_iff.mpr h_passed, ?_, ?_⟩
    · intro id h_id
      obtain ⟨row, h_mem, h_row_id, h_owner⟩ := h_stored id h_id
      have h_row : row ∈ referencedRuns db (normaliseIds backtestIds) caller.id :=
        mem_referencedRuns.mpr ⟨h_mem, ⟨id, h_id, h_row_id⟩, h_owner⟩
      have h_condition := h_passed.each _ (List.mem_map_of_mem h_row)
      exact ⟨row, h_row, h_row_id, h_condition.ownership.1, h_condition.ownership.2, h_condition⟩
    · intro row h_row
      obtain ⟨h_mem, h_reference, h_owner⟩ := mem_referencedRuns.mp h_row
      obtain ⟨versionId, h_all⟩ := h_passed.oneVersion
      have h_version : asText row.versionId = some versionId :=
        h_all _ (List.mem_map_of_mem h_row)
      obtain ⟨version, h_saved, h_strategy, h_id, h_draft, h_valid⟩ :=
        h_versions row h_mem h_owner.symm h_reference
      exact ⟨versionId, h_version, version, mem_versionsOf.mpr ⟨h_saved, h_strategy⟩,
        h_id.trans h_version, by simpa using h_draft, h_valid⟩

end Gate

/-! ## Admissions that rest on something else -/

/-- A completed run of a year, of version `v1`. -/
def completedRun (id userId dataset : String) : BacktestRow where
  id := some id
  userId := some userId
  strategyId := some "strategy"
  versionId := some "v1"
  status := some "completed"
  completedAt := some "2026-01-05T00:00:00Z"
  errorMessage := none
  dataset := some dataset
  startDate := some 738000
  endDate := some 738364
  initialCapital := some (.finite 10000)
  commission := some (.finite (1 / 1000))
  slippage := some (.finite (1 / 2000))
  datasetChecksum := some dataset
  dagHash := some "3f9a0c11d2e4b587"
  totalTrades := some (.finite 120)
  executedBarCount := some (.finite 8760)
  totalReturnPct := some (.finite 12)
  sharpeRatio := some (.finite (3 / 2))
  maxDrawdown := some (.finite 9)
  winRate := some (.finite 55)
  profitFactor := some (.finite (7 / 5))
  finalCapital := some (.finite 11200)

def savedVersion (id : String) (state : ValidationState) : VersionRow :=
  ⟨some id, "strategy", some false, some state, "graph"⟩

/-- Three runs of the owner and one of somebody else. -/
def publishingStore (versions : List VersionRow) : Supabase where
  strategies := [⟨"strategy", some "owner"⟩]
  strategyVersions := versions
  strategyBacktests := [completedRun "first" "owner" "BTC/USDT",
    completedRun "second" "owner" "ETH/USDT", completedRun "third" "owner" "SOL/USDT",
    completedRun "foreign" "stranger" "XRP/USDT"]
  marketplaceSubmissions := []
  libraryStrategies := []
  raises := fun _ => none

def publishingOwner : Caller := ⟨"owner", some "owner"⟩

/-- The gate with an audit log that always writes and no graph that loads. -/
def evaluateSample (backtestIds : List (Option String)) (db : Supabase) :
    Except String EligibilityVerdict :=
  evaluate id (fun _ => false) (fun _ => .ok ()) publishingOwner "strategy" backtestIds db

def ownReferences : List (Option String) := [some "first", some "second", some "third"]

def withForeignReference : List (Option String) := ownReferences ++ [some "foreign"]

/-- A run of somebody else among the references, and runs of a version that failed its
    validation beside another that passed: both are admitted. -/
theorem droppedReference_admitted :
    (∃ verdict, evaluateSample withForeignReference (publishingStore [savedVersion "v1" .valid])
        = .ok verdict ∧ verdict.admitted = true ∧
      ¬ RestsOnEvidence id (fun _ => false) publishingOwner "strategy" withForeignReference
        (publishingStore [savedVersion "v1" .valid])) ∧
    ∃ verdict, evaluateSample ownReferences
        (publishingStore [savedVersion "v1" .invalid, savedVersion "v2" .valid]) = .ok verdict ∧
      verdict.admitted = true ∧
      ¬ RestsOnEvidence id (fun _ => false) publishingOwner "strategy" ownReferences
        (publishingStore [savedVersion "v1" .invalid, savedVersion "v2" .valid]) := by
  constructor
  · have h_run : (evaluateSample withForeignReference
        (publishingStore [savedVersion "v1" .valid])).map (·.admitted) = .ok true := by
      decide +kernel
    cases h : evaluateSample withForeignReference (publishingStore [savedVersion "v1" .valid]) with
    | error raised =>
      rw [h] at h_run
      cases h_run
    | ok verdict =>
      rw [h] at h_run
      refine ⟨verdict, rfl, Except.ok.inj h_run, fun h_rests => ?_⟩
      have h_none : ∀ row ∈ referencedRuns (publishingStore [savedVersion "v1" .valid])
          (normaliseIds withForeignReference) "owner", row.id ≠ some "foreign" := by decide +kernel
      obtain ⟨row, h_row, h_id, _⟩ := h_rests.referenced "foreign" (by decide +kernel)
      exact h_none row h_row h_id
  · have h_run : (evaluateSample ownReferences
        (publishingStore [savedVersion "v1" .invalid, savedVersion "v2" .valid])).map (·.admitted)
          = .ok true := by decide +kernel
    cases h : evaluateSample ownReferences
        (publishingStore [savedVersion "v1" .invalid, savedVersion "v2" .valid]) with
    | error raised =>
      rw [h] at h_run
      cases h_run
    | ok verdict =>
      rw [h] at h_run
      refine ⟨verdict, rfl, Except.ok.inj h_run, fun h_rests => ?_⟩
      have h_invalid : ∀ version ∈ versionsOf
          (publishingStore [savedVersion "v1" .invalid, savedVersion "v2" .valid]) "strategy",
          asText version.id = some "v1" →
            versionGraphIsValid (fun _ => false) version = false := by decide +kernel
      obtain ⟨versionId, h_version, version, h_mem, h_id, _, h_valid⟩ :=
        h_rests.tested (completedRun "first" "owner" "BTC/USDT") (by decide +kernel)
      have h_v1 : versionId = "v1" := Option.some.inj
        (h_version.symm.trans (by decide +kernel : asText (some "v1") = some "v1"))
      rw [h_invalid version h_mem (h_id.trans (congrArg some h_v1))] at h_valid
      cases h_valid

/-- Three runs of the owner, all of the one valid version. -/
theorem restsOnEvidence_iff_sample :
    RestsOnEvidence id (fun _ => false) publishingOwner "strategy" ownReferences
      (publishingStore [savedVersion "v1" .valid]) := by
  have h_run : (evaluateSample ownReferences (publishingStore [savedVersion "v1" .valid])).map
      (·.admitted) = .ok true := by decide +kernel
  cases h : evaluateSample ownReferences (publishingStore [savedVersion "v1" .valid]) with
  | error raised =>
    rw [h] at h_run
    cases h_run
  | ok verdict =>
    rw [h] at h_run
    refine (restsOnEvidence_iff h (Except.ok.inj h_run)).mpr ⟨?_, ?_⟩
    · show ∀ id ∈ normaliseIds ownReferences,
        ∃ row ∈ (publishingStore [savedVersion "v1" .valid]).strategyBacktests,
          row.id = some id ∧ row.userId = some "owner"
      decide +kernel
    · intro row h_row _ _
      have h_versions : ∀ row ∈ (publishingStore [savedVersion "v1" .valid]).strategyBacktests,
          asText (some "v1") = asText row.versionId := by decide +kernel
      exact ⟨savedVersion "v1" .valid, List.mem_cons_self, rfl, h_versions row h_row,
        Bool.false_ne_true, rfl⟩

end VyomQuant.Marketplace.Eligibility
