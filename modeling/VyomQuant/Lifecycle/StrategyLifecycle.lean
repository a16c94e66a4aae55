/-
  VyomQuant.Lifecycle.StrategyLifecycle

  The lifecycle labels of strategy versions and the states of their deployments
  (`strategy_lifecycle.py`): the two transition tables, `apply_version_state` and
  `stop_deployments_for_reason` as programs over the two tables of rows.

  Each read and each write is one operation.  The lifecycle write is an update of the version
  row by its id: `handle` does not look at the label that the gate judged.
-/

import Mathlib.Data.List.Dedup
import Mathlib.Data.List.Sort
import Mathlib.Data.String.Basic
import VyomQuant.Lib.KeyedList
import VyomQuant.Lib.RelyGuarantee

namespace VyomQuant.Lifecycle

open Program

/-! ## The two machines -/

/-- `chk_lifecycle_state`. -/
inductive LifecycleState where
  | draft
  | validated
  | saved
  | training
  | trained
  | ready
  | deployed
  | running
  | paused
  | stopped
  | archived
deriving DecidableEq

/-- `VERSION_TRANSITIONS`. -/
def versionTransitions : LifecycleState → List LifecycleState
  | .draft => [.validated, .draft]
  | .validated => [.draft, .saved]
  | .saved => [.training, .ready]
  | .training => [.trained, .saved]
  | .trained => [.ready]
  | .ready => [.deployed, .archived]
  | .deployed => [.running]
  | .running => [.paused, .stopped]
  | .paused => [.running, .stopped]
  | .stopped => [.archived]
  | .archived => []

/-- `READ_ONLY_LIFECYCLE_STATES`. -/
def readOnlyLifecycleStates : List LifecycleState := [.deployed, .running, .paused]

inductive BindingState where
  | deploying
  | running
  | paused
  | stopped
  | failed
deriving DecidableEq

/-- `BINDING_TRANSITIONS`. -/
def bindingTransitions : BindingState → List BindingState
  | .deploying => [.running, .paused, .stopped, .failed]
  | .running => [.paused, .stopped, .failed]
  | .paused => [.running, .stopped, .failed]
  | .stopped => []
  | .failed => [.stopped]

/-- `STOPPABLE_BINDING_STATES`. -/
def stoppableBindingStates : List BindingState := [.deploying, .running, .paused]

/-- The spellings of `strategy_deployments.status` that are known, in either case. -/
inductive StatusText where
  | deploying
  | deployed
  | pending
  | queued
  | starting
  | running
  | active
  | restarting
  | paused
  | stopping
  | stopped
  | cancelled
  | canceled
  | completed
  | failed
  | error
  | crashed
deriving DecidableEq

/-- `_STATUS_TO_BINDING_STATE`. -/
def StatusText.bindingState : StatusText → BindingState
  | .deploying => .deploying
  | .deployed => .deploying
  | .pending => .deploying
  | .queued => .deploying
  | .starting => .deploying
  | .running => .running
  | .active => .running
  | .restarting => .deploying
  | .paused => .paused
  | .stopping => .stopped
  | .stopped => .stopped
  | .cancelled => .stopped
  | .canceled => .stopped
  | .completed => .stopped
  | .failed => .failed
  | .error => .failed
  | .crashed => .failed

/-! ## The tables -/

/-- A version; its label is `none` where it is null or outside the vocabulary. -/
structure VersionRow where
  id : String
  lifecycleState : Option LifecycleState
  isReadOnly : Bool
deriving DecidableEq

/-- A deployment; its status is `none` where it is null or outside the vocabulary. -/
structure DeploymentRow where
  id : String
  userId : String
  strategyId : Option String
  versionId : Option String
  status : Option StatusText
  errorMessage : Option String
deriving DecidableEq

/-- `binding_state`: a status that cannot be read is a failure. -/
def bindingState (row : DeploymentRow) : BindingState :=
  match row.status with
  | some status => status.bindingState
  | none => .failed

/-- The deployment is deploying, running or paused. -/
def DeploymentRow.Live (row : DeploymentRow) : Prop := bindingState row ∈ stoppableBindingStates

instance (row : DeploymentRow) : Decidable row.Live :=
  inferInstanceAs (Decidable (_ ∈ stoppableBindingStates))

structure LifecycleStore where
  versions : KeyedList VersionRow.id
  deployments : KeyedList DeploymentRow.id

inductive LifecycleOp where
  | readVersion (versionId : String)
  | readDeployment (deploymentId userId : String)
  | readDeployments (userId : String) (strategyId : Option String)
  | writeStop (userId deploymentId reason : String)
  /-- The update carries `target` only; `judged` is the label that the gate saw. -/
  | writeLifecycle (versionId : String) (judged target : LifecycleState) (readOnly : Bool)

/-- A lifecycle write answers whether it found a row. -/
abbrev LifecycleRes : LifecycleOp → Type
  | .readVersion _ => Option VersionRow
  | .readDeployment .. => List DeploymentRow
  | .readDeployments .. => List DeploymentRow
  | .writeStop .. => Unit
  | .writeLifecycle .. => Bool

/-- A refusal of the gate. -/
inductive LifecycleRejected where
  /-- `LIFECYCLE_STATE_UNRECOGNISED`. -/
  | stateUnrecognised (current target : Option LifecycleState)
  /-- `LIFECYCLE_TRANSITION_INVALID`, with the transitions that are legal. -/
  | transitionInvalid (current target : LifecycleState) (allowed : List LifecycleState)

inductive LifecycleError where
  | rejected (refusal : LifecycleRejected)
  | statementFailed

abbrev LifecycleProgram (α : Type) := Program LifecycleRes LifecycleError α

def stopRow (reason : String) (row : DeploymentRow) : DeploymentRow :=
  { row with status := some .stopped, errorMessage := some reason }

def labelRow (target : LifecycleState) (readOnly : Bool) (row : VersionRow) : VersionRow :=
  { row with lifecycleState := some target, isReadOnly := readOnly || row.isReadOnly }

/-- The statement as the database executes it. -/
def handle : Handler LifecycleRes LifecycleError LifecycleStore
  | .readVersion versionId, s => (.ok (s.versions.get? versionId), s)
  | .readDeployment deploymentId userId, s =>
    (.ok (s.deployments.items.filter fun row => row.id = deploymentId ∧ row.userId = userId), s)
  | .readDeployments userId strategyId, s =>
    (.ok (s.deployments.items.filter fun row =>
      row.userId = userId ∧ ∀ strategy ∈ strategyId, row.strategyId = some strategy), s)
  | .writeStop userId deploymentId reason, s =>
    match s.deployments.get? deploymentId with
    | none => (.ok (), s)
    | some row =>
      if row.userId = userId then
        (.ok (), { s with deployments := s.deployments.put (stopRow reason row) })
      else (.ok (), s)
  | .writeLifecycle versionId _ target readOnly, s =>
    match s.versions.get? versionId with
    | none => (.ok false, s)
    | some row => (.ok true, { s with versions := s.versions.put (labelRow target readOnly row) })

/-! ## `apply_version_state` -/

/-- Why a version did not move. -/
inductive TransitionDetail where
  | refused (refusal : LifecycleRejected)
  | noVersionId
  | notWritten

structure TransitionResult where
  versionId : Option String
  fromState : Option LifecycleState
  toState : Option LifecycleState
  moved : Bool
  reason : String
  detail : Option TransitionDetail

/-- `assert_transition_legal`. -/
def assertTransitionLegal (current target : Option LifecycleState) :
    Except LifecycleRejected (LifecycleState × LifecycleState) :=
  match current, target with
  | some currentLabel, some targetLabel =>
    if targetLabel ∈ versionTransitions currentLabel then .ok (currentLabel, targetLabel)
    else .error (.transitionInvalid currentLabel targetLabel (versionTransitions currentLabel))
  | _, _ => .error (.stateUnrecognised current target)

/-- `set_version_lifecycle`: whether a row was written; it does not raise. -/
def setVersionLifecycle (versionId : String) (judged target : LifecycleState) :
    LifecycleProgram Bool :=
  call (.writeLifecycle versionId judged target (target ∈ readOnlyLifecycleStates)) fun
    | .ok written => ret written
    | .error _ => ret false

/-- `apply_version_state`, on a row read earlier. -/
def applyVersionState (versionRow : Option VersionRow) (target : Option LifecycleState)
    (reason : String) (strict : Bool) : LifecycleProgram TransitionResult :=
  let versionId := (versionRow.map (·.id)).filter fun id => id ≠ ""
  let current := versionRow.bind (·.lifecycleState)
  match assertTransitionLegal current target with
  | .error refusal =>
    if strict then raise (.rejected refusal)
    else ret { versionId, fromState := current, toState := target, moved := false, reason,
               detail := some (.refused refusal) }
  | .ok (fromState, toState) =>
    match versionId with
    | none => ret { versionId := none, fromState := some fromState, toState := some toState,
                    moved := false, reason, detail := some .noVersionId }
    | some id => (setVersionLifecycle id fromState toState).bind fun written =>
      ret { versionId := some id, fromState := some fromState, toState := some toState,
            moved := written, reason, detail := if written then none else some .notWritten }

/-- `load_version_row`. -/
def loadVersionRow (versionId : String) : LifecycleProgram (Option VersionRow) :=
  if versionId = "" then ret none
  else call (.readVersion versionId) fun
    | .ok row => ret row
    | .error _ => ret none

/-! ## `stop_deployments_for_reason` -/

/-- The reads of `_load_live_deployments` for named deployments; one that fails empties the
    result. -/
def loadEach (userId : String) :
    List String → List DeploymentRow → LifecycleProgram (List DeploymentRow)
  | [], rows => ret rows
  | deploymentId :: rest, rows =>
    call (.readDeployment deploymentId userId) fun
      | .ok found => loadEach userId rest (rows ++ found)
      | .error _ => ret []

/-- `_load_live_deployments`: the named ones, or the live ones of the user. -/
def loadLiveDeployments (userId : String) (strategyId : Option String)
    (deploymentIds : List String) : LifecycleProgram (List DeploymentRow) :=
  let wanted := (deploymentIds.filter fun id => id ≠ "").dedup.mergeSort
  if wanted ≠ [] then loadEach userId wanted []
  else call (.readDeployments userId (strategyId.filter fun id => id ≠ "")) fun
    | .ok rows => ret (rows.filter fun row => row.Live)
    | .error _ => ret []

/-- `_move_version_for_stop`. -/
def moveVersionForStop (row : DeploymentRow) (reason : String) :
    LifecycleProgram (Option TransitionResult) :=
  match row.versionId.filter fun id => id ≠ "" with
  | none => ret none
  | some versionId => (loadVersionRow versionId).bind fun
    | none => ret none
    | some versionRow =>
      (applyVersionState (some versionRow) (some .stopped) reason false).bind fun result =>
        ret (some result)

structure StopReport where
  stopped : List DeploymentRow
  alreadyStopped : List DeploymentRow
  failed : List DeploymentRow
  versions : List TransitionResult

/-- The loop over the candidates: the row is stopped first and the version's label second. -/
def stopEach (userId reason : String) :
    List DeploymentRow → StopReport → LifecycleProgram StopReport
  | [], report => ret report
  | row :: rest, report =>
    if row.Live then
      call (.writeStop userId row.id reason) fun
        | .error _ => stopEach userId reason rest { report with failed := report.failed ++ [row] }
        | .ok () => (moveVersionForStop row reason).bind fun moved =>
          stopEach userId reason rest { report with
            stopped := report.stopped ++ [stopRow reason row]
            versions := report.versions ++ moved.toList }
    else stopEach userId reason rest { report with alreadyStopped := report.alreadyStopped ++ [row] }

/-- `stop_deployments_for_reason`. -/
def stopDeploymentsForReason (userId reason : String) (strategyId : Option String)
    (deploymentIds : List String) : LifecycleProgram StopReport :=
  if userId = "" then ret ⟨[], [], [], []⟩
  else (loadLiveDeployments userId strategyId deploymentIds).bind fun candidates =>
    stopEach userId reason candidates ⟨[], [], [], []⟩

/-! ## Calls -/

/-- A call of the two functions; the row that `apply_version_state` is given is read first. -/
inductive LifecycleCall where
  | apply (versionId : String) (target : Option LifecycleState) (reason : String) (strict : Bool)
  | stop (userId reason : String) (strategyId : Option String) (deploymentIds : List String)

def LifecycleCall.program : LifecycleCall → LifecycleProgram Unit
  | .apply versionId target reason strict =>
    ((loadVersionRow versionId).bind fun row => applyVersionState row target reason strict).bind
      fun _ => ret ()
  | .stop userId reason strategyId deploymentIds =>
    (stopDeploymentsForReason userId reason strategyId deploymentIds).bind fun _ => ret ()

end VyomQuant.Lifecycle
