/-
  VyomQuant.Lifecycle.HonestLabels

  What the lifecycle labels say, under any interleaving of the calls.

  Every step of a run that is `Timely` moves a label along the version machine and a status
  along the binding machine.  A version labelled `STOPPED` may still have a live deployment in
  the middle of a call; the invariant is that some call is then certain to stop it
  (`Accounted`), so that none is left when no call is in progress.
-/

import VyomQuant.Lifecycle.StrategyLifecycle

namespace VyomQuant.Lifecycle

open Program Optimistic

/-! ## The laws -/

/-- Each label that changes moves along an edge of the version machine. -/
def VersionsMove (s s' : LifecycleStore) : Prop :=
  ∀ id row row', s.versions.get? id = some row → s'.versions.get? id = some row' →
    row'.lifecycleState ≠ row.lifecycleState →
      ∃ source target, row.lifecycleState = some source ∧ row'.lifecycleState = some target ∧
        target ∈ versionTransitions source

/-- Each binding state that changes moves along an edge of the binding machine. -/
def DeploymentsMove (s s' : LifecycleStore) : Prop :=
  ∀ id row row', s.deployments.get? id = some row → s'.deployments.get? id = some row' →
    bindingState row' ≠ bindingState row → bindingState row' ∈ bindingTransitions (bindingState row)

/-- The row is of a version that is labelled `STOPPED`, and is live. -/
def Mislabelled (s : LifecycleStore) (row : DeploymentRow) : Prop :=
  row ∈ s.deployments.items ∧ row.Live ∧
    ∃ version ∈ s.versions.items, row.versionId = some version.id ∧
      version.lifecycleState = some .stopped

/-- No version labelled `STOPPED` has a live deployment. -/
def HonestStops (s : LifecycleStore) : Prop := ∀ row, ¬ Mislabelled s row

/-! ## The condition -/

section Runs

variable {ι : Type} [DecidableEq ι]

abbrev Calls (ι : Type) := Config LifecycleRes LifecycleError Unit LifecycleStore ι

def StopsRow (row : DeploymentRow) (op : LifecycleOp) : Prop :=
  ∃ reason, op = .writeStop row.userId row.id reason

/-- A call in progress has loaded the deployment and goes on to stop it. -/
def StillStopped (c : Calls ι) (row : DeploymentRow) : Prop :=
  ∃ i, (c.pool i).Certain (StopsRow row)

/-- A lifecycle write finds the label that its gate judged, and writes `STOPPED` only when each
    live deployment of the version is still to be stopped; and the stop write of a deployment
    whose version is labelled so does not fail. -/
def Timely (c : Calls ι) (op : LifecycleOp) (answer : Except LifecycleError (LifecycleRes op)) :
    Prop :=
  match op with
  | .writeLifecycle versionId judged target _ =>
    (∀ version ∈ c.store.versions.get? versionId, version.lifecycleState = some judged) ∧
      (target = .stopped → ∀ row ∈ c.store.deployments.items,
        row.versionId = some versionId → row.Live → StillStopped c row)
  | .writeStop userId deploymentId _ =>
    (∃ e, answer = .error e) → ∀ row, Mislabelled c.store row →
      ¬ (row.userId = userId ∧ row.id = deploymentId)
  | _ => True

/-- One step of the calls, any statement of which may fail. -/
abbrev TimelyStep : Calls ι → Calls ι → Prop := StepUnder handle (fun _ => True) Timely

def Quiescent (start c : Calls ι) : Prop := ∀ i, c.pool i = start.pool i ∨ (c.pool i).Ended

/-! ## What the calls issue -/

/-- Lifecycle writes are edges from the label that was judged. -/
def AlongEdges : LifecycleOp → Prop
  | .writeLifecycle _ judged target _ => target ∈ versionTransitions judged
  | _ => True

theorem assertTransitionLegal_eq_ok {current target : Option LifecycleState}
    {source goal : LifecycleState} (h : assertTransitionLegal current target = .ok (source, goal)) :
    goal ∈ versionTransitions source := by
  unfold assertTransitionLegal at h
  split at h
  · split at h
    · rename_i h_edge
      cases h
      exact h_edge
    · cases h
  · cases h

theorem loadVersionRow_issues (versionId : String) :
    (loadVersionRow versionId).Issues AlongEdges := by
  unfold loadVersionRow
  split
  · trivial
  · exact ⟨trivial, fun answer => by cases answer <;> trivial⟩

theorem applyVersionState_issues (row : Option VersionRow) (target : Option LifecycleState)
    (reason : String) (strict : Bool) :
    (applyVersionState row target reason strict).Issues AlongEdges := by
  unfold applyVersionState
  dsimp only
  split
  · split <;> trivial
  · rename_i source goal h_legal
    split
    · trivial
    · refine Issues.bind ⟨assertTransitionLegal_eq_ok h_legal, fun answer => ?_⟩ fun _ => trivial
      cases answer <;> trivial

theorem moveVersionForStop_issues (row : DeploymentRow) (reason : String) :
    (moveVersionForStop row reason).Issues AlongEdges := by
  unfold moveVersionForStop
  split
  · trivial
  · refine (loadVersionRow_issues _).bind fun loaded => ?_
    cases loaded with
    | none => trivial
    | some version => exact (applyVersionState_issues _ _ _ _).bind fun _ => trivial

theorem loadEach_issues (userId : String) (ids : List String) (rows : List DeploymentRow) :
    (loadEach userId ids rows).Issues AlongEdges := by
  induction ids generalizing rows with
  | nil => trivial
  | cons id rest ih =>
    refine ⟨trivial, fun answer => ?_⟩
    cases answer with
    | ok found => exact ih _
    | error e => trivial

theorem stopEach_issues (userId reason : String) (rows : List DeploymentRow) (report : StopReport) :
    (stopEach userId reason rows report).Issues AlongEdges := by
  induction rows generalizing report with
  | nil => trivial
  | cons row rest ih =>
    unfold stopEach
    split
    · refine ⟨trivial, fun answer => ?_⟩
      cases answer with
      | ok _ => exact (moveVersionForStop_issues row reason).bind fun _ => ih _
      | error e => exact ih _
    · exact ih _

theorem program_issues (call : LifecycleCall) : call.program.Issues AlongEdges := by
  cases call with
  | apply versionId target reason strict =>
    exact ((loadVersionRow_issues _).bind fun _ => applyVersionState_issues _ _ _ _).bind
      fun _ => trivial
  | stop userId reason strategyId deploymentIds =>
    refine Issues.bind ?_ fun _ => trivial
    unfold stopDeploymentsForReason
    split
    · trivial
    · refine Issues.bind ?_ fun _ => stopEach_issues _ _ _ _
      unfold loadLiveDeployments
      dsimp only
      split
      · exact loadEach_issues _ _ _
      · exact ⟨trivial, fun answer => by cases answer <;> trivial⟩

/-! ## What a call is certain to stop -/

theorem loadEach_bind_not_certain {row : DeploymentRow} {userId : String} {ids : List String}
    (h_ids : ids ≠ []) {rows : List DeploymentRow} {f : List DeploymentRow → LifecycleProgram Unit}
    (h_f : (f []).Ended) : ¬ ((loadEach userId ids rows).bind f).Certain (StopsRow row) := by
  cases ids with
  | nil => exact absurd rfl h_ids
  | cons id rest =>
    rintro (⟨reason, h_op⟩ | h_next)
    · cases h_op
    · exact (h_next (.error .statementFailed)).not_ended h_f

theorem applyVersionState_none_ended (target : Option LifecycleState) (reason : String)
    (strict : Bool) (f : TransitionResult → LifecycleProgram Unit) (h_f : ∀ result, (f result).Ended) :
    ((applyVersionState none target reason strict).bind f).Ended := by
  cases strict with
  | true => trivial
  | false => exact h_f _

theorem program_not_certain (call : LifecycleCall) (row : DeploymentRow) :
    ¬ call.program.Certain (StopsRow row) := by
  cases call with
  | apply versionId target reason strict =>
    have h_none := applyVersionState_none_ended target reason strict (fun _ => ret ()) fun _ => trivial
    rw [LifecycleCall.program, bind_assoc, loadVersionRow]
    split
    · exact fun h => h.not_ended h_none
    · rintro (⟨_, h_op⟩ | h_next)
      · cases h_op
      · exact (h_next (.error .statementFailed)).not_ended h_none
  | stop userId reason strategyId deploymentIds =>
    rw [LifecycleCall.program, stopDeploymentsForReason]
    split
    · exact id
    · rw [bind_assoc, loadLiveDeployments]
      split
      · rename_i h_wanted
        exact loadEach_bind_not_certain h_wanted trivial
      · rintro (⟨_, h_op⟩ | h_next)
        · cases h_op
        · exact (h_next (.error .statementFailed)).not_ended trivial

/-! ## One step -/

theorem handle_cases (op : LifecycleOp) (s : LifecycleStore) :
    (handle op s).2 = s ∨
    (∃ userId id reason row, op = .writeStop userId id reason ∧ s.deployments.get? id = some row ∧
      row.userId = userId ∧
      (handle op s).2 = { s with deployments := s.deployments.put (stopRow reason row) }) ∨
    ∃ id judged target readOnly row, op = .writeLifecycle id judged target readOnly ∧
      s.versions.get? id = some row ∧
      (handle op s).2 = { s with versions := s.versions.put (labelRow target readOnly row) } := by
  cases op with
  | readVersion id => exact Or.inl rfl
  | readDeployment id userId => exact Or.inl rfl
  | readDeployments userId strategyId => exact Or.inl rfl
  | writeStop userId id reason =>
    unfold handle
    dsimp only
    split
    · exact Or.inl rfl
    · rename_i row h_row
      split
      · rename_i h_owner
        exact Or.inr (Or.inl ⟨userId, id, reason, row, rfl, h_row, h_owner, rfl⟩)
      · exact Or.inl rfl
  | writeLifecycle id judged target readOnly =>
    unfold handle
    dsimp only
    split
    · exact Or.inl rfl
    · rename_i row h_row
      exact Or.inr (Or.inr ⟨id, judged, target, readOnly, row, rfl, h_row, rfl⟩)

theorem bindingState_stopRow (reason : String) (row : DeploymentRow) :
    bindingState (stopRow reason row) = .stopped := rfl

theorem not_live_stopRow (reason : String) (row : DeploymentRow) : ¬ (stopRow reason row).Live := by
  rw [DeploymentRow.Live, bindingState_stopRow]
  decide

/-- Every binding state but `STOPPED` has an edge to it. -/
theorem stopped_mem_bindingTransitions {state : BindingState} (h : state ≠ .stopped) :
    .stopped ∈ bindingTransitions state := by
  cases state <;> first | decide | exact absurd rfl h

theorem versionsMove_of_eq {s s' : LifecycleStore} (h : s'.versions = s.versions) :
    VersionsMove s s' := by
  intro id row row' h_row h_row' h_moved
  rw [h, h_row] at h_row'
  cases h_row'
  exact absurd rfl h_moved

theorem deploymentsMove_of_eq {s s' : LifecycleStore} (h : s'.deployments = s.deployments) :
    DeploymentsMove s s' := by
  intro id row row' h_row h_row' h_moved
  rw [h, h_row] at h_row'
  cases h_row'
  exact absurd rfl h_moved

theorem handle_deploymentsMove (op : LifecycleOp) (s : LifecycleStore) :
    DeploymentsMove s (handle op s).2 := by
  rcases handle_cases op s with h_same | ⟨_, id, reason, row, _, h_row, _, h_after⟩
      | ⟨_, _, _, _, _, _, _, h_after⟩
  · exact deploymentsMove_of_eq (by rw [h_same])
  · rw [h_after]
    intro other before after h_before h_after h_moved
    rw [KeyedList.get?_put] at h_after
    split at h_after
    · rename_i h_other
      cases h_after
      have h_id : row.id = id := (KeyedList.mem_of_get? h_row).2
      rw [show other = id from h_other.trans h_id, h_row] at h_before
      cases h_before
      exact stopped_mem_bindingTransitions fun h_stopped =>
        h_moved ((bindingState_stopRow reason row).trans h_stopped.symm)
    · rw [h_before] at h_after
      cases h_after
      exact absurd rfl h_moved
  · exact deploymentsMove_of_eq (by rw [h_after])

omit [DecidableEq ι] in
theorem handle_versionsMove {c : Calls ι} {op : LifecycleOp}
    {answer : Except LifecycleError (LifecycleRes op)} (h_edge : AlongEdges op)
    (h_timely : Timely c op answer) : VersionsMove c.store (handle op c.store).2 := by
  rcases handle_cases op c.store with h_same | ⟨_, _, _, _, _, _, _, h_after⟩
      | ⟨id, judged, target, readOnly, row, rfl, h_row, h_after⟩
  · exact versionsMove_of_eq (by rw [h_same])
  · exact versionsMove_of_eq (by rw [h_after])
  · rw [h_after]
    intro other before after h_before h_after h_moved
    rw [KeyedList.get?_put] at h_after
    split at h_after
    · rename_i h_other
      cases h_after
      have h_id : row.id = id := (KeyedList.mem_of_get? h_row).2
      rw [show other = id from h_other.trans h_id, h_row] at h_before
      cases h_before
      exact ⟨judged, target, h_timely.1 row h_row, rfl, h_edge⟩
    · rw [h_before] at h_after
      cases h_after
      exact absurd rfl h_moved

/-! ## The invariant -/

/-- Each live deployment of a version labelled `STOPPED` is still to be stopped. -/
def Accounted (c : Calls ι) : Prop := ∀ row, Mislabelled c.store row → StillStopped c row

/-- The programs of a configuration after program `i` has issued an operation that does not stop
    the row are certain of what they were. -/
theorem StillStopped.update {c : Calls ι} {row : DeploymentRow} (h : StillStopped c row) {i : ι}
    {op : LifecycleOp} {next : Except LifecycleError (LifecycleRes op) → LifecycleProgram Unit}
    (h_pool : c.pool i = .call op next) (h_op : ¬ StopsRow row op)
    (answer : Except LifecycleError (LifecycleRes op)) (s' : LifecycleStore) :
    StillStopped ⟨s', Function.update c.pool i (next answer)⟩ row := by
  obtain ⟨j, h_j⟩ := h
  by_cases h_ji : j = i
  · subst h_ji
    rw [h_pool] at h_j
    refine ⟨j, ?_⟩
    show (Function.update c.pool j (next answer) j).Certain (StopsRow row)
    rw [Function.update_self]
    exact h_j.next h_op answer
  · refine ⟨j, ?_⟩
    show (Function.update c.pool i (next answer) j).Certain (StopsRow row)
    rw [Function.update_of_ne h_ji]
    exact h_j

theorem mislabelled_of_writeStop {s : LifecycleStore} {id reason : String}
    {stopped row : DeploymentRow} (h_row : s.deployments.get? id = some stopped)
    (h : Mislabelled { s with deployments := s.deployments.put (stopRow reason stopped) } row) :
    Mislabelled s row ∧ row.id ≠ id := by
  obtain ⟨h_mem, h_live, h_version⟩ := h
  have h_id : stopped.id = id := (KeyedList.mem_of_get? h_row).2
  rcases KeyedList.mem_put h_mem with rfl | ⟨h_old, h_ne⟩
  · exact absurd h_live (not_live_stopRow _ _)
  · exact ⟨⟨h_old, h_live, h_version⟩, fun h_eq => h_ne (h_eq.trans h_id.symm)⟩

theorem accounted_step {c c' : Calls ι} (h : Accounted c) (h_step : TimelyStep c c') :
    Accounted c' := by
  cases h_step with
  | @issue i op next answer s' h_pool h_timely h_responds =>
    intro row h_row
    -- Either the statement failed, or the store is the one that `handle` leaves.
    have h_store : s' = c.store ∧ (∃ e, answer = .error e) ∨ s' = (handle op c.store).2 := by
      cases h_responds with
      | answered => exact Or.inr rfl
      | lost => exact Or.inr rfl
      | failed => exact Or.inl ⟨rfl, _, rfl⟩
    rcases h_store with ⟨rfl, h_failed⟩ | rfl
    · refine (h row h_row).update h_pool ?_ answer _
      rintro ⟨reason, rfl⟩
      exact h_timely h_failed row h_row ⟨rfl, rfl⟩
    · rcases handle_cases op c.store with h_same | ⟨userId, id, reason, stopped, rfl, h_get, _, h_after⟩
          | ⟨id, judged, target, readOnly, version, rfl, h_get, h_after⟩
      · have h_old : Mislabelled c.store row := h_same ▸ h_row
        refine (h row h_old).update h_pool ?_ answer _
        rintro ⟨reason, rfl⟩
        -- The row is stored, so its stop write does take effect.
        have h_get := KeyedList.get?_key_of_mem h_old.1
        rw [handle, h_get] at h_same
        dsimp only at h_same
        rw [if_pos rfl] at h_same
        have h_put : c.store.deployments.put (stopRow reason row) = c.store.deployments :=
          congrArg LifecycleStore.deployments h_same
        have h_self := KeyedList.get?_put_self c.store.deployments (stopRow reason row)
        rw [h_put, show (stopRow reason row).id = row.id from rfl, h_get] at h_self
        have h_stopped : bindingState row = .stopped := by
          rw [Option.some.inj h_self]
          rfl
        have h_live := h_old.2.1
        rw [DeploymentRow.Live, h_stopped] at h_live
        exact absurd h_live (by decide)
      · have h_row' := h_row
        rw [h_after] at h_row'
        obtain ⟨h_old, h_other⟩ := mislabelled_of_writeStop h_get h_row'
        refine (h row h_old).update h_pool ?_ answer _
        rintro ⟨_, h_op⟩
        cases h_op
        exact h_other rfl
      · have h_not : ¬ StopsRow row (.writeLifecycle id judged target readOnly) := by
          rintro ⟨_, h_op⟩
          cases h_op
        obtain ⟨h_mem, h_live, labelled, h_labelled, h_bound, h_label⟩ := h_row
        rw [h_after] at h_mem h_labelled
        have h_id : version.id = id := (KeyedList.mem_of_get? h_get).2
        rcases KeyedList.mem_put h_labelled with rfl | ⟨h_stored, _⟩
        · have h_target : target = .stopped := Option.some.inj h_label
          exact (h_timely.2 h_target row h_mem (h_bound.trans (congrArg some h_id)) h_live).update
            h_pool h_not answer _
        · exact (h row ⟨h_mem, h_live, labelled, h_stored, h_bound, h_label⟩).update h_pool h_not
            answer _

theorem accounted_run {c c' : Calls ι} (h : Accounted c)
    (h_run : Relation.ReflTransGen TimelyStep c c') : Accounted c' := by
  induction h_run with
  | refl => exact h
  | tail _ h_step ih => exact accounted_step ih h_step

/-- In a run of timely steps each step moves labels and states along their machines, and no
    version labelled `STOPPED` has a live deployment when no call is in progress. -/
theorem labels_honest {start c : Calls ι} (h_calls : ∀ i, ∃ call : LifecycleCall, start.pool i = call.program)
    (h_init : HonestStops start.store)
    (h_run : Relation.ReflTransGen TimelyStep start c) :
    (∀ c', TimelyStep c c' →
        VersionsMove c.store c'.store ∧ DeploymentsMove c.store c'.store) ∧
      (Quiescent start c → HonestStops c.store) := by
  have h_issues : ∀ i, (c.pool i).Issues AlongEdges := by
    have h_start : ∀ i, (start.pool i).Issues AlongEdges := by
      intro i
      obtain ⟨call, h_call⟩ := h_calls i
      rw [h_call]
      exact program_issues call
    have h_plain : Relation.ReflTransGen
        (StepWhere handle (fun _ => True) fun _ _ => True) start c :=
      h_run.lift id fun _ _ h => h.stepWhere
    exact (Issues.invariant (I := fun _ => True) (fun _ _ _ _ _ => trivial) h_plain h_start trivial).2
  have h_accounted : Accounted c := accounted_run (fun row h_row => absurd h_row (h_init row)) h_run
  constructor
  · rintro c' ⟨i, h_pool, h_timely, h_responds⟩
    have h_edge : AlongEdges _ := (h_pool ▸ h_issues i).1
    rcases h_responds.store with rfl | rfl
    · exact ⟨handle_versionsMove h_edge h_timely, handle_deploymentsMove _ _⟩
    · exact ⟨versionsMove_of_eq rfl, deploymentsMove_of_eq rfl⟩
  · intro h_quiet row h_row
    obtain ⟨i, h_i⟩ := h_accounted row h_row
    rcases h_quiet i with h_same | h_ended
    · obtain ⟨call, h_call⟩ := h_calls i
      rw [h_same, h_call] at h_i
      exact program_not_certain call row h_i
    · exact h_i.not_ended h_ended

/-! ## Runs without failures -/

/-- A lifecycle write finds the label that its gate judged, and no live deployment. -/
def NoneLive (op : LifecycleOp) (s : LifecycleStore) : Prop :=
  match op with
  | .writeLifecycle versionId judged _ _ =>
    (∀ version ∈ s.versions.get? versionId, version.lifecycleState = some judged) ∧
      ∀ row ∈ s.deployments.items, row.versionId = some versionId → ¬ row.Live
  | _ => True

instance (op : LifecycleOp) (s : LifecycleStore) : Decidable (NoneLive op s) :=
  match op with
  | .writeLifecycle .. => inferInstanceAs (Decidable (_ ∧ _))
  | .readVersion _ => inferInstanceAs (Decidable True)
  | .readDeployment .. => inferInstanceAs (Decidable True)
  | .readDeployments .. => inferInstanceAs (Decidable True)
  | .writeStop .. => inferInstanceAs (Decidable True)

theorem handle_writeStop (userId id reason : String) (s : LifecycleStore) :
    (handle (.writeStop userId id reason) s).1 = .ok () := by
  unfold handle
  dsimp only
  split
  · rfl
  · split <;> rfl

theorem timelyStep_of_noneLive {c c' : Calls ι}
    (h : StepWhere handle (fun _ => False) NoneLive c c') : TimelyStep c c' := by
  obtain ⟨i, h_pool, h_none, h_responds⟩ := h
  cases h_responds with
  | lost h_fault => exact h_fault.elim
  | failed h_fault => exact h_fault.elim
  | answered =>
    refine .issue i h_pool ?_ .answered
    rename_i op next
    cases op with
    | readVersion id => trivial
    | readDeployment id userId => trivial
    | readDeployments userId strategyId => trivial
    | writeStop userId id reason =>
      rintro ⟨e, h_error⟩
      rw [handle_writeStop] at h_error
      cases h_error
    | writeLifecycle id judged target readOnly =>
      exact ⟨h_none.1, fun _ row h_mem h_bound h_live => absurd h_live (h_none.2 row h_mem h_bound)⟩

end Runs

/-! ## A version with two deployments, and two calls on one version -/

def runningDeployment (id : String) : DeploymentRow :=
  ⟨id, "user", some "strategy", some "version", some .running, none⟩

def runningVersion (deployments : KeyedList DeploymentRow.id) : LifecycleStore where
  versions := ⟨[⟨"version", some .running, true⟩], List.nodup_singleton _⟩
  deployments := deployments

def stopFirst : LifecycleCall := .stop "user" "drawdown limit reached" none ["first"]

def oneDeployment : KeyedList DeploymentRow.id :=
  ⟨[runningDeployment "first"], List.nodup_singleton _⟩

def twoDeployments : KeyedList DeploymentRow.id := oneDeployment.put (runningDeployment "second")

def stopOneOfTwo : Calls Unit := ⟨runningVersion twoDeployments, fun _ => stopFirst.program⟩

def pauseAndStop : Calls Bool :=
  ⟨runningVersion KeyedList.empty, fun stopping =>
    (LifecycleCall.apply "version" (some (if stopping then .stopped else .paused)) "by hand"
      true).program⟩

abbrev AnyStep {ι : Type} [DecidableEq ι] : Calls ι → Calls ι → Prop :=
  StepUnder handle (fun _ => True) fun _ _ _ => True

theorem anyStep_reachable {ι : Type} [DecidableEq ι] (c : Calls ι) (schedule : List ι) :
    Relation.ReflTransGen AnyStep c (executeWhere handle (fun _ _ => True) c schedule) := by
  have h_run : Relation.ReflTransGen (StepWhere handle (fun _ => True) fun _ _ => True) c
      (executeWhere handle (fun _ _ => True) c schedule) := executeWhere_reachable schedule
  exact h_run.lift id fun _ _ h => h.stepUnder

/-- Stopping one deployment labels the version of a running one `STOPPED`, and a pause that was
    judged before a stop takes the version out of `STOPPED`. -/
theorem labels_of_stopOneOfTwo :
    (∃ c, Relation.ReflTransGen AnyStep stopOneOfTwo c ∧ Quiescent stopOneOfTwo c ∧
      ¬ HonestStops c.store) ∧
    ∃ c c', Relation.ReflTransGen AnyStep pauseAndStop c ∧ AnyStep c c' ∧
      ¬ VersionsMove c.store c'.store := by
  constructor
  · let c := executeWhere handle (fun _ _ => True) stopOneOfTwo [(), (), (), ()]
    refine ⟨c, anyStep_reachable _ _, fun _ => Or.inr ?_, fun h => ?_⟩
    · show (c.pool ()).Ended
      decide +kernel
    · have h_rows : runningDeployment "second" ∈ c.store.deployments.items ∧
          (⟨"version", some .stopped, true⟩ : VersionRow) ∈ c.store.versions.items := by
        decide +kernel
      exact h _ ⟨h_rows.1, by decide, _, h_rows.2, rfl, rfl⟩
  · let c := executeWhere handle (fun _ _ => True) pauseAndStop [false, true, true]
    refine ⟨c, issueWhere handle (fun _ _ => True) c false, anyStep_reachable _ _, ?_, fun h => ?_⟩
    · have h_step : StepWhere handle (fun _ => True) (fun _ _ => True) c
          (issueWhere handle (fun _ _ => True) c false) :=
        issueWhere_step (by decide +kernel) fun _ _ _ => trivial
      exact h_step.stepUnder
    · have h_rows : c.store.versions.get? "version" = some ⟨"version", some .stopped, true⟩ ∧
          (issueWhere handle (fun _ _ => True) c false).store.versions.get? "version"
            = some ⟨"version", some .paused, true⟩ := by decide +kernel
      obtain ⟨source, target, h_source, h_target, h_edge⟩ := h _ _ _ h_rows.1 h_rows.2 (by decide)
      cases h_source
      cases h_target
      exact absurd h_edge (by decide)

def stopOnly : Calls Unit := ⟨runningVersion oneDeployment, fun _ => stopFirst.program⟩

theorem labels_honest_sample :
    HonestStops (executeWhere handle NoneLive stopOnly [(), (), (), ()]).store := by
  have h_schedule : Relation.ReflTransGen (StepWhere handle (fun _ => False) NoneLive) stopOnly
      (executeWhere handle NoneLive stopOnly [(), (), (), ()]) := executeWhere_reachable _
  have h_run := h_schedule.lift id fun _ _ h => timelyStep_of_noneLive h
  have h_init : HonestStops stopOnly.store := by
    rintro row ⟨_, _, version, h_version, _, h_label⟩
    rw [List.mem_singleton.mp h_version] at h_label
    cases h_label
  refine (labels_honest (fun _ => ⟨stopFirst, rfl⟩) h_init h_run).2 fun _ => Or.inr ?_
  show ((executeWhere handle NoneLive stopOnly [(), (), (), ()]).pool ()).Ended
  decide +kernel

end VyomQuant.Lifecycle
