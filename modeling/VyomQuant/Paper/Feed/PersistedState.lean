/-
  VyomQuant.Paper.Feed.PersistedState

  `feed_state` twice: on the handle, and on the session row that `admit_execution` reads.

  `_transition_feed_state` changes the handle before it writes the row, and writes nothing when
  the handle already holds the state it moves to.  So one write that fails parts the two, and
  every later transition to the same state returns normally with the row as it was
  (`transition_persists_iff`).  `persisted_state_follows_feed` is what holds of whole runs
  otherwise: the row follows the feed where no transition finds the state on the handle and
  another one on the row.
-/

import VyomQuant.Paper.Feed.Recorder

namespace VyomQuant.Paper.Feed

open Program

/-! ## The gate -/

def TRADEABLE_FEED_STATES : List FeedState := [.healthy]

/-- `FeedNotHealthy`, with the state that was read. -/
structure FeedNotHealthy where
  feedState : Option FeedState

structure ExecutionAdmission where
  feedState : FeedState
  feedTransport : Option FeedTransport

/-- `admit_execution`: a row that does not say is refused. -/
def admitExecution (session : FeedColumns) : Except FeedNotHealthy ExecutionAdmission :=
  match session.feedState with
  | none => .error ⟨none⟩
  | some feedState =>
    if feedState ∈ TRADEABLE_FEED_STATES then
      .ok { feedState, feedTransport := session.feedTransport }
    else .error ⟨some feedState⟩

/-- Some order is admitted on the row. -/
def Admits (session : FeedColumns) : Prop := ∃ admission, admitExecution session = .ok admission

theorem admits_iff {session : FeedColumns} :
    Admits session ↔ ∃ state ∈ TRADEABLE_FEED_STATES, session.feedState = some state := by
  unfold Admits admitExecution
  constructor
  · rintro ⟨admission, h⟩
    split at h
    · cases h
    · rename_i state h_state
      split at h
      · rename_i h_mem
        exact ⟨state, h_mem, h_state⟩
      · cases h
  · rintro ⟨state, h_mem, h_state⟩
    rw [h_state]
    exact ⟨_, if_pos h_mem⟩

/-! ## The calls -/

/-- `mark_degraded`, which returns nothing: what follows the transition is the event log's. -/
def markDegraded (feed : FeedHandle) : FeedProgram (FeedHandle × Processed) :=
  transitionFeedState feed .degraded none fun feed => ret (feed, .dropped .disconnected)

/-- The calls that may move the feed to another state. -/
inductive FeedCall where
  | process (message : Message)
  | markDegraded

section Calls

variable (sha256 : String → String)

def FeedCall.program (call : FeedCall) (feed : FeedHandle) : FeedProgram (FeedHandle × Processed) :=
  match call with
  | .process message => nextValidatedEvent sha256 feed message
  | .markDegraded => Feed.markDegraded feed

end Calls

/-- The state that the call moves the feed to, where it makes a transition. -/
def FeedCall.target (call : FeedCall) (feed : FeedHandle) : Option FeedState :=
  match call with
  | .markDegraded => some .degraded
  | .process .disconnected => some .degraded
  | .process (.message body _) =>
    match readCandle feed.config body with
    | .error _ => none
    | .ok candle => some (feedStateForTransport candle.transport)

/-- The call made its transition and returned normally: a message that carries a candle when it
    became an event, and the others when they did not raise. -/
def FeedCall.transitions : FeedCall → Processed → Bool
  | .process (.message _ _), .event _ => true
  | .process (.message _ _), _ => false
  | _, .raised _ => false
  | _, _ => true

/-- The row holds the state of the feed. -/
def InSync (feed : FeedHandle) (s : FeedStore) : Prop := s.session.feedState = some feed.feedState

/-- A call that moves the feed to the state it is in finds that state on the row. -/
def FeedCall.FindsItRecorded (call : FeedCall) (feed : FeedHandle) (s : FeedStore) : Prop :=
  call.target feed = some feed.feedState → InSync feed s

/-! ## One transition -/

section Transition

variable {sha256 : String → String} {stops loses : FeedOp → FeedStore → Prop}
  {feed feed' : FeedHandle} {s t : FeedStore} {state : FeedState} {transport : Option FeedTransport}
  {next : FeedHandle → FeedProgram (FeedHandle × Processed)} {processed : Processed}

/-- The row is written exactly when the state of the feed changes. -/
def RowAfter (state : FeedState) (feed : FeedHandle) (s t : FeedStore) : Prop :=
  t.session.feedState = if state = feed.feedState then s.session.feedState else some state

/-- A write that did not return leaves the row, or has written it after all. -/
def RowAfterFailure (state : FeedState) (feed : FeedHandle) (s t : FeedStore) : Prop :=
  state = feed.feedState → t.session.feedState = s.session.feedState

theorem RowAfter.afterFailure (h : RowAfter state feed s t) : RowAfterFailure state feed s t := by
  intro h_same
  unfold RowAfter at h
  rw [if_pos h_same] at h
  exact h

theorem rowAfter_update (feed : FeedHandle) (s : FeedStore) (state : FeedState)
    (written : Option FeedTransport) :
    RowAfter state feed s
      { s with session := s.session.update {
          feedState := if state ≠ feed.feedState then some state else none
          feedTransport := written } } := by
  show (if state ≠ feed.feedState then some state else none).or s.session.feedState
    = if state = feed.feedState then s.session.feedState else some state
  by_cases h_same : state = feed.feedState
  · rw [if_pos h_same, if_neg (not_not.mpr h_same), Option.none_or]
  · rw [if_neg h_same, if_pos h_same, Option.some_or]

/-- A transition goes on with the new state on the feed and the row written as it says, or
    raises with the new state on the feed all the same. -/
theorem transitionFeedState_writes {Q : Except FeedError (FeedHandle × Processed) → FeedStore → Prop}
    (h_next : ∀ feed' t, feed'.feedState = state → RowAfter state feed s t →
      (next feed').WithstandsWhere handle stops loses (fun _ => True) Q t)
    (h_raised : ∀ feed' t e, feed'.feedState = state → RowAfterFailure state feed s t →
      Q (.ok (feed', .raised e)) t) :
    (transitionFeedState feed state transport next).WithstandsWhere handle stops loses
      (fun _ => True) Q s := by
  unfold transitionFeedState
  dsimp only
  split
  · refine .call_of trivial (h_next _ _ rfl (rowAfter_update feed s state _)) ?_ ?_
    · exact fun e _ => ⟨trivial, h_raised _ _ e rfl (rowAfter_update feed s state _).afterFailure⟩
    · exact fun e => ⟨trivial, h_raised _ _ e rfl fun _ => rfl⟩
  · rename_i h_unchanged
    have h_same : state = feed.feedState := not_not.mp fun h => h_unchanged (Or.inl h)
    refine h_next _ _ rfl ?_
    unfold RowAfter
    rw [if_pos h_same]

end Transition

/-! ## One call -/

/-- What a call leaves: after its transition the two agree if it had found them so, and the row
    changes only where the feed does. -/
def Persists (call : FeedCall) (feed : FeedHandle) (s : FeedStore) :
    Except FeedError (FeedHandle × Processed) → FeedStore → Prop
  | .ok (feed', processed), t =>
    (call.transitions processed = true → (InSync feed' t ↔ call.FindsItRecorded feed s)) ∧
      (feed'.feedState = feed.feedState → t.session.feedState = s.session.feedState)
  | .error _, _ => True

section Call

variable {sha256 : String → String} {stops loses : FeedOp → FeedStore → Prop} {call : FeedCall}
  {feed feed' : FeedHandle} {s t : FeedStore} {state : FeedState} {processed : Processed}

theorem persists_of_rowAfter (h_target : call.target feed = some state)
    (h_state : feed'.feedState = state) (h_row : RowAfter state feed s t) :
    Persists call feed s (.ok (feed', processed)) t := by
  unfold RowAfter at h_row
  unfold Persists
  dsimp only
  unfold FeedCall.FindsItRecorded InSync
  rw [h_target, h_state, h_row]
  by_cases h_same : state = feed.feedState
  · rw [if_pos h_same, h_same]
    exact ⟨fun _ => ⟨fun h _ => h, fun h => h rfl⟩, fun _ => rfl⟩
  · rw [if_neg h_same]
    exact ⟨fun _ => ⟨fun _ h => absurd (Option.some.inj h) h_same, fun _ => rfl⟩,
      fun h => absurd h h_same⟩

theorem persists_of_failure (h_no : call.transitions processed = false)
    (h_row : feed'.feedState = feed.feedState → t.session.feedState = s.session.feedState) :
    Persists call feed s (.ok (feed', processed)) t :=
  ⟨fun h => absurd h (Bool.eq_false_iff.mp h_no), h_row⟩

theorem markDegraded_persists (h_target : call.target feed = some .degraded)
    (h_raised : ∀ e, call.transitions (.raised e) = false) (attempts : FeedHandle → ℕ) :
    (transitionFeedState feed .degraded none fun feed =>
        ret ({ feed with reconnectAttempts := attempts feed }, .dropped .disconnected)).WithstandsWhere
      handle stops loses (fun _ => True) (Persists call feed s) s := by
  refine transitionFeedState_writes ?_ ?_
  · intro feed' t h_state h_row
    exact ⟨trivial, persists_of_rowAfter h_target h_state h_row⟩
  · intro feed' t e h_state h_row
    refine persists_of_failure (h_raised e) fun h_same => h_row ?_
    rw [← h_state, h_same]

theorem record_persists {body : Body} {receivedAt : Accounting.Instant} {row : MarketEventRow}
    (h_target : (FeedCall.process (.message body receivedAt)).target feed
      = some (feedStateForTransport row.payload.transport)) :
    (record feed row).WithstandsWhere handle stops loses (fun _ => True)
      (Persists (.process (.message body receivedAt)) feed s) s := by
  have h_error : ∀ e t, t.session = s.session →
      (recorded feed row (.error e)).WithstandsWhere handle stops loses (fun _ => True)
        (Persists (.process (.message body receivedAt)) feed s) t := by
    intro e t h_session
    unfold recorded
    dsimp only
    split
    · exact ⟨trivial, persists_of_failure rfl fun _ => by rw [h_session]⟩
    · exact ⟨trivial, persists_of_failure rfl fun _ => by rw [h_session]⟩
  have h_session : ∀ t, t = (handle (.insertMarketEvent row) s).2 → t.session = s.session := by
    rintro _ rfl
    rcases handle_insertMarketEvent s row with ⟨e, h_handle⟩ | ⟨t, h_insert, h_handle⟩
    · rw [h_handle]
    · obtain ⟨_, rfl⟩ := insertMarketEvent_eq_ok h_insert
      rw [h_handle]
  refine .call_of trivial ?_ (fun e _ => h_error e _ (h_session _ rfl)) fun e => h_error e s rfl
  cases h_answer : (handle (.insertMarketEvent row) s).1 with
  | error e => exact h_error e _ (h_session _ rfl)
  | ok answer =>
    -- The handle has moved on, its state is still that of before.
    have h_moved : (feed.moved row).feedState = feed.feedState := rfl
    have h_row : ∀ t, RowAfter (feedStateForTransport row.payload.transport) (feed.moved row)
        (handle (.insertMarketEvent row) s).2 t →
        RowAfter (feedStateForTransport row.payload.transport) feed s t := by
      intro t h_row
      unfold RowAfter at h_row ⊢
      rw [h_row, h_moved, h_session _ rfl]
    unfold recorded
    dsimp only
    refine transitionFeedState_writes ?_ ?_
    · intro feed' t h_state h_after
      exact ⟨trivial, persists_of_rowAfter h_target h_state (h_row t h_after)⟩
    · intro feed' t e h_state h_after
      refine persists_of_failure rfl fun h_same => ?_
      rw [h_after (by rw [← h_state, h_same, h_moved]), h_session _ rfl]

theorem FeedCall.program_persists :
    (call.program sha256 feed).WithstandsWhere handle stops loses (fun _ => True)
      (Persists call feed s) s := by
  cases call with
  | markDegraded =>
    exact markDegraded_persists rfl (fun _ => rfl) fun feed => feed.reconnectAttempts
  | process message =>
    cases message with
    | disconnected =>
      exact markDegraded_persists rfl (fun _ => rfl) fun feed => feed.reconnectAttempts + 1
    | message body receivedAt =>
      have h_drop : ∀ reason : DropReason, (ret (feed, Processed.dropped reason) :
          FeedProgram (FeedHandle × Processed)).WithstandsWhere handle stops loses (fun _ => True)
            (Persists (.process (.message body receivedAt)) feed s) s :=
        fun reason => ⟨trivial, persists_of_failure rfl fun _ => rfl⟩
      unfold FeedCall.program nextValidatedEvent
      dsimp only
      split
      · exact h_drop _
      · rename_i candle h_candle
        split
        · exact h_drop _
        · refine record_persists ?_
          unfold FeedCall.target
          dsimp only
          rw [h_candle]
          rfl

/-- After a transition that returned normally the row holds the state of the feed exactly when
    the call had to write it or found it recorded. -/
theorem transition_persists_iff
    (h_run : (call.program sha256 feed).ExecutesWhere handle stops loses s
      (some (.ok (feed', processed))) t) (h : call.transitions processed = true) :
    InSync feed' t ↔ call.FindsItRecorded feed s :=
  ((FeedCall.program_persists.executes h_run).2 _ rfl).1 h

end Call

/-! ## Every run -/

/-- The session's tables and the handle of its feed. -/
structure Feeding where
  store : FeedStore
  feed : FeedHandle
  /-- A transition that returned normally moved the feed to the state it is in. -/
  confirmed : Bool

/-- What is known of the state after a call. -/
def Feeding.confirmedAfter (s : Feeding) (call : FeedCall) (feed' : FeedHandle)
    (processed : Processed) : Bool :=
  call.transitions processed || (s.confirmed && feed'.feedState == s.feed.feedState)

/-- One call, where `P` allows it.  Any of its statements may fail before its effect or lose its
    answer after it, and a call that raises leaves its handle as it had changed it. -/
inductive FeedingStep (sha256 : String → String) (P : FeedCall → Feeding → Prop) :
    Feeding → Feeding → Prop
  | called {s : Feeding} {t : FeedStore} {feed' : FeedHandle} {processed : Processed}
      (call : FeedCall) (h : P call s)
      (h_run : (call.program sha256 s.feed).Executes handle (fun _ _ => True) s.store
        (some (.ok (feed', processed))) t) :
      FeedingStep sha256 P s ⟨t, feed', s.confirmedAfter call feed' processed⟩

/-- A transition to the state the feed is in finds it recorded. -/
def FindsItRecorded (call : FeedCall) (s : Feeding) : Prop := call.FindsItRecorded s.feed s.store

/-- The row holds the state of the feed wherever a transition confirmed it. -/
def Follows (s : Feeding) : Prop := s.confirmed = true → InSync s.feed s.store

theorem Follows.step {sha256 : String → String} {s t : Feeding} (h : Follows s)
    (h_step : FeedingStep sha256 FindsItRecorded s t) : Follows t := by
  cases h_step with
  | @called t feed' processed call h_found h_run =>
    intro h_confirmed
    rcases Bool.or_eq_true_iff.mp h_confirmed with h_made | h_before
    · exact (transition_persists_iff h_run h_made).mpr h_found
    · obtain ⟨h_was, h_eq⟩ := Bool.and_eq_true_iff.mp h_before
      have h_same : feed'.feedState = s.feed.feedState := beq_iff_eq.mp h_eq
      have h_row : t.session.feedState = s.store.session.feedState :=
        ((FeedCall.program_persists.executes h_run).2 _ rfl).2 h_same
      show t.session.feedState = some feed'.feedState
      rw [h_row, h_same]
      exact h h_was

theorem InSync.admits_iff {feed : FeedHandle} {s : FeedStore} (h : InSync feed s) :
    Admits s.session ↔ feed.feedState ∈ TRADEABLE_FEED_STATES := by
  rw [Feed.admits_iff, h]
  constructor
  · rintro ⟨state, h_mem, h_state⟩
    rw [Option.some.inj h_state]
    exact h_mem
  · exact fun h_mem => ⟨_, h_mem, rfl⟩

/-- In every run in which each transition to the state that the feed is in finds it recorded:
    where the last transition returned normally, the row holds the state of the feed, and an
    order is admitted on it exactly when the feed is tradeable. -/
theorem persisted_state_follows_feed {sha256 : String → String} {s₀ s : Feeding}
    (h_start : s₀.confirmed = false)
    (h_run : Relation.ReflTransGen (FeedingStep sha256 FindsItRecorded) s₀ s)
    (h_confirmed : s.confirmed = true) :
    s.store.session.feedState = some s.feed.feedState ∧
      (Admits s.store.session ↔ s.feed.feedState ∈ TRADEABLE_FEED_STATES) := by
  have h_follows : Follows s := by
    clear h_confirmed
    induction h_run with
    | refl =>
      intro h
      rw [h_start] at h
      cases h
    | tail _ h_step ih => exact ih.step h_step
  have h_sync : InSync s.feed s.store := h_follows h_confirmed
  exact ⟨h_sync, h_sync.admits_iff⟩

/-! ## A write that fails -/

/-- A freshly opened feed, on the row that a session starts with. -/
def freshlyOpened : Feeding where
  store := ⟨{ marketDataSource := some "mds", feedState := some .pending }, []⟩
  feed := { config := minuteFeed }
  confirmed := false

/-- The call, nothing of which fails. -/
def called (s : Feeding) (call : FeedCall) : Feeding :=
  match (call.program candleDigest s.feed).run handle s.store with
  | (.ok (feed', processed), t) => ⟨t, feed', s.confirmedAfter call feed' processed⟩
  | (.error _, _) => s

theorem called_step {P : FeedCall → Feeding → Prop} {s : Feeding} (call : FeedCall) (h : P call s)
    (h_returns : ((call.program candleDigest s.feed).run handle s.store).1.isOk = true) :
    FeedingStep candleDigest P s (called s call) := by
  have h_run : (call.program candleDigest s.feed).Executes handle (fun _ _ => True) s.store
      (some ((call.program candleDigest s.feed).run handle s.store).1)
      ((call.program candleDigest s.feed).run handle s.store).2 := .run _ _
  unfold called
  revert h_returns h_run
  generalize (call.program candleDigest s.feed).run handle s.store = result
  intro h_returns h_run
  obtain ⟨answer, t⟩ := result
  cases answer with
  | error e => cases h_returns
  | ok answer => exact .called call h h_run

/-- A disconnection whose write fails before it has an effect. -/
def disconnectedUnwritten (s : Feeding) : Feeding where
  store := s.store
  feed := { s.feed with feedState := .degraded }
  confirmed := false

theorem disconnectedUnwritten_step {P : FeedCall → Feeding → Prop} {s : Feeding}
    (h_state : s.feed.feedState ≠ .degraded) (h : P (.process .disconnected) s) :
    FeedingStep candleDigest P s (disconnectedUnwritten s) := by
  have h_run : (FeedCall.program candleDigest (.process .disconnected) s.feed).Executes handle
      (fun _ _ => True) s.store
      (some (.ok ({ s.feed with feedState := .degraded }, .raised .connectionLost))) s.store := by
    unfold FeedCall.program nextValidatedEvent disconnected transitionFeedState
    dsimp only
    rw [if_pos (Or.inl h_state.symm)]
    exact .failed .connectionLost trivial (.ret _ _)
  have h_unconfirmed : s.confirmedAfter (.process .disconnected)
      { s.feed with feedState := .degraded } (.raised .connectionLost) = false := by
    show (false || (s.confirmed && FeedState.degraded == s.feed.feedState)) = false
    rw [beq_eq_false_iff_ne.mpr h_state.symm, Bool.and_false, Bool.or_false]
  have h_step := FeedingStep.called (.process .disconnected) h h_run
  rw [h_unconfirmed] at h_step
  exact h_step

theorem findsItRecorded_of_ne {call : FeedCall} {s : Feeding}
    (h : call.target s.feed ≠ some s.feed.feedState) : FindsItRecorded call s :=
  fun h_eq => absurd h_eq h

/-- The feed is healthy, drops without its row being written, and recovers. -/
def recovered : Feeding :=
  called (disconnectedUnwritten (called freshlyOpened (.process earlierCandle)))
    (.process laterCandle)

theorem persisted_state_follows_feed_sample :
    recovered.store.session.feedState = some recovered.feed.feedState ∧
      (Admits recovered.store.session ↔ recovered.feed.feedState ∈ TRADEABLE_FEED_STATES) := by
  have h_first : FindsItRecorded (.process earlierCandle) freshlyOpened :=
    findsItRecorded_of_ne (by decide +kernel)
  have h_drop : FindsItRecorded (.process .disconnected)
      (called freshlyOpened (.process earlierCandle)) :=
    findsItRecorded_of_ne (by decide +kernel)
  have h_last : FindsItRecorded (.process laterCandle)
      (disconnectedUnwritten (called freshlyOpened (.process earlierCandle))) :=
    findsItRecorded_of_ne (by decide +kernel)
  have h_healthy : (called freshlyOpened (.process earlierCandle)).feed.feedState ≠ .degraded := by
    decide +kernel
  have h_run : Relation.ReflTransGen (FeedingStep candleDigest FindsItRecorded) freshlyOpened
      recovered :=
    .tail (.tail (.tail .refl (called_step _ h_first (by decide +kernel)))
      (disconnectedUnwritten_step h_healthy h_drop)) (called_step _ h_last (by decide +kernel))
  exact persisted_state_follows_feed rfl h_run (by decide +kernel)

/-- The feed is healthy, drops without its row being written, and is marked degraded once more. -/
def markedTwice : Feeding :=
  called (disconnectedUnwritten (called freshlyOpened (.process earlierCandle))) .markDegraded

/-- The second call returns normally.  The feed is degraded, and the row still admits orders. -/
theorem degraded_feed_still_admits :
    Relation.ReflTransGen (FeedingStep candleDigest fun _ _ => True) freshlyOpened markedTwice ∧
      markedTwice.confirmed = true ∧ markedTwice.feed.feedState = .degraded ∧
      markedTwice.store.session.feedState = some .healthy ∧ Admits markedTwice.store.session := by
  have h_healthy : (called freshlyOpened (.process earlierCandle)).feed.feedState ≠ .degraded := by
    decide +kernel
  have h_run : Relation.ReflTransGen (FeedingStep candleDigest fun _ _ => True) freshlyOpened
      markedTwice :=
    .tail (.tail (.tail .refl (called_step _ trivial (by decide +kernel)))
      (disconnectedUnwritten_step h_healthy trivial)) (called_step _ trivial (by decide +kernel))
  have h_row : markedTwice.store.session.feedState = some .healthy := by decide +kernel
  have h_admits : Admits markedTwice.store.session :=
    admits_iff.mpr ⟨.healthy, List.mem_singleton_self _, h_row⟩
  exact ⟨h_run, by decide +kernel, by decide +kernel, h_row, h_admits⟩

end VyomQuant.Paper.Feed
