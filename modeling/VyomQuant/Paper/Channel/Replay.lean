/-
  VyomQuant.Paper.Channel.Replay

  The replay of `paper_channel.py` over the `paper_events` log of one session: what a
  client that holds the events up to `last_sequence` is sent, or the answer that its
  history cannot be reconciled.

  `replay_noSilentGap_iff` says for which logs the answer has no silent gap.  The
  completeness test looks at the first row read and at an empty reading only, so a
  number that is missing further up is passed over.
-/

import Mathlib.Data.List.Sort
import VyomQuant.Lib.SequenceLog
import VyomQuant.Paper.Accounting.Types

namespace VyomQuant.Paper.Channel

open Except
open Accounting (Instant)

/-! ## Rows and frames -/

/-- What a session id has to be to name a channel: `[A-Za-z0-9_-]{1,64}`. -/
def isResourceId (text : String) : Bool :=
  decide (1 ≤ text.length) && decide (text.length ≤ 64) &&
    text.toList.all fun c => c.isAlphanum || c == '_' || c == '-'

/-- A session id that `PAPER_FAMILY.channel` routes. -/
structure SessionId where
  text : String
  isResourceId : isResourceId text = true
deriving DecidableEq

/-- The sixteen event types. -/
inductive PaperEvent where
  | sessionStarted | sessionPaused | sessionResumed | sessionStopped
  | marketTick | signalGenerated
  | orderCreated | orderAccepted | orderPartiallyFilled | orderFilled | orderRejected
  | positionUpdated | balanceUpdated | pnlUpdated | drawdownUpdated
  | error

inductive PayloadValue where
  | text (value : String)
  | flag (value : Bool)
  | instant (value : Instant)
  | json (value : String)

/-- A JSONB value; only whether it is a mapping is looked at. -/
inductive Payload where
  | mapping (fields : List (String × PayloadValue))
  | notMapping (value : String)

/-- One row of `paper_events`, with its table constraints and what `insert_session_event`
    and its two callers check before they write one. -/
structure PaperEventRow where
  sessionId : SessionId
  userId : String
  sequence : ℕ
  eventId : String
  eventType : PaperEvent
  schemaVersion : String
  payload : Payload
  emittedAt : Instant
  sequence_pos : 1 ≤ sequence
  eventId_ne : eventId ≠ ""
  schemaVersion_ne : schemaVersion ≠ ""
  payload_mapping : ∃ fields, payload = .mapping fields

/-- The columns of `paper_sessions` the channel reads. -/
structure SessionCounter where
  id : SessionId
  userId : String
  eventSequence : ℤ
deriving DecidableEq

/-- The two tables of the channel, with `uq_paper_event_seq`. -/
structure ChannelStore where
  sessions : List SessionCounter
  events : List PaperEventRow
  uqPaperEventSeq : (events.map fun row => (row.sessionId, row.sequence)).Nodup

/-- `PaperEventEnvelope.frame`. -/
structure Frame where
  schemaVersion : String
  channel : String
  sessionId : SessionId
  type : PaperEvent
  sequence : ℤ
  eventId : String
  emittedAt : Instant
  payload : Payload

inductive ChannelError where
  | permissionError
  | valueError (what : String)
  | validationError (field : String)

def paperChannel (sessionId : SessionId) : String := "paper." ++ sessionId.text

/-- The field constraints of `PaperEventEnvelope`, and the frame. -/
def envelope (frame : Frame) : Except ChannelError Frame := do
  refuseIf (frame.schemaVersion = "") (.validationError "schema_version")
  refuseIf (frame.sequence < 1) (.validationError "sequence")
  refuseIf (frame.eventId = "") (.validationError "event_id")
  return frame

/-- One stored row as the frame a subscriber receives. -/
def frameFromRow (row : PaperEventRow) : Except ChannelError Frame :=
  match row.payload with
  | .notMapping _ => .error (.valueError "payload")
  | .mapping fields => envelope {
      schemaVersion := row.schemaVersion
      channel := paperChannel row.sessionId
      sessionId := row.sessionId
      type := row.eventType
      sequence := row.sequence
      eventId := row.eventId
      emittedAt := row.emittedAt
      payload := .mapping fields }

def PAPER_EVENT_SCHEMA_VERSION : String := "paper.v1"

/-- What `new_event_id` and `utc_now` give a frame that is built on the spot. -/
structure Fresh where
  eventId : String
  now : Instant
  eventId_ne : eventId ≠ ""

def errorFrame (sessionId : SessionId) (code message : String) (recoverable : Bool)
    (sequence : ℤ) (fresh : Fresh) : Except ChannelError Frame :=
  envelope {
    schemaVersion := PAPER_EVENT_SCHEMA_VERSION
    channel := paperChannel sessionId
    sessionId
    type := .error
    sequence := max sequence 1
    eventId := fresh.eventId
    emittedAt := fresh.now
    payload := .mapping [("code", .text code), ("message", .text message),
      ("recoverable", .flag recoverable), ("at", .instant fresh.now)] }

/-! ## Reads -/

/-- `authenticated_identity`: an empty identity is none. -/
def authenticatedIdentity : Option String → Option String
  | some identity => if identity = "" then none else some identity
  | none => none

def readSession (store : ChannelStore) (userId : String) (sessionId : SessionId) :
    Option SessionCounter :=
  store.sessions.find? fun row => row.userId = userId ∧ row.id = sessionId

def SESSION_EVENT_REPLAY_CAP : ℕ := 5000

def REPLAY_ROW_CAP : ℕ := SESSION_EVENT_REPLAY_CAP

/-- The rows of the session above `floor`. -/
def above (userId : String) (sessionId : SessionId) (floor : ℤ) (row : PaperEventRow) : Bool :=
  decide (row.userId = userId ∧ row.sessionId = sessionId ∧ floor < row.sequence)

/-- `ORDER BY sequence ASC`. -/
def bySequence (rows : List PaperEventRow) : List PaperEventRow :=
  rows.mergeSort fun a b => decide (a.sequence ≤ b.sequence)

/-- `read_session_events`: the predicates, the order and the cap stand in the statement,
    and once more over what it returned. -/
def readSessionEvents (store : ChannelStore) (userId : String) (sessionId : SessionId)
    (afterSequence : ℤ) (limit : Option ℤ) : Except ChannelError (List PaperEventRow) := do
  refuseIf (userId = "") (.valueError "user_id")
  refuseIf (afterSequence < 0) (.valueError "after_sequence")
  let cap := limit.getD SESSION_EVENT_REPLAY_CAP
  refuseIf (cap < 1) (.valueError "limit")
  let cap := min cap.toNat SESSION_EVENT_REPLAY_CAP
  let rows := (bySequence (store.events.filter (above userId sessionId afterSequence))).take cap
  return (bySequence (rows.filter (above userId sessionId afterSequence))).take cap

/-! ## The replay -/

/-- What a replay request produced; a gap replays nothing partial. -/
structure ReplayOutcome where
  frames : List Frame
  currentSequence : ℤ
  truncated : Bool := false
  historyIncomplete : Bool := false
  errorFrame : Option Frame := none
  nothing_partial : historyIncomplete = true → frames = []

def ERROR_HISTORY_INCOMPLETE : String := "HISTORY_INCOMPLETE"

def HISTORY_INCOMPLETE_MESSAGE : String :=
  "The event history you asked to resume from is no longer complete. Reload the session state " ++
    "from the Paper Trading API; new events continue from the current sequence number."

/-- `_gap`. -/
def gap (sessionId : SessionId) (current : ℤ) (fresh : Fresh) :
    Except ChannelError ReplayOutcome := do
  let frame ← errorFrame sessionId ERROR_HISTORY_INCOMPLETE HISTORY_INCOMPLETE_MESSAGE false
    current fresh
  return {
    frames := []
    currentSequence := current
    historyIncomplete := true
    errorFrame := some frame
    nothing_partial := fun _ => rfl }

/-- What is sent for the rows that were read. -/
def answer (sessionId : SessionId) (floor current : ℤ) (fresh : Fresh) :
    List PaperEventRow → Except ChannelError ReplayOutcome
  | [] =>
    if floor < current then gap sessionId current fresh
    else return { frames := [], currentSequence := current, nothing_partial := fun _ => rfl }
  | first :: rest =>
    if floor + 1 < first.sequence then gap sessionId current fresh
    else do
      let rows := first :: rest
      let frames ← rows.mapM frameFromRow
      let highest := (rows.getLast (List.cons_ne_nil first rest)).sequence
      return {
        frames
        currentSequence := current
        truncated := decide (REPLAY_ROW_CAP ≤ rows.length ∧ (highest : ℤ) < current)
        historyIncomplete := false
        nothing_partial := fun h => absurd h Bool.false_ne_true }

/-- The replay once the identity of the user is known. -/
def replayFor (store : ChannelStore) (sessionId : SessionId) (identity : String) (floor : ℤ)
    (fresh : Fresh) : Except ChannelError ReplayOutcome :=
  match readSession store identity sessionId with
  | none => gap sessionId 0 fresh
  | some session =>
    if floor < 0 ∨ session.eventSequence < floor then
      gap sessionId session.eventSequence fresh
    else do
      let rows ← readSessionEvents store identity sessionId floor none
      answer sessionId floor session.eventSequence fresh rows

/-- `PaperChannelRegistry.replay`; `user` is the identity of the authenticated user. -/
def replay (store : ChannelStore) (sessionId : SessionId) (user : Option String)
    (lastSequence : Option ℤ) (fresh : Fresh) : Except ChannelError ReplayOutcome := do
  let identity ← ofOption .permissionError (authenticatedIdentity user)
  replayFor store sessionId identity (lastSequence.getD 0) fresh

/-! ## What is read

The rows of a session have distinct numbers, so ordering them leaves an increasing log,
and stating the predicates and the cap a second time changes nothing. -/

/-- The numbers of the session's log above `floor`, in order. -/
def sequencesAbove (store : ChannelStore) (userId : String) (sessionId : SessionId)
    (floor : ℤ) : List ℕ :=
  (bySequence (store.events.filter (above userId sessionId floor))).map (·.sequence)

/-- A row of the session with this number is retained. -/
def Retained (store : ChannelStore) (userId : String) (sessionId : SessionId) (n : ℕ) : Prop :=
  ∃ row ∈ store.events, row.userId = userId ∧ row.sessionId = sessionId ∧ row.sequence = n

variable {rows : List PaperEventRow}

theorem mem_bySequence {row : PaperEventRow} :
    row ∈ bySequence rows ↔ row ∈ rows := List.mem_mergeSort

theorem bySequence_sorted (rows : List PaperEventRow) :
    (bySequence rows).Pairwise fun a b => a.sequence ≤ b.sequence := by
  have h : (bySequence rows).Pairwise fun a b => decide (a.sequence ≤ b.sequence) = true :=
    List.pairwise_mergeSort (fun a b c h_ab h_bc => by simp_all; omega)
      (fun a b => by simp; omega) rows
  exact h.imp fun h_le => of_decide_eq_true h_le

theorem bySequence_eq_self (h : rows.Pairwise fun a b => a.sequence ≤ b.sequence) :
    bySequence rows = rows :=
  List.mergeSort_of_pairwise (h.imp fun h_le => decide_eq_true h_le)

variable {store : ChannelStore} {userId : String} {sessionId : SessionId} {floor : ℤ}

theorem mem_sequencesAbove {n : ℕ} :
    n ∈ sequencesAbove store userId sessionId floor ↔
      Retained store userId sessionId n ∧ floor < n := by
  simp only [sequencesAbove, List.mem_map, mem_bySequence, List.mem_filter, above,
    decide_eq_true_eq, Retained]
  constructor
  · rintro ⟨row, ⟨h_mem, h_user, h_session, h_lt⟩, rfl⟩
    exact ⟨⟨row, h_mem, h_user, h_session, rfl⟩, h_lt⟩
  · rintro ⟨⟨row, h_mem, h_user, h_session, rfl⟩, h_lt⟩
    exact ⟨row, ⟨h_mem, h_user, h_session, h_lt⟩, rfl⟩

theorem sequencesAbove_nodup : (sequencesAbove store userId sessionId floor).Nodup := by
  have h_rows : (store.events.filter (above userId sessionId floor)).Pairwise
      fun a b => a.sequence ≠ b.sequence := by
    have h := List.pairwise_map.mp store.uqPaperEventSeq
    refine List.Pairwise.imp_of_mem ?_ (h.sublist List.filter_sublist)
    intro a b h_a h_b h_ne h_eq
    -- Both rows are of this session, so the table tells their numbers apart.
    have h_sa := (of_decide_eq_true (List.mem_filter.mp h_a).2).2.1
    have h_sb := (of_decide_eq_true (List.mem_filter.mp h_b).2).2.1
    exact h_ne (by rw [h_sa, h_sb, h_eq])
  have h_sorted : (bySequence (store.events.filter (above userId sessionId floor))).Pairwise
      fun a b => a.sequence ≠ b.sequence :=
    (List.mergeSort_perm _ _).symm.pairwise h_rows fun h_ne h_eq => h_ne h_eq.symm
  exact List.pairwise_map.mpr h_sorted

theorem sequencesAbove_ascends (h : 0 ≤ floor) :
    SequenceLog.AscendsFrom floor.toNat (sequencesAbove store userId sessionId floor) := by
  constructor
  · have h_le : (sequencesAbove store userId sessionId floor).Pairwise (· ≤ ·) :=
      List.pairwise_map.mpr (bySequence_sorted _)
    exact (h_le.and sequencesAbove_nodup).imp fun ⟨h_le, h_ne⟩ => by omega
  · intro n h_mem
    have h_lt := (mem_sequencesAbove.mp h_mem).2
    omega

theorem readSessionEvents_eq (h_user : userId ≠ "") (h_floor : 0 ≤ floor) :
    ∃ rows, readSessionEvents store userId sessionId floor none = .ok rows ∧
      rows.map (·.sequence)
        = (sequencesAbove store userId sessionId floor).take REPLAY_ROW_CAP := by
  let read := bySequence (store.events.filter (above userId sessionId floor))
  have h_filter : (read.take SESSION_EVENT_REPLAY_CAP).filter (above userId sessionId floor)
      = read.take SESSION_EVENT_REPLAY_CAP := by
    apply List.filter_eq_self.mpr
    intro row h_mem
    exact (List.mem_filter.mp (mem_bySequence.mp (List.mem_of_mem_take h_mem))).2
  have h_order : bySequence (read.take SESSION_EVENT_REPLAY_CAP)
      = read.take SESSION_EVENT_REPLAY_CAP :=
    bySequence_eq_self ((bySequence_sorted _).sublist (List.take_sublist _ _))
  refine ⟨read.take SESSION_EVENT_REPLAY_CAP, ?_, List.map_take⟩
  have h_cap : ¬ ((none : Option ℤ).getD SESSION_EVENT_REPLAY_CAP) < 1 := by
    simp [SESSION_EVENT_REPLAY_CAP]
  have h_min : min ((none : Option ℤ).getD SESSION_EVENT_REPLAY_CAP).toNat SESSION_EVENT_REPLAY_CAP
      = SESSION_EVENT_REPLAY_CAP := by
    simp [SESSION_EVENT_REPLAY_CAP]
  have h_neg : ¬ floor < 0 := by omega
  simp only [readSessionEvents, refuseIf, if_neg h_user, if_neg h_neg, if_neg h_cap, h_min]
  show Except.ok _ = Except.ok _
  rw [show bySequence (List.filter (above userId sessionId floor) store.events) = read from rfl,
    h_filter, h_order, List.take_take, Nat.min_self]

/-! ## What is sent -/

theorem envelope_ok {frame : Frame} (h_version : frame.schemaVersion ≠ "")
    (h_sequence : 1 ≤ frame.sequence) (h_id : frame.eventId ≠ "") :
    envelope frame = .ok frame := by
  have h_not : ¬ frame.sequence < 1 := by omega
  simp only [envelope, refuseIf, if_neg h_version, if_neg h_not, if_neg h_id]
  rfl

theorem frameFromRow_ok (row : PaperEventRow) :
    ∃ frame, frameFromRow row = .ok frame ∧ frame.sequence = row.sequence := by
  obtain ⟨fields, h_fields⟩ := row.payload_mapping
  have h_pos := row.sequence_pos
  simp only [frameFromRow, h_fields]
  refine ⟨_, envelope_ok row.schemaVersion_ne ?_ row.eventId_ne, rfl⟩
  show 1 ≤ (row.sequence : ℤ)
  omega

theorem mapM_frameFromRow (rows : List PaperEventRow) :
    ∃ frames, rows.mapM frameFromRow = .ok frames ∧
      frames.map (·.sequence) = (rows.map (·.sequence)).map Int.ofNat := by
  induction rows with
  | nil => exact ⟨[], rfl, rfl⟩
  | cons row rest ih =>
    obtain ⟨frame, h_frame, h_sequence⟩ := frameFromRow_ok row
    obtain ⟨frames, h_frames, h_sequences⟩ := ih
    refine ⟨frame :: frames, ?_, ?_⟩
    · rw [List.mapM_cons, h_frame, h_frames]
      rfl
    · rw [List.map_cons, List.map_cons, List.map_cons, h_sequence, h_sequences]
      rfl

/-- The answer that nothing can be replayed. -/
def ReplayOutcome.IsHistoryIncomplete (outcome : ReplayOutcome) : Prop :=
  outcome.historyIncomplete = true ∧ outcome.frames = [] ∧
    ∃ frame fields, outcome.errorFrame = some frame ∧ frame.type = .error ∧
      frame.payload = .mapping fields ∧ ("code", .text ERROR_HISTORY_INCOMPLETE) ∈ fields

/-- The frames run from `floor + 1` without a hole, to `current` unless the outcome is
    marked truncated. -/
def ReplayOutcome.RunsFrom (floor current : ℤ) (outcome : ReplayOutcome) : Prop :=
  outcome.historyIncomplete = false ∧
    ∃ m : ℕ, outcome.frames.map (·.sequence) = (List.range m).map (fun i : ℕ => floor + 1 + i) ∧
      (outcome.truncated = false → floor + m = current)

/-- No silent gap: the history is reported incomplete, or all of it is sent. -/
def ReplayOutcome.NoSilentGap (floor current : ℤ) (outcome : ReplayOutcome) : Prop :=
  outcome.IsHistoryIncomplete ∨ outcome.RunsFrom floor current

theorem gap_ok (sessionId : SessionId) (current : ℤ) (fresh : Fresh) :
    ∃ outcome, gap sessionId current fresh = .ok outcome ∧ outcome.IsHistoryIncomplete := by
  have h_frame : errorFrame sessionId ERROR_HISTORY_INCOMPLETE HISTORY_INCOMPLETE_MESSAGE false
      current fresh = .ok _ :=
    envelope_ok (by show PAPER_EVENT_SCHEMA_VERSION ≠ ""; decide)
      (by show 1 ≤ max current 1; omega) fresh.eventId_ne
  unfold gap
  rw [h_frame]
  exact ⟨_, rfl, rfl, rfl, _, _, rfl, rfl, rfl, List.mem_cons_self⟩

/-! ## Where the replay has no silent gap -/

/-- The number after the client's is missing, and the counter or the log goes on past it. -/
def NextMissing (store : ChannelStore) (userId : String) (sessionId : SessionId)
    (floor current : ℤ) : Prop :=
  ¬ Retained store userId sessionId (floor.toNat + 1) ∧
    (floor < current ∨ ∃ n : ℕ, Retained store userId sessionId n ∧ floor < n)

/-- Every number of one reading is retained, and none past the counter inside it. -/
def WindowRetained (store : ChannelStore) (userId : String) (sessionId : SessionId)
    (floor current : ℤ) : Prop :=
  (∀ n : ℕ, floor < n → n ≤ current → n ≤ floor + REPLAY_ROW_CAP →
      Retained store userId sessionId n) ∧
    (current < floor + REPLAY_ROW_CAP →
      ∀ n : ℕ, Retained store userId sessionId n → floor < n → n ≤ current)

/-- The positions and logs a replay answers without a silent gap. -/
def Reconcilable (store : ChannelStore) (userId : String) (sessionId : SessionId)
    (floor : ℤ) : Prop :=
  ∀ session, readSession store userId sessionId = some session →
    floor < 0 ∨ session.eventSequence < floor ∨
      NextMissing store userId sessionId floor session.eventSequence ∨
      WindowRetained store userId sessionId floor session.eventSequence

variable {current : ℤ}

theorem windowRetained_iff (h_floor : 0 ≤ floor) (h_current : floor ≤ current) :
    WindowRetained store userId sessionId floor current ↔
      SequenceLog.HoldsWindow floor.toNat current.toNat REPLAY_ROW_CAP
        (sequencesAbove store userId sessionId floor) := by
  refine and_congr ⟨fun h n h_lt h_le h_cap => ?_, fun h n h_lt h_le h_cap => ?_⟩
    ⟨fun h h_inside n h_mem => ?_, fun h h_inside n h_mem h_lt => ?_⟩
  · exact mem_sequencesAbove.mpr ⟨h n (by omega) (by omega) (by omega), by omega⟩
  · exact (mem_sequencesAbove.mp (h n (by omega) (by omega) (by omega))).1
  · obtain ⟨h_retained, h_lt⟩ := mem_sequencesAbove.mp h_mem
    have h_le := h (by omega) n h_retained h_lt
    omega
  · have h_le := h (by omega) n (mem_sequencesAbove.mpr ⟨h_mem, h_lt⟩)
    omega

theorem answer_nil (fresh : Fresh) (h_floor : 0 ≤ floor) (h_current : floor ≤ current)
    (h_read : sequencesAbove store userId sessionId floor = []) :
    ∃ outcome, answer sessionId floor current fresh [] = .ok outcome ∧
      (outcome.NoSilentGap floor current ↔
        NextMissing store userId sessionId floor current ∨
          WindowRetained store userId sessionId floor current) := by
  have h_none : ∀ n : ℕ, Retained store userId sessionId n → ¬ floor < n := by
    intro n h_retained h_lt
    have h_mem := mem_sequencesAbove.mpr ⟨h_retained, h_lt⟩
    rw [h_read] at h_mem
    exact List.not_mem_nil h_mem
  unfold answer
  by_cases h_lt : floor < current
  · obtain ⟨outcome, h_gap, h_incomplete⟩ := gap_ok sessionId current fresh
    rw [if_pos h_lt]
    refine ⟨outcome, h_gap, iff_of_true (Or.inl h_incomplete) (Or.inl ⟨fun h_next => ?_, Or.inl h_lt⟩)⟩
    exact h_none _ h_next (by omega)
  · rw [if_neg h_lt]
    refine ⟨_, rfl, iff_of_true (Or.inr ⟨rfl, 0, rfl, fun _ => ?_⟩) (Or.inr ⟨?_, ?_⟩)⟩
    · show floor + (0 : ℕ) = current
      omega
    · intro n h_above h_below
      omega
    · intro _ n h_retained h_above
      exact absurd h_above (h_none n h_retained)

theorem map_ofNat_eq_iff {t : List ℕ} {m : ℕ} (h_floor : 0 ≤ floor) :
    t.map Int.ofNat = (List.range m).map (fun i : ℕ => floor + 1 + i) ↔
      t = List.range' (floor.toNat + 1) m := by
  have h_range : (List.range m).map (fun i : ℕ => floor + 1 + i)
      = (List.range' (floor.toNat + 1) m).map Int.ofNat := by
    rw [List.range'_eq_map_range, List.map_map]
    apply List.map_congr_left
    intro i _
    show floor + 1 + (i : ℤ) = ((floor.toNat + 1 + i : ℕ) : ℤ)
    omega
  rw [h_range]
  exact (List.map_injective_iff.mpr fun _ _ h => Int.ofNat.inj h).eq_iff

theorem runsFrom_iff {frames : List Frame} (h_floor : 0 ≤ floor) (h_current : floor ≤ current)
    (h_ne : rows ≠ [])
    (h_rows : rows.map (·.sequence) = (sequencesAbove store userId sessionId floor).take REPLAY_ROW_CAP)
    (h_frames : frames.map (·.sequence) = (rows.map (·.sequence)).map Int.ofNat)
    {outcome : ReplayOutcome} (h_sent : outcome.frames = frames)
    (h_complete : outcome.historyIncomplete = false)
    (h_truncated : outcome.truncated = decide (REPLAY_ROW_CAP ≤ rows.length ∧ ((rows.getLast h_ne).sequence : ℤ) < current)) :
    outcome.RunsFrom floor current ↔ WindowRetained store userId sessionId floor current := by
  rw [windowRetained_iff h_floor h_current,
    ← SequenceLog.take_without_gap_iff (sequencesAbove_ascends h_floor) (by omega),
    ReplayOutcome.RunsFrom, h_sent, h_frames, h_rows]
  simp only [h_complete, true_and, map_ofNat_eq_iff h_floor, h_truncated]
  refine exists_congr fun m => and_congr_right fun h_take => ?_
  -- In a run of `m` numbers the last one read is `floor + m`.
  rw [h_take] at h_rows
  have h_length : rows.length = m := by
    rw [← List.length_map (f := (·.sequence)), h_rows, List.length_range']
  have h_last : (rows.getLast h_ne).sequence = floor.toNat + m := by
    have h_map : rows.map PaperEventRow.sequence ≠ [] := fun h => h_ne (List.map_eq_nil_iff.mp h)
    have h_get : (rows.map PaperEventRow.sequence).getLast h_map = (rows.getLast h_ne).sequence :=
      List.getLast_map h_map
    have h_pos : 0 < m := by
      rw [← h_length]
      exact List.length_pos_iff.mpr h_ne
    rw [← h_get]
    simp only [h_rows, List.getLast_range']
    omega
  rw [h_last, h_length, decide_eq_false_iff_not]
  omega

theorem answer_cons {first : PaperEventRow} {rest : List PaperEventRow} (fresh : Fresh)
    (h_floor : 0 ≤ floor) (h_current : floor ≤ current)
    (h_rows : (first :: rest).map (·.sequence) = (sequencesAbove store userId sessionId floor).take REPLAY_ROW_CAP) :
    ∃ outcome, answer sessionId floor current fresh (first :: rest) = .ok outcome ∧
      (outcome.NoSilentGap floor current ↔
        NextMissing store userId sessionId floor current ∨
          WindowRetained store userId sessionId floor current) := by
  have h_ascends : SequenceLog.AscendsFrom floor.toNat (sequencesAbove store userId sessionId floor) :=
    sequencesAbove_ascends h_floor
  obtain ⟨tail, h_log⟩ : ∃ tail,
      sequencesAbove store userId sessionId floor = first.sequence :: tail := by
    cases h_log : sequencesAbove store userId sessionId floor with
    | nil =>
      rw [h_log, List.take_nil] at h_rows
      cases h_rows
    | cons n tail =>
      rw [h_log, REPLAY_ROW_CAP, SESSION_EVENT_REPLAY_CAP, List.take_succ_cons] at h_rows
      have h_head : first.sequence = n := (List.cons.inj h_rows).1
      exact ⟨tail, by rw [h_head]⟩
  have h_first := mem_sequencesAbove.mp (h_log ▸ List.mem_cons_self)
  have h_least : ∀ n : ℕ, Retained store userId sessionId n → floor < n → first.sequence ≤ n := by
    intro n h_retained h_lt
    rw [h_log] at h_ascends
    have h_mem := mem_sequencesAbove.mpr ⟨h_retained, h_lt⟩
    rw [h_log] at h_mem
    rcases List.mem_cons.mp h_mem with h_eq | h_tail
    · omega
    · have h_above := h_ascends.tail.2 n h_tail
      omega
  by_cases h_gap : floor + 1 < first.sequence
  · obtain ⟨outcome, h_eq, h_incomplete⟩ := gap_ok sessionId current fresh
    refine ⟨outcome, (if_pos h_gap).trans h_eq,
      iff_of_true (Or.inl h_incomplete) (Or.inl ⟨fun h_next => ?_, ?_⟩)⟩
    · have h_le := h_least _ h_next (by omega)
      omega
    · exact Or.inr ⟨first.sequence, h_first⟩
  · have h_next : first.sequence = floor.toNat + 1 := by
      have h_lt := h_first.2
      omega
    have h_not_missing : ¬ NextMissing store userId sessionId floor current := fun h =>
      h.1 (h_next ▸ h_first.1)
    obtain ⟨frames, h_frames, h_sequences⟩ := mapM_frameFromRow (first :: rest)
    have h_answer : answer sessionId floor current fresh (first :: rest)
        = (List.mapM frameFromRow (first :: rest) >>= fun frames => _) := if_neg h_gap
    rw [h_answer, h_frames]
    refine ⟨_, rfl, ?_⟩
    rw [or_iff_right h_not_missing]
    refine (or_iff_right fun h => ?_).trans (runsFrom_iff h_floor h_current
      (List.cons_ne_nil first rest) h_rows h_sequences rfl rfl rfl)
    exact Bool.false_ne_true h.1

/-- The counter of the session, 0 where none is readable. -/
def counter (store : ChannelStore) (userId : String) (sessionId : SessionId) : ℤ :=
  match readSession store userId sessionId with
  | some session => session.eventSequence
  | none => 0

theorem replayFor_noSilentGap_iff (store : ChannelStore) (sessionId : SessionId)
    {identity : String} (h_identity : identity ≠ "") (floor : ℤ)
    (fresh : Fresh) :
    ∃ outcome, replayFor store sessionId identity floor fresh = .ok outcome ∧
      (outcome.NoSilentGap floor (counter store identity sessionId) ↔
        Reconcilable store identity sessionId floor) := by
  unfold replayFor counter Reconcilable
  cases readSession store identity sessionId with
  | none =>
    obtain ⟨outcome, h_gap, h_incomplete⟩ := gap_ok sessionId 0 fresh
    exact ⟨outcome, h_gap, iff_of_true (Or.inl h_incomplete) fun session h_eq => by cases h_eq⟩
  | some session =>
    simp only [Option.some.injEq, forall_eq']
    by_cases h_position : floor < 0 ∨ session.eventSequence < floor
    · obtain ⟨outcome, h_gap, h_incomplete⟩ := gap_ok sessionId session.eventSequence fresh
      rw [if_pos h_position, ← or_assoc]
      exact ⟨outcome, h_gap, iff_of_true (Or.inl h_incomplete) (Or.inl h_position)⟩
    · have h_floor : 0 ≤ floor := by omega
      have h_current : floor ≤ session.eventSequence := by omega
      obtain ⟨rows, h_read, h_rows⟩ := readSessionEvents_eq h_identity h_floor
      rw [if_neg h_position, ← or_assoc, or_iff_right h_position, h_read]
      cases rows with
      | nil =>
        have h_empty : sequencesAbove store identity sessionId floor = [] := by
          rcases List.take_eq_nil_iff.mp h_rows.symm with h_cap | h_nil
          · cases h_cap
          · exact h_nil
        exact answer_nil fresh h_floor h_current h_empty
      | cons first rest => exact answer_cons fresh h_floor h_current h_rows

/-- The replay has no silent gap exactly where the position and the log are reconcilable. -/
theorem replay_noSilentGap_iff (store : ChannelStore) (sessionId : SessionId) {user : Option String}
    {identity : String} (h_user : authenticatedIdentity user = some identity)
    (lastSequence : Option ℤ) (fresh : Fresh) :
    ∃ outcome, replay store sessionId user lastSequence fresh = .ok outcome ∧
      (outcome.NoSilentGap (lastSequence.getD 0) (counter store identity sessionId) ↔
        Reconcilable store identity sessionId (lastSequence.getD 0)) := by
  have h_identity : identity ≠ "" := by
    cases user with
    | none => cases h_user
    | some text =>
      rw [authenticatedIdentity] at h_user
      split at h_user
      · cases h_user
      · rename_i h_ne
        cases h_user
        exact h_ne
  unfold replay
  rw [h_user]
  exact replayFor_noSilentGap_iff store sessionId h_identity _ fresh

/-! Three numbers were allocated, and the process died before it inserted the row of the
second: the rows 1 and 3 are replayed as if nothing were between them. -/

def sampleSession : SessionId := ⟨"session-1", by decide⟩

def sampleRow (sequence : ℕ) (h : 1 ≤ sequence) : PaperEventRow where
  sessionId := sampleSession
  userId := "user-1"
  sequence
  eventId := "event"
  eventType := .marketTick
  schemaVersion := PAPER_EVENT_SCHEMA_VERSION
  payload := .mapping []
  emittedAt := 0
  sequence_pos := h
  eventId_ne := by decide
  schemaVersion_ne := by decide
  payload_mapping := ⟨[], rfl⟩

def holedStore : ChannelStore where
  sessions := [⟨sampleSession, "user-1", 3⟩]
  events := [sampleRow 1 (Nat.le_add_left 1 0), sampleRow 3 (Nat.le_add_left 1 2)]
  uqPaperEventSeq := by decide

def wholeStore : ChannelStore where
  sessions := [⟨sampleSession, "user-1", 2⟩]
  events := [sampleRow 1 (Nat.le_add_left 1 0), sampleRow 2 (Nat.le_add_left 1 1)]
  uqPaperEventSeq := by decide

def sampleFresh : Fresh := ⟨"fresh-event", 0, by decide⟩

theorem replay_passes_over_a_hole :
    ∃ outcome, replay holedStore sampleSession (some "user-1") (some 0) sampleFresh = .ok outcome ∧
      ¬ outcome.NoSilentGap 0 (counter holedStore "user-1" sampleSession) := by
  obtain ⟨outcome, h_replay, h_iff⟩ := replayFor_noSilentGap_iff holedStore sampleSession
    (show "user-1" ≠ "" by decide) 0 sampleFresh
  refine ⟨outcome, h_replay, fun h => ?_⟩
  rcases h_iff.mp h ⟨sampleSession, "user-1", 3⟩ (by decide) with h_neg | h_above | h_next | h_window
  · exact absurd h_neg (by decide)
  · exact absurd h_above (by decide)
  · exact h_next.1 ⟨sampleRow 1 (Nat.le_add_left 1 0), by simp [holedStore], rfl, rfl, rfl⟩
  · obtain ⟨row, h_mem, -, -, h_two⟩ := h_window.1 2 (by decide) (by decide) (by decide)
    simp only [holedStore, List.mem_cons, List.not_mem_nil, or_false] at h_mem
    rcases h_mem with rfl | rfl
    · exact absurd h_two (by decide)
    · exact absurd h_two (by decide)

theorem replay_noSilentGap_of_whole_log :
    ∃ outcome, replay wholeStore sampleSession (some "user-1") (some 0) sampleFresh = .ok outcome ∧
      outcome.NoSilentGap 0 (counter wholeStore "user-1" sampleSession) := by
  obtain ⟨outcome, h_replay, h_iff⟩ :=
    replay_noSilentGap_iff wholeStore sampleSession
      (show authenticatedIdentity (some "user-1") = some "user-1" from rfl) (some 0) sampleFresh
  refine ⟨outcome, h_replay, h_iff.mpr fun session h_session => Or.inr (Or.inr (Or.inr ?_))⟩
  have h_two : session = ⟨sampleSession, "user-1", 2⟩ := by
    have h_found : readSession wholeStore "user-1" sampleSession
        = some ⟨sampleSession, "user-1", 2⟩ := by decide
    exact Option.some.inj (h_session.symm.trans h_found)
  subst h_two
  refine ⟨fun n (h_lt : 0 < (n : ℤ)) (h_le : (n : ℤ) ≤ 2) _ => ?_, fun _ n h_retained _ => ?_⟩
  · have h_cases : n = 1 ∨ n = 2 := by omega
    rcases h_cases with rfl | rfl
    · exact ⟨sampleRow 1 (Nat.le_add_left 1 0), by simp [wholeStore], rfl, rfl, rfl⟩
    · exact ⟨sampleRow 2 (Nat.le_add_left 1 1), by simp [wholeStore], rfl, rfl, rfl⟩
  · obtain ⟨row, h_mem, -, -, rfl⟩ := h_retained
    simp only [wholeStore, List.mem_cons, List.not_mem_nil, or_false] at h_mem
    rcases h_mem with rfl | rfl
    · show (1 : ℤ) ≤ 2
      omega
    · show (2 : ℤ) ≤ 2
      omega

end VyomQuant.Paper.Channel
