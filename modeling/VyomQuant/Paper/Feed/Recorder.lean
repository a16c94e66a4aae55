/-
  VyomQuant.Paper.Feed.Recorder

  `paper_market_feed.py`: `open_feed`, `next_validated_event` and the handle between them,
  over the session row and the recorded market events of one session.

  Of what orders and de-duplicates the log, the sequence is read back from the log when a
  feed is opened and identities are unique in the database, but the last timestamp of each
  symbol lives in the handle only.  `recorded_log_survives_restarts` therefore asks of the
  first event of a freshly opened feed what the handle asks of every later one.
-/

import VyomQuant.Lib.Crashes
import VyomQuant.Paper.Feed.Candle

namespace VyomQuant.Paper.Feed

open Accounting (Instant)
open Program

/-! ## Tables -/

inductive FeedState where
  | pending
  | healthy
  | fallbackRest
  | transportUnknown
  | degraded
deriving DecidableEq

/-- `FEED_STATE_FOR_TRANSPORT`. -/
def feedStateForTransport : FeedTransport → FeedState
  | .websocket => .healthy
  | .rest => .fallbackRest
  | .unknown => .transportUnknown

/-- `_stored_payload`, its values as exact decimals. -/
structure StoredPayload where
  exchange : String
  symbol : String
  timeframe : String
  timestamp : ℤ
  transport : FeedTransport
  sourceEventId : String
  values : Values

/-- One row of `paper_market_events`. -/
structure MarketEventRow where
  sequence : ℕ
  sourceEventId : String
  symbol : String
  timeframe : String
  eventTimestamp : Instant
  payload : StoredPayload
  receivedAt : Instant
  latencyMs : ℚ

/-- The feed columns of the session row; `update_session_feed` leaves out what is `none`. -/
structure FeedColumns where
  marketDataSource : Option String := none
  feedState : Option FeedState := none
  feedTransport : Option FeedTransport := none

/-- The session's row and its market events, in the order they were inserted. -/
structure FeedStore where
  session : FeedColumns
  marketEvents : List MarketEventRow

inductive FeedError where
  /-- The statement did not complete. -/
  | connectionLost
  /-- `22003`: `latency_ms NUMERIC(10,3)`. -/
  | numericOverflow
  /-- `PaperDuplicateMarketEvent`, from `uq_paper_market_event`. -/
  | duplicateMarketEvent
  /-- `PaperMarketDataUnavailable`. -/
  | marketDataUnavailable
deriving DecidableEq

/-! ## Statements -/

inductive FeedOp where
  | updateSessionFeed (values : FeedColumns)
  | nextMarketEventSequence
  | insertMarketEvent (row : MarketEventRow)

abbrev FeedRes : FeedOp → Type
  | .updateSessionFeed _ => Unit
  | .nextMarketEventSequence => ℕ
  | .insertMarketEvent _ => Unit

def FeedColumns.update (columns values : FeedColumns) : FeedColumns where
  marketDataSource := values.marketDataSource.or columns.marketDataSource
  feedState := values.feedState.or columns.feedState
  feedTransport := values.feedTransport.or columns.feedTransport

/-- `next_market_event_sequence`: one above the highest. -/
def nextMarketEventSequence (marketEvents : List MarketEventRow) : ℕ :=
  (marketEvents.map (·.sequence)).foldl max 0 + 1

/-- `insert_market_event`. -/
def insertMarketEvent (s : FeedStore) (row : MarketEventRow) : Except FeedError FeedStore := do
  Except.refuseIf (10 ^ 7 ≤ |row.latencyMs|) .numericOverflow
  Except.refuseIf (∃ other ∈ s.marketEvents, other.sourceEventId = row.sourceEventId)
    .duplicateMarketEvent
  return { s with marketEvents := s.marketEvents ++ [row] }

def handle : Handler FeedRes FeedError FeedStore
  | .updateSessionFeed values, s => (.ok (), { s with session := s.session.update values })
  | .nextMarketEventSequence, s => (.ok (nextMarketEventSequence s.marketEvents), s)
  | .insertMarketEvent row, s =>
    match insertMarketEvent s row with
    | .ok s' => (.ok (), s')
    | .error e => (.error e, s)

abbrev FeedProgram (α : Type) := Program FeedRes FeedError α

/-! ## The handle -/

def SEEN_EVENT_ID_LIMIT : ℕ := 10000

/-- `FeedHandle`.  The seen identities stand oldest first. -/
structure FeedHandle where
  config : PaperFeedConfig
  feedState : FeedState := .pending
  feedTransport : Option FeedTransport := none
  sequence : ℕ := 0
  reconnectAttempts : ℕ := 0
  seenEventIds : List String := []
  lastTimestamp : String → Option Instant := fun _ => none

namespace FeedHandle

/-- `_remember_seen`: the oldest are evicted beyond the bound. -/
def rememberSeen (feed : FeedHandle) (eventId : String) : FeedHandle :=
  let seen := feed.seenEventIds.filter (fun id => id ≠ eventId) ++ [eventId]
  { feed with seenEventIds := (seen.reverse.take SEEN_EVENT_ID_LIMIT).reverse }

@[simp] theorem rememberSeen_sequence (feed : FeedHandle) (eventId : String) :
    (feed.rememberSeen eventId).sequence = feed.sequence := by simp only [rememberSeen]

@[simp] theorem rememberSeen_lastTimestamp (feed : FeedHandle) (eventId : String) :
    (feed.rememberSeen eventId).lastTimestamp = feed.lastTimestamp := by simp only [rememberSeen]

/-- Step 10 of `next_validated_event`, before the feed state. -/
def moved (feed : FeedHandle) (row : MarketEventRow) : FeedHandle :=
  { feed.rememberSeen row.sourceEventId with
    lastTimestamp := Function.update feed.lastTimestamp feed.config.symbol (some row.eventTimestamp)
    sequence := row.sequence
    reconnectAttempts := 0 }

end FeedHandle

/-- How `next_validated_event` ends; the handle keeps what was done to it when it raises. -/
inductive Processed where
  | event (row : MarketEventRow)
  | dropped (reason : DropReason)
  | raised (e : FeedError)

/-- `_transition_feed_state`: the row is written only when something changed. -/
def transitionFeedState (feed : FeedHandle) (state : FeedState) (transport : Option FeedTransport)
    (next : FeedHandle → FeedProgram (FeedHandle × Processed)) :
    FeedProgram (FeedHandle × Processed) :=
  let stateChanged := state ≠ feed.feedState
  let transportChanged := transport ≠ none ∧ transport ≠ feed.feedTransport
  let feed := { feed with feedState := state, feedTransport := transport.or feed.feedTransport }
  if stateChanged ∨ transportChanged then
    call (.updateSessionFeed {
        feedState := if stateChanged then some state else none
        feedTransport := if transportChanged then feed.feedTransport else none }) fun
      | .ok _ => next feed
      | .error e => ret (feed, .raised e)
  else next feed

/-! ## The feed -/

/-- What the subscription delivers. -/
inductive Message where
  | disconnected
  | message (body : Body) (receivedAt : Instant)

section Feed

variable (sha256 : String → String)

def marketEventRow (feed : FeedHandle) (candle : Candle) (receivedAt : Instant) :
    MarketEventRow where
  sequence := feed.sequence + 1
  sourceEventId := sourceEventId sha256 feed.config candle
  symbol := feed.config.symbol
  timeframe := feed.config.timeframe
  eventTimestamp := candle.eventTimestamp
  payload := {
    exchange := feed.config.normalisedExchangeId
    symbol := feed.config.symbol
    timeframe := feed.config.timeframe
    timestamp := candle.stampMs
    transport := candle.transport
    sourceEventId := sourceEventId sha256 feed.config candle
    values := candle.values }
  receivedAt
  -- Microseconds as milliseconds at three decimals.
  latencyMs := ((receivedAt - candle.eventTimestamp : ℤ) : ℚ) / 1000

/-- Steps 7 and 8: the identities in the cache, and the order of the symbol. -/
def admitEvent (feed : FeedHandle) (row : MarketEventRow) : Except DropReason Unit := do
  Except.refuseIf (row.sourceEventId ∈ feed.seenEventIds) .duplicateLru
  Except.refuseIf (∃ last ∈ feed.lastTimestamp row.symbol, row.eventTimestamp < last) .outOfOrder

/-- Step 1's disconnection: `mark_degraded`, and one attempt to reconnect. -/
def disconnected (feed : FeedHandle) : FeedProgram (FeedHandle × Processed) :=
  transitionFeedState feed .degraded none fun feed =>
    ret ({ feed with reconnectAttempts := feed.reconnectAttempts + 1 }, .dropped .disconnected)

/-- Step 10, and what a refused insert leaves. -/
def recorded (feed : FeedHandle) (row : MarketEventRow) :
    Except FeedError Unit → FeedProgram (FeedHandle × Processed)
  | .ok _ =>
    transitionFeedState (feed.moved row) (feedStateForTransport row.payload.transport)
      (some row.payload.transport) fun feed => ret (feed, .event row)
  | .error e =>
    if e = .duplicateMarketEvent then
      ret (feed.rememberSeen row.sourceEventId, .dropped .duplicateUniqueIndex)
    else ret (feed, .raised e)

/-- Steps 9 and 10. -/
def record (feed : FeedHandle) (row : MarketEventRow) : FeedProgram (FeedHandle × Processed) :=
  call (.insertMarketEvent row) (recorded feed row)

/-- `next_validated_event`. -/
def nextValidatedEvent (feed : FeedHandle) : Message → FeedProgram (FeedHandle × Processed)
  | .disconnected => disconnected feed
  | .message body receivedAt =>
    match readCandle feed.config body with
    | .error reason => ret (feed, .dropped reason)
    | .ok candle =>
      let row := marketEventRow sha256 feed candle receivedAt
      match admitEvent feed row with
      | .error reason => ret (feed, .dropped reason)
      | .ok _ => record feed row

/-- `open_feed`, with the source the selection rule admits, if it admits one. -/
def openFeed (config : PaperFeedConfig) (source : Option String) : FeedProgram FeedHandle :=
  match source with
  | none => raise .marketDataUnavailable
  | some source =>
    (perform (.updateSessionFeed { marketDataSource := some source })).bind fun _ =>
      (perform .nextMarketEventSequence).bind fun next =>
        ret { config, sequence := next - 1 }

end Feed

/-! ## The recorded log -/

/-- The log counts from 1, holds each identity once, and is in order for each symbol. -/
structure LogKept (log : List MarketEventRow) : Prop where
  consecutive : log.map (·.sequence) = List.range' 1 log.length
  distinct : (log.map (·.sourceEventId)).Nodup
  ordered : log.Pairwise fun earlier later =>
    earlier.symbol = later.symbol → earlier.eventTimestamp ≤ later.eventTimestamp

def NoneLater (log : List MarketEventRow) (symbol : String) (instant : Instant) : Prop :=
  ∀ row ∈ log, row.symbol = symbol → row.eventTimestamp ≤ instant

instance (log : List MarketEventRow) (symbol : String) (instant : Instant) :
    Decidable (NoneLater log symbol instant) := inferInstanceAs (Decidable (∀ row ∈ log, _))

/-- What a live handle knows of the log. -/
structure Synced (feed : FeedHandle) (log : List MarketEventRow) : Prop where
  sequence : feed.sequence = log.length
  lastTimestamp : ∀ symbol, ∀ last ∈ feed.lastTimestamp symbol, NoneLater log symbol last

/-- A row extends the log with everything kept exactly when it takes the next number, its
    identity is new, and nothing of its symbol is later. -/
theorem logKept_append_iff {log : List MarketEventRow} {row : MarketEventRow} :
    LogKept (log ++ [row]) ↔ LogKept log ∧ row.sequence = log.length + 1 ∧
      (∀ other ∈ log, other.sourceEventId ≠ row.sourceEventId) ∧
      NoneLater log row.symbol row.eventTimestamp := by
  have h_consecutive : (log ++ [row]).map (·.sequence) = List.range' 1 (log ++ [row]).length ↔
      log.map (·.sequence) = List.range' 1 log.length ∧ row.sequence = log.length + 1 := by
    rw [List.map_append, List.length_append, List.length_singleton, List.range'_1_concat,
      List.map_singleton, Nat.add_comm 1]
    refine ⟨fun h => ?_, fun h => by rw [h.1, h.2]⟩
    obtain ⟨h_log, h_row⟩ := List.append_inj' h rfl
    exact ⟨h_log, List.head_eq_of_cons_eq h_row⟩
  have h_distinct : ((log ++ [row]).map (·.sourceEventId)).Nodup ↔
      (log.map (·.sourceEventId)).Nodup ∧ ∀ other ∈ log, other.sourceEventId ≠ row.sourceEventId := by
    rw [List.map_append, List.map_singleton, List.nodup_append]
    refine ⟨fun h => ⟨h.1, fun other h_other => ?_⟩, fun h => ⟨h.1, List.nodup_singleton _, ?_⟩⟩
    · exact h.2.2 _ (List.mem_map_of_mem h_other) _ (List.mem_singleton_self _)
    · intro id h_id other h_other
      obtain ⟨earlier, h_earlier, rfl⟩ := List.mem_map.mp h_id
      rw [List.mem_singleton.mp h_other]
      exact h.2 earlier h_earlier
  have h_ordered : (log ++ [row]).Pairwise (fun earlier later =>
      earlier.symbol = later.symbol → earlier.eventTimestamp ≤ later.eventTimestamp) ↔
      (log.Pairwise fun earlier later =>
        earlier.symbol = later.symbol → earlier.eventTimestamp ≤ later.eventTimestamp) ∧
      NoneLater log row.symbol row.eventTimestamp := by
    rw [List.pairwise_append]
    refine ⟨fun h => ⟨h.1, fun other h_other => h.2.2 other h_other row (List.mem_singleton_self _)⟩,
      fun h => ⟨h.1, List.pairwise_singleton _ _, fun other h_other later h_later => ?_⟩⟩
    rw [List.mem_singleton.mp h_later]
    exact h.2 other h_other
  refine ⟨fun h => ?_, fun ⟨h, h_next, h_new, h_order⟩ => ?_⟩
  · obtain ⟨h_log, h_next⟩ := h_consecutive.mp h.consecutive
    obtain ⟨h_nodup, h_new⟩ := h_distinct.mp h.distinct
    obtain ⟨h_pairwise, h_order⟩ := h_ordered.mp h.ordered
    exact ⟨⟨h_log, h_nodup, h_pairwise⟩, h_next, h_new, h_order⟩
  · exact ⟨h_consecutive.mpr ⟨h.consecutive, h_next⟩, h_distinct.mpr ⟨h.distinct, h_new⟩,
      h_ordered.mpr ⟨h.ordered, h_order⟩⟩

theorem nextMarketEventSequence_of_kept {log : List MarketEventRow} (h : LogKept log) :
    nextMarketEventSequence log = log.length + 1 := by
  have h_max : ∀ n, (List.range' 1 n).foldl max 0 = n := by
    intro n
    induction n with
    | zero => rfl
    | succ n ih => rw [List.range'_1_concat, List.foldl_append, ih, List.foldl_cons, List.foldl_nil]; omega
  rw [nextMarketEventSequence, h.consecutive, h_max]

/-! ## One call -/

/-- Where an answer may be lost: not that of an insert that took effect. -/
def KeepsLog (op : FeedOp) (s : FeedStore) : Prop := (handle op s).2.marketEvents = s.marketEvents

/-- The event that processing the message would record. -/
def Records (sha256 : String → String) (feed : FeedHandle) (message : Message) (s : FeedStore)
    (row : MarketEventRow) : Prop :=
  ∃ body receivedAt candle, message = .message body receivedAt ∧
    readCandle feed.config body = .ok candle ∧ row = marketEventRow sha256 feed candle receivedAt ∧
    admitEvent feed row = .ok () ∧ ∃ t, insertMarketEvent s row = .ok t

/-- The first event of its symbol that an opened feed records is not earlier than what the log
    holds of the symbol. -/
def StartsInOrder (sha256 : String → String) (feed : FeedHandle) (message : Message)
    (s : FeedStore) : Prop :=
  ∀ row, Records sha256 feed message s row → feed.lastTimestamp row.symbol = none →
    NoneLater s.marketEvents row.symbol row.eventTimestamp

def Kept (s : FeedStore) : Prop := LogKept s.marketEvents

/-- A call leaves its handle in step with the log, whether it raised or not. -/
def InStep : Except FeedError (FeedHandle × Processed) → FeedStore → Prop
  | .ok (feed, _), s => Synced feed s.marketEvents
  | .error _, _ => False

section Calls

variable {sha256 : String → String} {feed : FeedHandle} {s : FeedStore} {log : List MarketEventRow}
  {row : MarketEventRow}

theorem Synced.congr {feed' : FeedHandle} (h : Synced feed log) (h_sequence : feed'.sequence = feed.sequence)
    (h_last : feed'.lastTimestamp = feed.lastTimestamp) : Synced feed' log :=
  ⟨h_sequence.trans h.sequence, by rw [h_last]; exact h.lastTimestamp⟩

theorem insertMarketEvent_eq_ok {t : FeedStore} (h : insertMarketEvent s row = .ok t) :
    (∀ other ∈ s.marketEvents, other.sourceEventId ≠ row.sourceEventId) ∧
      t = { s with marketEvents := s.marketEvents ++ [row] } := by
  obtain ⟨_, _, h⟩ := Except.bind_eq_ok.mp h
  obtain ⟨_, h_new, rfl⟩ := Except.bind_pure_eq_ok.mp h
  exact ⟨fun other h_other h_same => Except.refuseIf_eq_ok.mp h_new ⟨other, h_other, h_same⟩, rfl⟩

theorem handle_insertMarketEvent (s : FeedStore) (row : MarketEventRow) :
    (∃ e, handle (.insertMarketEvent row) s = (.error e, s)) ∨
      ∃ t, insertMarketEvent s row = .ok t ∧ handle (.insertMarketEvent row) s = (.ok (), t) := by
  obtain ⟨answer, h_insert⟩ : ∃ answer, insertMarketEvent s row = answer := ⟨_, rfl⟩
  cases answer with
  | error e =>
    refine Or.inl ⟨e, ?_⟩
    unfold handle
    dsimp only
    rw [h_insert]
  | ok t =>
    refine Or.inr ⟨t, h_insert, ?_⟩
    unfold handle
    dsimp only
    rw [h_insert]

theorem Synced.moved (h : Synced feed log) (h_symbol : row.symbol = feed.config.symbol)
    (h_next : row.sequence = log.length + 1) (h_order : NoneLater log row.symbol row.eventTimestamp) :
    Synced (feed.moved row) (log ++ [row]) := by
  refine ⟨?_, fun symbol last h_last other h_other h_of => ?_⟩
  · show row.sequence = (log ++ [row]).length
    rw [List.length_append, List.length_singleton, h_next]
  · have h_update : Function.update feed.lastTimestamp feed.config.symbol
        (some row.eventTimestamp) symbol = some last := h_last
    by_cases h_own : symbol = feed.config.symbol
    · rw [h_own, Function.update_self] at h_update
      cases h_update
      rcases List.mem_append.mp h_other with h_old | h_new
      · exact h_order other h_old (h_of.trans (h_own.trans h_symbol.symm))
      · rw [List.mem_singleton.mp h_new]
    · rw [Function.update_of_ne h_own] at h_update
      rcases List.mem_append.mp h_other with h_old | h_new
      · exact h.lastTimestamp symbol last h_update other h_old h_of
      · rw [List.mem_singleton.mp h_new, h_symbol] at h_of
        exact absurd h_of.symm h_own

theorem transitionFeedState_withstands {state : FeedState} {transport : Option FeedTransport}
    {next : FeedHandle → FeedProgram (FeedHandle × Processed)} (h_kept : Kept s)
    (h_synced : Synced feed s.marketEvents)
    (h_next : ∀ feed' t, Synced feed' s.marketEvents → t.marketEvents = s.marketEvents →
      (next feed').Withstands handle KeepsLog Kept InStep t) :
    (transitionFeedState feed state transport next).Withstands handle KeepsLog Kept InStep s := by
  unfold transitionFeedState
  dsimp only
  split
  · exact .call_of h_kept (h_next _ _ (h_synced.congr rfl rfl) rfl)
      (fun e _ => ⟨h_kept, h_synced.congr rfl rfl⟩) fun e => ⟨h_kept, h_synced.congr rfl rfl⟩
  · exact h_next _ _ (h_synced.congr rfl rfl) rfl

/-- Steps 9 and 10, of an event that is nowhere before what the log holds of its symbol. -/
theorem record_withstands (h_kept : Kept s) (h_synced : Synced feed s.marketEvents)
    (h_symbol : row.symbol = feed.config.symbol) (h_next : row.sequence = s.marketEvents.length + 1)
    (h_order : ∀ t, insertMarketEvent s row = .ok t →
      NoneLater s.marketEvents row.symbol row.eventTimestamp) :
    (record feed row).Withstands handle KeepsLog Kept InStep s := by
  have h_error : ∀ e t, t.marketEvents = s.marketEvents →
      (recorded feed row (.error e)).Withstands handle KeepsLog Kept InStep t := by
    intro e t h_log
    have h_kept' : Kept t := by
      unfold Kept
      rw [h_log]
      exact h_kept
    have h_synced' : Synced feed t.marketEvents := h_log ▸ h_synced
    unfold recorded
    dsimp only
    split
    · have h_seen : Synced (feed.rememberSeen row.sourceEventId) t.marketEvents :=
        h_synced'.congr (by simp) (by simp)
      exact ⟨h_kept', h_seen⟩
    · exact ⟨h_kept', h_synced'⟩
  refine .call_of h_kept ?_ (fun e h_keeps => h_error e _ h_keeps) fun e => h_error e s rfl
  rcases handle_insertMarketEvent s row with ⟨e, h_handle⟩ | ⟨t, h_insert, h_handle⟩
  · rw [h_handle]
    exact h_error e s rfl
  · rw [h_handle]
    obtain ⟨h_new, rfl⟩ := insertMarketEvent_eq_ok h_insert
    have h_later := h_order _ h_insert
    have h_log : LogKept (s.marketEvents ++ [row]) :=
      logKept_append_iff.mpr ⟨h_kept, h_next, h_new, h_later⟩
    unfold recorded
    have h_kept' : Kept { s with marketEvents := s.marketEvents ++ [row] } := h_log
    refine transitionFeedState_withstands h_kept' (h_synced.moved h_symbol h_next h_later)
      fun feed' t h_synced' h_same => ?_
    have h_still : LogKept t.marketEvents := h_same ▸ h_log
    have h_after : Synced feed' t.marketEvents := h_same ▸ h_synced'
    exact ⟨h_still, h_after⟩

/-- `next_validated_event`, whatever fails in it and wherever it dies. -/
theorem nextValidatedEvent_withstands {message : Message} (h_kept : Kept s)
    (h_synced : Synced feed s.marketEvents) (h_order : StartsInOrder sha256 feed message s) :
    (nextValidatedEvent sha256 feed message).Withstands handle KeepsLog Kept InStep s := by
  cases message with
  | disconnected =>
    unfold nextValidatedEvent disconnected
    refine transitionFeedState_withstands h_kept h_synced fun feed' t h_synced' h_same => ?_
    have h_kept' : LogKept t.marketEvents := h_same ▸ h_kept
    have h_after : Synced { feed' with reconnectAttempts := feed'.reconnectAttempts + 1 }
        t.marketEvents := h_same ▸ h_synced'.congr rfl rfl
    exact ⟨h_kept', h_after⟩
  | message body receivedAt =>
    have h_drop : ∀ reason : DropReason, (ret (feed, Processed.dropped reason) :
        FeedProgram (FeedHandle × Processed)).Withstands handle KeepsLog Kept InStep s :=
      fun reason => ⟨h_kept, h_synced⟩
    unfold nextValidatedEvent
    dsimp only
    split
    · exact h_drop _
    · rename_i candle h_candle
      split
      · exact h_drop _
      · rename_i h_admit
        refine record_withstands h_kept h_synced rfl ?_ fun t h_insert => ?_
        · show feed.sequence + 1 = s.marketEvents.length + 1
          rw [h_synced.sequence]
        · cases h_last : feed.lastTimestamp feed.config.symbol with
          | none =>
            exact h_order _ ⟨body, receivedAt, candle, rfl, h_candle, rfl, h_admit, t, h_insert⟩ h_last
          | some last =>
            -- The handle's own check, and nothing recorded of the symbol is above its mark.
            obtain ⟨_, _, h_late⟩ := Except.bind_eq_ok.mp h_admit
            have h_ge : last ≤ candle.eventTimestamp := not_lt.mp fun h_lt =>
              Except.refuseIf_eq_ok.mp h_late ⟨last, h_last, h_lt⟩
            exact fun other h_other h_of =>
              (h_synced.lastTimestamp _ last h_last other h_other h_of).trans h_ge

/-- `open_feed` leaves the log alone, and the handle it returns continues it. -/
theorem openFeed_withstands (config : PaperFeedConfig) (source : Option String) (h_kept : Kept s) :
    (openFeed config source).Withstands handle KeepsLog (fun t => t.marketEvents = s.marketEvents)
      (fun r _ => ∀ feed, r = .ok feed → Synced feed s.marketEvents) s := by
  cases source with
  | none => exact ⟨rfl, nofun⟩
  | some source =>
    have h_handle : Synced { config, sequence := nextMarketEventSequence s.marketEvents - 1 }
        s.marketEvents := by
      refine ⟨?_, fun _ _ h_last => nomatch h_last⟩
      show nextMarketEventSequence s.marketEvents - 1 = s.marketEvents.length
      rw [nextMarketEventSequence_of_kept h_kept]
      rfl
    refine .call_of rfl (.call_of rfl ⟨rfl, fun feed h_feed => ?_⟩ (fun _ _ => ⟨rfl, nofun⟩)
      fun _ => ⟨rfl, nofun⟩) (fun _ _ => ⟨rfl, nofun⟩) fun _ => ⟨rfl, nofun⟩
    cases h_feed
    exact h_handle

end Calls

/-! ## Every run -/

/-- The session's tables, and the handle of the process that feeds it, if one is open. -/
structure FeedSystem where
  store : FeedStore
  live : Option FeedHandle

/-- The handle an opening leaves: a refused one keeps the handle there was. -/
def liveAfterOpening (live : Option FeedHandle) :
    Option (Except FeedError FeedHandle) → Option FeedHandle
  | some (.ok feed) => some feed
  | some (.error _) => live
  | none => none

/-- The handle a call leaves: none when its process died. -/
def liveAfter : Option (Except FeedError (FeedHandle × Processed)) → Option FeedHandle
  | some (.ok (feed, _)) => some feed
  | _ => none

/-- A feed is opened, or opened again; the open feed processes what it receives, where `P`
    allows it; its process stops.  An opening or a call may die anywhere. -/
inductive FeedStep (sha256 : String → String) (P : FeedHandle → Message → FeedStore → Prop) :
    FeedSystem → FeedSystem → Prop
  | opened {s : FeedSystem} {t : FeedStore} (config : PaperFeedConfig) (source : Option String)
      {r : Option (Except FeedError FeedHandle)}
      (h_run : (openFeed config source).Executes handle KeepsLog s.store r t) :
      FeedStep sha256 P s ⟨t, liveAfterOpening s.live r⟩
  | processed {s : FeedSystem} {t : FeedStore} {feed : FeedHandle} (message : Message)
      {r : Option (Except FeedError (FeedHandle × Processed))} (h_live : s.live = some feed)
      (h : P feed message s.store)
      (h_run : (nextValidatedEvent sha256 feed message).Executes handle KeepsLog s.store r t) :
      FeedStep sha256 P s ⟨t, liveAfter r⟩
  | stopped {s : FeedSystem} : FeedStep sha256 P s ⟨s.store, none⟩

structure Consistent (s : FeedSystem) : Prop where
  kept : Kept s.store
  synced : ∀ feed ∈ s.live, Synced feed s.store.marketEvents

theorem Consistent.step {sha256 : String → String} {s t : FeedSystem} (h : Consistent s)
    (h_step : FeedStep sha256 (StartsInOrder sha256) s t) : Consistent t := by
  cases h_step with
  | @opened t config source r h_run =>
    obtain ⟨h_same, h_ends⟩ := (openFeed_withstands config source h.kept).executes h_run
    refine ⟨by unfold Kept; rw [h_same]; exact h.kept, fun feed h_feed => ?_⟩
    show Synced feed t.marketEvents
    rw [h_same]
    match r, h_ends, h_feed with
    | some (.ok _), h_ends, rfl => exact h_ends _ rfl _ rfl
    | some (.error _), _, h_feed => exact h.synced feed h_feed
  | @processed t feed message r h_live h_order h_run =>
    obtain ⟨h_kept, h_ends⟩ := (nextValidatedEvent_withstands h.kept (h.synced _ h_live)
      h_order).executes h_run
    refine ⟨h_kept, fun feed h_feed => ?_⟩
    match r, h_ends, h_feed with
    | some (.ok _), h_ends, rfl => exact h_ends _ rfl
  | stopped => exact ⟨h.kept, nofun⟩

/-- Over every sequence of openings, messages and deaths of the process, from a session without
    an open feed whose log is in order, the log keeps consecutive numbers, distinct identities
    and the order of each symbol, if the first event that each opened feed records of its symbol
    is not earlier than what the log holds of it. -/
theorem recorded_log_survives_restarts {sha256 : String → String} {s₀ s : FeedSystem}
    (h_log : LogKept s₀.store.marketEvents) (h_closed : s₀.live = none)
    (h_run : Relation.ReflTransGen (FeedStep sha256 (StartsInOrder sha256)) s₀ s) :
    LogKept s.store.marketEvents := by
  have h_start : Consistent s₀ := ⟨h_log, fun feed h_feed => by rw [h_closed] at h_feed; cases h_feed⟩
  have h_end : Consistent s := by
    induction h_run with
    | refl => exact h_start
    | tail _ h_step ih => exact ih.step h_step
  exact h_end.kept

/-! ## A restart between two candles -/

/-- The session's tables before its feed is opened. -/
def unfed : FeedSystem := ⟨⟨{}, []⟩, none⟩

def minuteFeed : PaperFeedConfig where
  sessionId := "session"
  userId := "user"
  exchangeId := "binance"
  symbol := "BTC/USDT"
  timeframe := "1m"
  required := by decide

/-- The candle of a minute, from the exchange's own socket, two seconds after it opened. -/
def minuteCandle (stampMs : ℤ) : Message :=
  .message (.payload {
    transport := some (.value "websocket" none)
    timestamp := some (.value (toString stampMs) (some stampMs))
    open_ := some (.value "100" (some 100))
    high := some (.value "101" (some 101))
    low := some (.value "99" (some 99))
    close := some (.value "100" (some 100))
    volume := some (.value "5" (some 5)) }) 1718452862000000

def earlierCandle : Message := minuteCandle 1718452800000

def laterCandle : Message := minuteCandle 1718452860000

/-- The digests of the two identities. -/
def candleDigest (text : String) : String :=
  if text = "binance|BTC/USDT|1m|1718452800000|100|5" then
    "04a2ff637275e7aabd3f88110bf6e495ee8eb11edba90d231fd436bf384856b4"
  else if text = "binance|BTC/USDT|1m|1718452860000|100|5" then
    "8141336333b964d4cf929de11a7690b5c68b387c2e2d06aec2a2cb4200dfb050"
  else ""

def reopened (s : FeedSystem) : FeedSystem :=
  let (r, t) := (openFeed minuteFeed (some "mds")).run handle s.store
  ⟨t, liveAfterOpening s.live (some r)⟩

def fed (s : FeedSystem) (message : Message) : FeedSystem :=
  match s.live with
  | none => s
  | some feed =>
    let (r, t) := (nextValidatedEvent candleDigest feed message).run handle s.store
    ⟨t, liveAfter (some r)⟩

theorem reopened_step {P : FeedHandle → Message → FeedStore → Prop} (s : FeedSystem) :
    FeedStep candleDigest P s (reopened s) :=
  .opened minuteFeed (some "mds") (.run _ _)

theorem fed_step {P : FeedHandle → Message → FeedStore → Prop} {s : FeedSystem} {feed : FeedHandle}
    (message : Message) (h_live : s.live = some feed) (h : P feed message s.store) :
    FeedStep candleDigest P s (fed s message) := by
  unfold fed
  rw [h_live]
  exact .processed message h_live h (.run _ _)

theorem startsInOrder_of {sha256 : String → String} {feed : FeedHandle} {body : Body}
    {receivedAt : Instant} {s : FeedStore} {candle : Candle}
    (h_candle : readCandle feed.config body = .ok candle)
    (h : NoneLater s.marketEvents feed.config.symbol candle.eventTimestamp) :
    StartsInOrder sha256 feed (.message body receivedAt) s := by
  rintro _ ⟨_, _, candle', h_message, h_candle', rfl, -, -⟩ -
  cases h_message
  rw [h_candle] at h_candle'
  cases h_candle'
  exact h

def recordedInOrder : FeedSystem :=
  fed (reopened (fed (reopened unfed) earlierCandle)) laterCandle

/-- The later candle comes after the restart. -/
theorem recorded_log_survives_restarts_in_order :
    recordedInOrder.store.marketEvents.length = 2 ∧ LogKept recordedInOrder.store.marketEvents := by
  have h_first : StartsInOrder candleDigest { config := minuteFeed } earlierCandle
      (reopened unfed).store :=
    startsInOrder_of rfl (by decide +kernel)
  have h_none : NoneLater (reopened (fed (reopened unfed) earlierCandle)).store.marketEvents
      "BTC/USDT" 1718452860000000 := by decide +kernel
  have h_second : ∀ sequence, StartsInOrder candleDigest { config := minuteFeed, sequence } laterCandle
      (reopened (fed (reopened unfed) earlierCandle)).store :=
    fun _ => startsInOrder_of rfl h_none
  have h_run : Relation.ReflTransGen (FeedStep candleDigest (StartsInOrder candleDigest)) unfed
      recordedInOrder :=
    .tail (.tail (.tail (.tail .refl (reopened_step _)) (fed_step _ rfl h_first)) (reopened_step _))
      (fed_step _ rfl (h_second _))
  have h_empty : LogKept unfed.store.marketEvents := ⟨rfl, List.nodup_nil, .nil⟩
  exact ⟨by decide +kernel, recorded_log_survives_restarts h_empty rfl h_run⟩

def recordedOutOfOrder : FeedSystem :=
  fed (reopened (fed (reopened unfed) laterCandle)) earlierCandle

/-- After the restart the exchange sends a candle of the minute before, which was not recorded.
    The feed records it, as the second row and below the first. -/
theorem restarted_feed_records_earlier_candle :
    Relation.ReflTransGen (FeedStep candleDigest fun _ _ _ => True) unfed recordedOutOfOrder ∧
      recordedOutOfOrder.store.marketEvents.map (fun row => (row.sequence, row.symbol, row.eventTimestamp))
        = [(1, "BTC/USDT", 1718452860000000), (2, "BTC/USDT", 1718452800000000)] ∧
      ¬ LogKept recordedOutOfOrder.store.marketEvents := by
  have h_rows : recordedOutOfOrder.store.marketEvents.map
      (fun row => (row.sequence, row.symbol, row.eventTimestamp))
        = [(1, "BTC/USDT", 1718452860000000), (2, "BTC/USDT", 1718452800000000)] := by
    decide +kernel
  refine ⟨?_, h_rows, fun h_kept => ?_⟩
  · exact .tail (.tail (.tail (.tail .refl (reopened_step _)) (fed_step _ rfl trivial))
      (reopened_step _)) (fed_step _ rfl trivial)
  · have h_ordered : (recordedOutOfOrder.store.marketEvents.map
        fun row => (row.sequence, row.symbol, row.eventTimestamp)).Pairwise
          fun a b => a.2.1 = b.2.1 → a.2.2 ≤ b.2.2 := List.pairwise_map.mpr h_kept.ordered
    rw [h_rows] at h_ordered
    revert h_ordered
    decide

end VyomQuant.Paper.Feed
