/-
  VyomQuant.Paper.Feed.Candle

  The checks of `paper_market_feed.py` that look at one message alone: decoding, the
  market it names, its timestamp, its five values, the candle validators, and the identity
  of the event.  `readCandle` is these checks in the order of `next_validated_event`, each
  with the reason the message is dropped for.
-/

import VyomQuant.Paper.Simulator.Types

namespace VyomQuant.Paper.Feed

open Accounting (Instant isSpace isBlank)

/-! ## Configuration -/

/-- `str.strip`. -/
def strip (text : String) : String :=
  String.ofList (((text.toList.dropWhile isSpace).reverse.dropWhile isSpace).reverse)

/-- `PaperFeedConfig`: none of the five facts is blank. -/
structure PaperFeedConfig where
  sessionId : String
  userId : String
  exchangeId : String
  symbol : String
  timeframe : String
  required : ∀ value ∈ [sessionId, userId, exchangeId, symbol, timeframe], isBlank value = false

def PaperFeedConfig.normalisedExchangeId (config : PaperFeedConfig) : String :=
  (strip config.exchangeId).toLower

/-! ## Messages -/

/-- One member of the payload: JSON null, or a value with its `str` and the finite number that
    `to_decimal` reads it as, where it is an integer, a decimal, or the text of one. -/
inductive Member where
  | null
  | value (text : String) (number : Option ℚ)

/-- The members of a payload that are read; `none` is an absent one. -/
structure Payload where
  exchange : Option Member := none
  symbol : Option Member := none
  timeframe : Option Member := none
  transport : Option Member := none
  /-- `open_time`, which is looked up before `timestamp`, as `to_utc_naive` reads it. -/
  openTime : Option (Option Instant) := none
  timestamp : Option Member := none
  open_ : Option Member := none
  high : Option Member := none
  low : Option Member := none
  close : Option Member := none
  volume : Option Member := none

/-- The body of one message, after `decode_payload`. -/
inductive Body where
  | undecodable
  | notAMapping
  | payload (payload : Payload)

inductive FeedTransport where
  | websocket
  | rest
  | unknown
deriving DecidableEq

/-- `normalise_transport`: absent and unrecognised are `UNKNOWN`. -/
def normaliseTransport : Option Member → FeedTransport
  | some (.value text _) =>
    let text := (strip text).toUpper
    if text = "WEBSOCKET" then .websocket else if text = "REST" then .rest else .unknown
  | _ => .unknown

/-- Why a message was dropped. -/
inductive DropReason where
  | disconnected
  | undecodablePayload
  | payloadNotAnObject
  | wrongExchangeSymbolOrTimeframe
  | unreadableTimestamp
  | unreadableCandleShape
  | valueNotExactDecimal
  | validatorRejected
  | duplicateLru
  | duplicateUniqueIndex
  | outOfOrder
deriving DecidableEq

/-- A member that is there and not null names the market as `expected`. -/
def namesMarket (expected : String) (read : String → String) : Option Member → Bool
  | some (.value text _) => read (strip text) == expected
  | _ => true

/-- `_payload_matches_market`. -/
def payloadMatchesMarket (payload : Payload) (config : PaperFeedConfig) : Bool :=
  namesMarket config.normalisedExchangeId String.toLower payload.exchange &&
    namesMarket (strip config.symbol) id payload.symbol &&
    namesMarket (strip config.timeframe) id payload.timeframe

/-- `_epoch_ms`: a fractional millisecond is refused. -/
def epochMs : Option Member → Option ℤ
  | some (.value _ (some number)) => if number.den = 1 then some number.num else none
  | _ => none

/-- `_exact_decimal`. -/
def exactDecimal : Member → Option ℚ
  | .value _ number => number
  | .null => none

/-- The five exact values of a candle. -/
structure Values where
  open_ : ℚ
  high : ℚ
  low : ℚ
  close : ℚ
  volume : ℚ
deriving DecidableEq

/-- `_validate_candle`: the structural checks hold of every frame of one candle, so what is
    left is the integrity of its values. -/
def validateCandle (values : Values) : Bool :=
  decide (values.low ≤ min values.open_ (min values.close values.high)) &&
    decide (max values.open_ (max values.close values.low) ≤ values.high) &&
    decide (0 ≤ values.volume) &&
    [values.open_, values.high, values.low, values.close].all fun price => decide (0 < price)

structure Candle where
  stampMs : ℤ
  eventTimestamp : Instant
  values : Values
  transport : FeedTransport
deriving DecidableEq

/-- The open time in microseconds: `normalise_candle` takes the first timestamp key there is. -/
def openTime (payload : Payload) (stampMs : ℤ) : Option Instant :=
  payload.openTime.getD (some (stampMs * 1000))

/-- Steps 2 to 6 of `next_validated_event`. -/
def readCandle (config : PaperFeedConfig) : Body → Except DropReason Candle
  | .undecodable => .error .undecodablePayload
  | .notAMapping => .error .payloadNotAnObject
  | .payload payload => do
    Except.refuseIf (payloadMatchesMarket payload config = false) .wrongExchangeSymbolOrTimeframe
    let stampMs ← Except.ofOption .unreadableTimestamp (epochMs payload.timestamp)
    let members ← Except.ofOption .unreadableCandleShape
      ([payload.open_, payload.high, payload.low, payload.close, payload.volume].mapM id)
    let eventTimestamp ← Except.ofOption .unreadableCandleShape (openTime payload stampMs)
    match members.mapM exactDecimal with
    | some [open_, high, low, close, volume] =>
      let values : Values := { open_, high, low, close, volume }
      Except.refuseIf (validateCandle values = false) .validatorRejected
      return { stampMs, eventTimestamp, values, transport := normaliseTransport payload.transport }
    | _ => .error .valueNotExactDecimal

/-! ## Identity -/

/-- `canonical_number`: `normalize` rounds to the ambient precision and strips the trailing
    zeros, and the text has no exponent.  Where `normalize` overflows there is no text to take,
    and the figure's own stands for it. -/
def canonicalNumber (value : ℚ) : String :=
  let value := (normalize value).getD value
  Decimal.plainText (value < 0) value

/-- The six fields of the identity, joined. -/
def sourceEventMaterial (config : PaperFeedConfig) (candle : Candle) : String :=
  String.intercalate "|" [config.normalisedExchangeId, strip config.symbol,
    strip config.timeframe, toString candle.stampMs, canonicalNumber candle.values.close,
    canonicalNumber candle.values.volume]

/-- `source_event_id`: the digest of six fields. -/
def sourceEventId (sha256 : String → String) (config : PaperFeedConfig) (candle : Candle) : String :=
  sha256 (sourceEventMaterial config candle)

-- A republished candle keeps its identity whatever zeros its numbers carry.
example : canonicalNumber (60000 : ℚ) = "60000" ∧ canonicalNumber (3 / 2 : ℚ) = "1.5" ∧
    canonicalNumber (1 / 100 : ℚ) = "0.01" := by decide +kernel

end VyomQuant.Paper.Feed
