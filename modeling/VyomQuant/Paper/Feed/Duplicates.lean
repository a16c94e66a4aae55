/-
  VyomQuant.Paper.Feed.Duplicates

  What a dropped duplicate would have filled.  Two candles of one identity agree in their
  close and volume, and a resting limit order is triggered by the low or the high: so two
  events of one identity fill an order alike exactly when those lie on one side of its limit.
-/

import VyomQuant.Paper.Feed.Recorder
import VyomQuant.Paper.Simulator.Pricing

namespace VyomQuant.Paper.Feed

open Decimal Except
open Accounting (OrderSide AccountingError)

/-! ## The matching logic -/

/-- The event that is handed on when a row was recorded.  A candle quotes nothing and has no
    last trade. -/
def marketEvent (row : MarketEventRow) : MarketEvent where
  sourceEventId := row.sourceEventId
  symbol := row.symbol
  eventTimestamp := row.eventTimestamp
  high := some row.payload.values.high
  low := some row.payload.values.low
  close := some row.payload.values.close
  volume := some row.payload.values.volume
  ask := none
  bid := none
  last := none

/-- What the matching logic reads of a resting limit order. -/
structure RestingOrder where
  side : OrderSide
  limitPrice : ℚ
  quantity : ℚ
  filledQuantity : ℚ
  limitPrice_pos : 0 < limitPrice

/-- Both events fill the order, at one quantity, or neither does.  The price is
    `limit_fill_price`, which reads no event. -/
def SameFill (config : SessionConfig) (order : RestingOrder) (event event' : MarketEvent) : Prop :=
  limitFillTriggered order.side (some order.limitPrice) event
      = limitFillTriggered order.side (some order.limitPrice) event' ∧
    (limitFillTriggered order.side (some order.limitPrice) event = true →
      fillableQuantity order.quantity order.filledQuantity event config
        = fillableQuantity order.quantity order.filledQuantity event' config)

/-- The candle traded at the order's limit. -/
def Reaches (order : RestingOrder) (values : Values) : Prop :=
  match order.side with
  | .buy => values.low ≤ order.limitPrice
  | .sell => order.limitPrice ≤ values.high

/-- The participation cap that a volume sets, if it sets one. -/
def participationCap (config : SessionConfig) (volume : ℚ) : Except AccountingError (Option ℚ) :=
  if volume ≤ 0 ∨ config.participationRate ≤ 0 then
    .ok none
  else do
    let cap ← config.accounting.qty (ambientContext.mul volume config.participationRate)
    return some cap

def Loose (remaining : ℚ) (cap : Except AccountingError (Option ℚ)) : Prop :=
  ∃ limit, cap = .ok limit ∧ ∀ c ∈ limit, remaining ≤ c

/-- Two volumes set one cap, or neither binds the order. -/
def CapsAgree (config : SessionConfig) (order : RestingOrder) (volume volume' : ℚ) : Prop :=
  ∀ remaining, remainingQuantity order.quantity order.filledQuantity config = .ok remaining →
    0 < remaining →
    participationCap config volume = participationCap config volume' ∨
      (Loose remaining (participationCap config volume) ∧
        Loose remaining (participationCap config volume'))

theorem limitFillTriggered_marketEvent (order : RestingOrder) (row : MarketEventRow) :
    limitFillTriggered order.side (some order.limitPrice) (marketEvent row) = true ↔
      Reaches order row.payload.values := by
  have h_limit : ¬ order.limitPrice ≤ 0 := not_le.mpr order.limitPrice_pos
  unfold limitFillTriggered Reaches
  cases order.side with
  | buy => simp [h_limit, firstSupplied, marketEvent]
  | sell => simp [h_limit, firstSupplied, marketEvent]

/-- What a cap leaves of an order. -/
def limited (remaining : ℚ) : Option ℚ → ℚ
  | none => remaining
  | some cap => min cap remaining

theorem fillableQuantity_marketEvent (order : RestingOrder) (row : MarketEventRow)
    (config : SessionConfig) :
    fillableQuantity order.quantity order.filledQuantity (marketEvent row) config =
      (remainingQuantity order.quantity order.filledQuantity config).bind fun remaining =>
        if remaining ≤ 0 then .ok 0 else
          (participationCap config row.payload.values.volume).map (limited remaining) := by
  unfold fillableQuantity participationCap
  cases remainingQuantity order.quantity order.filledQuantity config with
  | error e => rfl
  | ok remaining =>
    show (if remaining ≤ 0 then _ else _) = if remaining ≤ 0 then _ else _
    split
    · rfl
    · show (if row.payload.values.volume ≤ 0 ∨ config.participationRate ≤ 0 then _ else _) = _
      split
      · rfl
      · cases config.accounting.qty
          (ambientContext.mul row.payload.values.volume config.participationRate) with
        | error e => rfl
        | ok cap =>
          show Except.ok (if cap < remaining then cap else remaining) = .ok (min cap remaining)
          rw [min_def_lt]

/-- Two caps leave the same exactly when they are the same, or neither binds. -/
theorem map_limited_eq_iff {remaining : ℚ} {cap cap' : Except AccountingError (Option ℚ)} :
    cap.map (limited remaining) = cap'.map (limited remaining) ↔
      cap = cap' ∨ (Loose remaining cap ∧ Loose remaining cap') := by
  have h_loose (limit : Option ℚ) : Loose remaining (.ok limit) ↔ limited remaining limit = remaining := by
    cases limit with
    | none => simp [Loose, limited]
    | some c => simp [Loose, limited]
  constructor
  · intro h
    cases cap with
    | error e =>
      cases cap' with
      | error e' => exact Or.inl (congrArg Except.error (Except.error.inj h))
      | ok limit' => cases h
    | ok limit =>
      cases cap' with
      | error e' => cases h
      | ok limit' =>
        have h_same : limited remaining limit = limited remaining limit' := Except.ok.inj h
        rw [h_loose, h_loose]
        by_cases h_bound : limited remaining limit = remaining
        · exact Or.inr ⟨h_bound, h_same ▸ h_bound⟩
        · -- Below what remains the quantity is the cap itself.
          refine Or.inl (congrArg Except.ok ?_)
          have h_cap (o : Option ℚ) (h_o : limited remaining o ≠ remaining) :
              o = some (limited remaining o) := by
            cases o with
            | none => exact absurd rfl h_o
            | some c =>
              have h_below : c ≤ remaining :=
                not_lt.mp fun h_lt => h_o (min_eq_right h_lt.le)
              exact congrArg some (min_eq_left h_below).symm
          rw [h_cap limit h_bound, h_cap limit' (h_same ▸ h_bound), h_same]
  · rintro (rfl | ⟨⟨limit, rfl, h_limit⟩, ⟨limit', rfl, h_limit'⟩⟩)
    · rfl
    · have h_left := (h_loose limit).mp ⟨limit, rfl, h_limit⟩
      have h_right := (h_loose limit').mp ⟨limit', rfl, h_limit'⟩
      show Except.ok (limited remaining limit) = .ok (limited remaining limit')
      rw [h_left, h_right]

theorem fillableQuantity_eq_iff {order : RestingOrder} {row row' : MarketEventRow}
    {config : SessionConfig} :
    fillableQuantity order.quantity order.filledQuantity (marketEvent row) config
        = fillableQuantity order.quantity order.filledQuantity (marketEvent row') config ↔
      CapsAgree config order row.payload.values.volume row'.payload.values.volume := by
  rw [fillableQuantity_marketEvent, fillableQuantity_marketEvent]
  unfold CapsAgree
  cases remainingQuantity order.quantity order.filledQuantity config with
  | error e => simp [Except.bind]
  | ok remaining =>
    simp only [Except.bind, Except.ok.injEq, forall_eq']
    by_cases h_none : remaining ≤ 0
    · simp [h_none, not_lt.mpr h_none]
    · rw [if_neg h_none, if_neg h_none, map_limited_eq_iff]
      simp [not_le.mp h_none]

/-- Two candles fill an order alike exactly when they lie on one side of its limit, and
    where they reach it leave the order the same quantity. -/
theorem sameFill_marketEvent {order : RestingOrder} {row row' : MarketEventRow}
    {config : SessionConfig} :
    SameFill config order (marketEvent row) (marketEvent row') ↔
      (Reaches order row.payload.values ↔ Reaches order row'.payload.values) ∧
      (Reaches order row.payload.values →
        CapsAgree config order row.payload.values.volume row'.payload.values.volume) := by
  unfold SameFill
  rw [Bool.eq_iff_iff, limitFillTriggered_marketEvent, limitFillTriggered_marketEvent,
    fillableQuantity_eq_iff]

/-! ## The identity -/

theorem bar_notMem_canonicalNumber (value : ℚ) : '|' ∉ (canonicalNumber value).toList := by
  intro h
  exact absurd (isNumberChar_of_mem_plainText h) (by decide)

/-- What `normalize` leaves alone, the text determines. -/
theorem canonicalNumber_inj {x y : ℚ} (h_x : normalize x = some x) (h_y : normalize y = some y)
    (h : canonicalNumber x = canonicalNumber y) : x = y := by
  unfold canonicalNumber at h
  rw [h_x, h_y, Option.getD_some, Option.getD_some] at h
  obtain ⟨d, h_d⟩ := Context.normalize_onGrid h_x
  obtain ⟨e, h_e⟩ := Context.normalize_onGrid h_y
  obtain ⟨h_sign, h_abs⟩ := plainText_inj h_d h_e h
  rw [decide_eq_decide] at h_sign
  by_cases h_neg : x < 0
  · rw [abs_of_neg h_neg, abs_of_neg (h_sign.mp h_neg)] at h_abs
    exact neg_injective h_abs
  · rwa [abs_of_nonneg (not_lt.mp h_neg), abs_of_nonneg (not_lt.mp fun h => h_neg (h_sign.mpr h))]
      at h_abs

theorem volume_of_sourceEventMaterial {config config' : PaperFeedConfig} {candle candle' : Candle}
    (h : sourceEventMaterial config candle = sourceEventMaterial config' candle') :
    canonicalNumber candle.values.volume = canonicalNumber candle'.values.volume := by
  have h_split (config : PaperFeedConfig) (candle : Candle) : ∃ front : List Char,
      (sourceEventMaterial config candle).toList
        = front ++ '|' :: (canonicalNumber candle.values.volume).toList := by
    have h_append := String.intercalate_append_of_ne_nil (s := "|")
      (l := [config.normalisedExchangeId, strip config.symbol, strip config.timeframe,
        toString candle.stampMs, canonicalNumber candle.values.close])
      (m := [canonicalNumber candle.values.volume]) (by simp) (by simp)
    rw [String.intercalate_singleton, String.append_assoc] at h_append
    have h_chars := congrArg String.toList h_append
    rw [String.toList_append, String.toList_append] at h_chars
    exact ⟨_, h_chars⟩
  obtain ⟨front, h_front⟩ := h_split config candle
  obtain ⟨front', h_front'⟩ := h_split config' candle'
  rw [← String.toList_inj, h_front, h_front'] at h
  exact String.toList_inj.mp (Splitting.append_cons_inj_last (bar_notMem_canonicalNumber _)
    (bar_notMem_canonicalNumber _) h).2

section Identity

variable (sha256 : String → String)

/-- Two validated candles that share an identity, and do not owe it to a collision of the
    digest, fill a resting limit order alike exactly when their lows (for a buy) or their highs
    (for a sell) lie on one side of its limit and their volumes set it one cap; the caps are the
    same for every two volumes that `normalize` leaves alone. -/
theorem sameFill_of_sourceEventId_eq (feed feed' : FeedHandle) (candle candle' : Candle)
    (receivedAt receivedAt' : Accounting.Instant) (config : SessionConfig) (order : RestingOrder)
    (h_same : sourceEventId sha256 feed.config candle = sourceEventId sha256 feed'.config candle')
    (h_sha : sha256 (sourceEventMaterial feed.config candle)
        = sha256 (sourceEventMaterial feed'.config candle') →
      sourceEventMaterial feed.config candle = sourceEventMaterial feed'.config candle') :
    (SameFill config order (marketEvent (marketEventRow sha256 feed candle receivedAt))
        (marketEvent (marketEventRow sha256 feed' candle' receivedAt')) ↔
      (Reaches order candle.values ↔ Reaches order candle'.values) ∧
      (Reaches order candle.values →
        CapsAgree config order candle.values.volume candle'.values.volume)) ∧
    (normalize candle.values.volume = some candle.values.volume →
      normalize candle'.values.volume = some candle'.values.volume →
      CapsAgree config order candle.values.volume candle'.values.volume) := by
  refine ⟨sameFill_marketEvent, fun h_exact h_exact' => ?_⟩
  have h_volume := canonicalNumber_inj h_exact h_exact'
    (volume_of_sourceEventMaterial (h_sha h_same))
  intro remaining _ _
  rw [h_volume]
  exact Or.inl rfl

end Identity

/-! ## A candle republished with a lower low -/

/-- The forming candle of a minute: what moved since the last update is its low. -/
def formingCandle (low : ℚ) : Candle where
  stampMs := 1718452800000
  eventTimestamp := 1718452800000000
  values := { open_ := 100, high := 101, low, close := 100, volume := 5 }
  transport := .websocket

def formingBody (low : ℚ) : Body :=
  .payload {
    transport := some (.value "websocket" none)
    timestamp := some (.value "1718452800000" (some 1718452800000))
    open_ := some (.value "100" (some 100))
    high := some (.value "101" (some 101))
    low := some (.value "low" (some low))
    close := some (.value "100" (some 100))
    volume := some (.value "5" (some 5)) }

/-- A buy that rests below the market. -/
def restingBuy : RestingOrder where
  side := .buy
  limitPrice := 97
  quantity := 1
  filledQuantity := 0
  limitPrice_pos := by norm_num

def formingRow (low : ℚ) : MarketEventRow :=
  marketEventRow candleDigest { config := minuteFeed } (formingCandle low) 1718452862000000

/-- The candle comes again with its low below a resting buy: it is validated, has the identity of
    the first and is dropped for it, and would have filled the order that the first did not. -/
theorem republished_candle_fills_resting_buy :
    readCandle minuteFeed (formingBody 99) = .ok (formingCandle 99) ∧
    readCandle minuteFeed (formingBody 95) = .ok (formingCandle 95) ∧
    sourceEventId candleDigest minuteFeed (formingCandle 99)
      = sourceEventId candleDigest minuteFeed (formingCandle 95) ∧
    limitFillTriggered .buy (some 97) (marketEvent (formingRow 99)) = false ∧
    limitFillTriggered .buy (some 97) (marketEvent (formingRow 95)) = true ∧
    ¬ SameFill spotConfig restingBuy (marketEvent (formingRow 99)) (marketEvent (formingRow 95)) := by
  refine ⟨by decide +kernel, by decide +kernel, rfl, by decide +kernel, by decide +kernel, ?_⟩
  intro h
  have h_missed : limitFillTriggered .buy (some 97) (marketEvent (formingRow 99)) = false := by
    decide +kernel
  have h_filled : limitFillTriggered .buy (some 97) (marketEvent (formingRow 95)) = true := by
    decide +kernel
  exact absurd (h_missed.symm.trans (h.1.trans h_filled)) Bool.false_ne_true

/-- Republished with its low above the order, the candle changes nothing. -/
theorem sameFill_of_sourceEventId_eq_sample :
    (SameFill spotConfig restingBuy (marketEvent (formingRow 99)) (marketEvent (formingRow 98)) ↔
      (Reaches restingBuy (formingCandle 99).values ↔ Reaches restingBuy (formingCandle 98).values) ∧
      (Reaches restingBuy (formingCandle 99).values → CapsAgree spotConfig restingBuy 5 5)) ∧
    (normalize 5 = some 5 → normalize 5 = some 5 → CapsAgree spotConfig restingBuy 5 5) :=
  sameFill_of_sourceEventId_eq candleDigest { config := minuteFeed } { config := minuteFeed }
    (formingCandle 99) (formingCandle 98) 1718452862000000 1718452862000000 spotConfig restingBuy
    rfl fun _ => rfl

end VyomQuant.Paper.Feed
