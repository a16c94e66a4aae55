/-
  VyomQuant.Execution.FillDeduplication

  The fill deduplication manager in front of `add_fill`: a fill is registered in Redis
  under the SHA-256 of a text of it, and is applied if the registration went through.

  The check before the registration decides nothing (`processFill_eq`): the `SET NX` alone
  tells a duplicate, and a lost or unanswered one is reported as a duplicate too.  So every
  trade counts once exactly when its first delivery finds its key free and is answered, and
  every later one finds its key registered or is not answered (`countsEachTradeOnce_iff`).
-/

import VyomQuant.Execution.OrderStateEngine
import VyomQuant.StrategyDag.HashText

namespace VyomQuant.FillDeduplication

open OrderEngine
open StrategyDag (quoted quoted_append_inj)

/-! ## Decimals as they are written -/

/-- A finite `Decimal`. -/
structure WrittenDecimal where
  negative : Bool
  coefficient : ℕ
  exponent : ℤ

namespace WrittenDecimal

def value (x : WrittenDecimal) : ℚ :=
  (if x.negative then -1 else 1) * x.coefficient * (10 : ℚ) ^ x.exponent

/-- `str(x)`: in plain form for an exponent that is not positive and at most five zeros
    after the point, else with an exponent. -/
def str (x : WrittenDecimal) : String :=
  let digits := (toString x.coefficient).toList
  let zeros (n : ℤ) := List.replicate n.toNat '0'
  let leftDigits := x.exponent + digits.length
  let dotPlace := if x.exponent ≤ 0 ∧ -6 < leftDigits then leftDigits else 1
  let mantissa :=
    if dotPlace ≤ 0 then ['0', '.'] ++ zeros (-dotPlace) ++ digits
    else if digits.length ≤ dotPlace then digits ++ zeros (dotPlace - digits.length)
    else digits.take dotPlace.toNat ++ ['.'] ++ digits.drop dotPlace.toNat
  let power := leftDigits - dotPlace
  let suffix :=
    if power = 0 then []
    else ['E', if power < 0 then '-' else '+'] ++ (toString power.natAbs).toList
  String.ofList ((if x.negative then ['-'] else []) ++ mantissa ++ suffix)

end WrittenDecimal

/-! ## Deliveries -/

/-- A trade of the exchange; the number tells trades without an id apart. -/
structure Trade where
  orderId : String
  number : ℕ
  exchangeTradeId : String
  quantity : ℚ
  price : ℚ
  deriving DecidableEq

/-- What becomes of a `SET`: its answer arrives, or an error is raised before or after it
    took effect. -/
inductive SetOutcome where
  | answered
  | lost
  | unanswered
  deriving DecidableEq

/-- A call of `add_fill` for a trade, in some notation of its figures, with the time since
    the call before and what becomes of its two Redis commands. -/
structure Delivery where
  trade : Trade
  quantity : WrittenDecimal
  price : WrittenDecimal
  quantity_eq : quantity.value = trade.quantity
  price_eq : price.value = trade.price
  fee : ℚ
  feeCurrency : String
  timestamp : String
  wait : ℕ
  checkFails : Bool
  registration : SetOutcome

/-- The fill that a delivery hands to the engine. -/
def Delivery.fill (d : Delivery) : FillData where
  filledQuantity := d.quantity.value
  fillPrice := d.price.value
  exchangeTradeId := d.trade.exchangeTradeId
  fee := d.fee
  feeCurrency := d.feeCurrency

/-! ## The manager -/

/-- `FillDeduplicationManager`. -/
structure FillDeduplicationManager where
  fillRegistryTtl : ℕ
  enableHashValidation : Bool

/-- A tenant that `add_fill` takes for given. -/
structure Tenant where
  id : String
  given : id ≠ ""

/-- The keys of the registry, with the second that each expires in. -/
abbrev Registry := String → Option ℕ

def Registry.registered (r : Registry) (now : ℕ) (key : String) : Bool :=
  match r key with
  | some expiry => now < expiry
  | none => false

/-- `hashlib.sha256(..).hexdigest()`. -/
def hexDigest (message : List UInt8) : List Char := Sha256.hex (Sha256.sha256 message)

/-- The stand-in of a trade without an id is its time. -/
def hashedTradeId (d : Delivery) : String :=
  if d.trade.exchangeTradeId = "" then "time_" ++ d.timestamp else d.trade.exchangeTradeId

/-- A member of `json.dumps(.., sort_keys=True)`, and what follows it. -/
def memberThen (key value : String) (rest : List Char) : List Char :=
  quoted key ++ ':' :: ' ' :: (quoted value ++ rest)

/-- The text that `generate_fill_hash` hashes. -/
def fillString (symbol side : String) (d : Delivery) : List Char :=
  '\x7b' :: memberThen "exchange_trade_id" (hashedTradeId d) (',' :: ' ' ::
    memberThen "fill_price" d.price.str (',' :: ' ' ::
    memberThen "filled_quantity" d.quantity.str (',' :: ' ' ::
    memberThen "order_id" d.trade.orderId (',' :: ' ' ::
    memberThen "side" side (',' :: ' ' ::
    memberThen "symbol" symbol ['\x7d'])))))

/-- `generate_fill_hash`. -/
def generateFillHash (symbol side : String) (d : Delivery) : List Char :=
  hexDigest ((fillString symbol side d).map fun c => c.toUInt8)

/-- `generate_fill_id`. -/
def generateFillId (fillHash : List Char) (d : Delivery) : String :=
  let text := d.trade.orderId ++ ":" ++ String.ofList fillHash ++ ":" ++ d.timestamp
  "fill_" ++ String.ofList ((hexDigest text.toUTF8.toList).take 16)

namespace FillDeduplicationManager

/-- The hash that `process_fill` deduplicates by. -/
def fillHash (m : FillDeduplicationManager) (symbol side : String) (d : Delivery) : List Char :=
  if m.enableHashValidation then generateFillHash symbol side d
  else hexDigest d.trade.exchangeTradeId.toUTF8.toList

def registryKey (m : FillDeduplicationManager) (tenant : Tenant) (symbol side : String)
    (d : Delivery) : String :=
  "fill_registry:" ++ tenant.id ++ ":" ++ String.ofList (m.fillHash symbol side d)

/-- `is_duplicate_fill`: a check that fails finds no duplicate. -/
def isDuplicateFill (r : Registry) (now : ℕ) (key : String) (checkFails : Bool) : Bool :=
  if checkFails then false else r.registered now key

/-- `register_fill`, whose `SET NX` leaves a key that exists as it is. -/
def registerFill (m : FillDeduplicationManager) (r : Registry) (now : ℕ) (key : String)
    (outcome : SetOutcome) : Bool × Registry :=
  let applied :=
    if r.registered now key then (false, r)
    else (true, Function.update r key (some (now + m.fillRegistryTtl)))
  match outcome with
  | .answered => applied
  | .lost => (false, r)
  | .unanswered => (false, applied.2)

/-- `process_fill`. -/
def processFill (m : FillDeduplicationManager) (tenant : Tenant) (symbol side : String)
    (r : Registry) (now : ℕ) (d : Delivery) : DedupResult × Registry :=
  let key := m.registryKey tenant symbol side d
  if isDuplicateFill r now key d.checkFails then (.duplicateRejected, r)
  else
    let (registered, r') := m.registerFill r now key d.registration
    if registered then (.processed (generateFillId (m.fillHash symbol side d) d), r')
    else (.duplicateRejected, r')

end FillDeduplicationManager

/-- The engine with the registry beside it, and the clock of the registry. -/
structure Desk where
  engine : OrderStateEngine
  registry : Registry
  clock : ℕ

/-- `add_fill` with a manager attached and a tenant given. -/
def Desk.addFill (m : FillDeduplicationManager) (tenant : Tenant) (s : Desk) (d : Delivery) :
    Desk :=
  let now := s.clock + d.wait
  match s.engine.activeOrders d.trade.orderId with
  | none => { s with clock := now }
  | some o =>
    let (dedup, registry) := m.processFill tenant o.symbol o.side s.registry now d
    { engine := s.engine.addFill now d.trade.orderId d.fill dedup
      registry := registry
      clock := now }

/-- The desk after a sequence of deliveries, from an empty registry. -/
def run (m : FillDeduplicationManager) (tenant : Tenant) (e : OrderStateEngine)
    (ds : List Delivery) : Desk :=
  ds.foldl (Desk.addFill m tenant) ⟨e, fun _ => none, 0⟩

/-! ## One delivery -/

/-- Whether a delivery for the order `o` finds its key in the registry. -/
def Desk.finds (m : FillDeduplicationManager) (tenant : Tenant) (s : Desk) (o : OrderLifecycle)
    (d : Delivery) : Bool :=
  s.registry.registered (s.clock + d.wait) (m.registryKey tenant o.symbol o.side d)

theorem processFill_eq (m : FillDeduplicationManager) (tenant : Tenant) (symbol side : String)
    (r : Registry) (now : ℕ) (d : Delivery) :
    m.processFill tenant symbol side r now d =
      if r.registered now (m.registryKey tenant symbol side d) then (.duplicateRejected, r)
      else
        (if d.registration = .answered then
            .processed (generateFillId (m.fillHash symbol side d) d)
          else .duplicateRejected,
        if d.registration = .lost then r
        else Function.update r (m.registryKey tenant symbol side d)
          (some (now + m.fillRegistryTtl))) := by
  unfold FillDeduplicationManager.processFill FillDeduplicationManager.isDuplicateFill
    FillDeduplicationManager.registerFill
  dsimp only
  cases h_found : r.registered now (m.registryKey tenant symbol side d) with
  | true => cases d.checkFails <;> cases d.registration <;> simp
  | false => cases d.checkFails <;> cases d.registration <;> simp

theorem addFill_activeOrders (m : FillDeduplicationManager) (tenant : Tenant) (s : Desk)
    (d : Delivery) (id : String) :
    ((s.addFill m tenant d).engine.activeOrders id) =
      if d.trade.orderId = id then
        (s.engine.activeOrders id).map fun o =>
          if s.finds m tenant o d = false ∧ d.registration = .answered then
            o.applyFill ((s.clock + d.wait : ℕ) : ℚ) d.fill
              (.processed (generateFillId (m.fillHash o.symbol o.side d) d))
          else o
      else s.engine.activeOrders id := by
  unfold Desk.addFill
  dsimp only
  split
  · rename_i h_none
    split_ifs with h_id
    · rw [← h_id, h_none, Option.map_none]
    · rfl
  · rename_i o h_o
    show (OrderStateEngine.change _ _ _).activeOrders id = _
    rw [change_activeOrders]
    by_cases h_id : d.trade.orderId = id
    · rw [if_pos h_id, if_pos h_id, ← h_id, h_o, Option.map_some, Option.map_some, processFill_eq]
      unfold Desk.finds
      cases s.registry.registered _ _ <;> cases d.registration <;> simp
    · rw [if_neg h_id, if_neg h_id]

structure EachTradeOnce (o : OrderLifecycle) (trades : Finset Trade) : Prop where
  count : o.fillHistory.length = trades.card
  total : o.totalFilled = ∑ trade ∈ trades, trade.quantity

/-- A delivery can be told from, or recognised as, what was delivered before: the first of
    its trade finds its key free and is answered, a later one finds its key or is not
    answered.  A quantity that counts fits in the digits of the total. -/
def Distinguished (m : FillDeduplicationManager) (tenant : Tenant) (s : Desk)
    (delivered : Finset Trade) (o : OrderLifecycle) (d : Delivery) : Prop :=
  if d.trade ∈ delivered then s.finds m tenant o d = true ∨ d.registration ≠ .answered
  else s.finds m tenant o d = false ∧ d.registration = .answered ∧
    decimalContext.Representable (o.totalFilled + d.trade.quantity)

/-- A delivery keeps the trades counted once exactly when it is distinguished. -/
theorem eachTradeOnce_insert_iff (m : FillDeduplicationManager) (tenant : Tenant) (s : Desk)
    {delivered : Finset Trade} {o o' : OrderLifecycle} {d : Delivery}
    (h_once : EachTradeOnce o delivered) (h_o : o ∈ s.engine.activeOrders d.trade.orderId)
    (h_o' : o' ∈ (s.addFill m tenant d).engine.activeOrders d.trade.orderId) :
    EachTradeOnce o' (insert d.trade delivered) ↔ Distinguished m tenant s delivered o d := by
  rw [addFill_activeOrders, if_pos rfl, show s.engine.activeOrders d.trade.orderId = some o from h_o,
    Option.map_some, Option.mem_some_iff] at h_o'
  unfold Distinguished
  subst h_o'
  by_cases h_applied : s.finds m tenant o d = false ∧ d.registration = .answered
  · rw [if_pos h_applied]
    have h_count : (o.applyFill ((s.clock + d.wait : ℕ) : ℚ) d.fill
        (.processed (generateFillId (m.fillHash o.symbol o.side d) d))).fillHistory.length
        = delivered.card + 1 := by
      rw [applyFill_fillHistory, List.length_append, h_once.count]
      rfl
    split_ifs with h_mem
    · refine iff_of_false (fun h => ?_) (by simp [h_applied])
      have h_card := h_count.symm.trans h.count
      rw [Finset.insert_eq_of_mem h_mem] at h_card
      omega
    · have h_sum : ∑ trade ∈ insert d.trade delivered, trade.quantity
          = o.totalFilled + d.trade.quantity := by
        rw [Finset.sum_insert h_mem, h_once.total, add_comm]
      have h_total : (o.applyFill ((s.clock + d.wait : ℕ) : ℚ) d.fill
          (.processed (generateFillId (m.fillHash o.symbol o.side d) d))).totalFilled
          = decimalContext.round (o.totalFilled + d.trade.quantity) := by
        rw [applyFill_totalFilled, show d.fill.filledQuantity = d.trade.quantity from d.quantity_eq]
        rfl
      constructor
      · intro h
        exact ⟨h_applied.1, h_applied.2, Decimal.Context.representable_iff.mpr
          (h_total.symm.trans (h.total.trans h_sum))⟩
      · intro h
        refine ⟨?_, ?_⟩
        · rw [h_count, Finset.card_insert_of_notMem h_mem]
        · rw [h_total, h_sum]
          exact Decimal.Context.representable_iff.mp h.2.2
  · rw [if_neg h_applied]
    split_ifs with h_mem
    · rw [Finset.insert_eq_of_mem h_mem]
      refine iff_of_true h_once ?_
      by_contra h_not
      push Not at h_not
      exact h_applied ⟨Bool.eq_false_iff.mpr h_not.1, h_not.2⟩
    · refine iff_of_false (fun h => ?_) (fun h => h_applied ⟨h.1, h.2.1⟩)
      have h_card := h_once.count.symm.trans h.count
      rw [Finset.card_insert_of_notMem h_mem] at h_card
      omega

/-! ## Runs -/

theorem run_append_singleton (m : FillDeduplicationManager) (tenant : Tenant)
    (e : OrderStateEngine) (ds : List Delivery) (d : Delivery) :
    run m tenant e (ds ++ [d]) = (run m tenant e ds).addFill m tenant d := by
  unfold run
  rw [List.foldl_append]
  rfl

/-- The distinct trades of the order `id` that were delivered. -/
def tradesOf (id : String) (ds : List Delivery) : Finset Trade :=
  ((ds.map Delivery.trade).filter fun trade => trade.orderId = id).toFinset

/-- Throughout the deliveries, the order `id` records every trade delivered so far once. -/
def CountsEachTradeOnce (m : FillDeduplicationManager) (tenant : Tenant) (e : OrderStateEngine)
    (id : String) (ds : List Delivery) : Prop :=
  ∀ pre, pre <+: ds → ∀ o ∈ (run m tenant e pre).engine.activeOrders id,
    EachTradeOnce o (tradesOf id pre)

/-- Every delivery for the order `id` is distinguished in the state that it meets. -/
def AllDistinguished (m : FillDeduplicationManager) (tenant : Tenant) (e : OrderStateEngine)
    (id : String) (ds : List Delivery) : Prop :=
  ∀ pre d post, ds = pre ++ d :: post → d.trade.orderId = id →
    ∀ o ∈ (run m tenant e pre).engine.activeOrders id,
      Distinguished m tenant (run m tenant e pre) (tradesOf id pre) o d

theorem tradesOf_append_singleton (id : String) (ds : List Delivery) (d : Delivery) :
    tradesOf id (ds ++ [d]) =
      if d.trade.orderId = id then insert d.trade (tradesOf id ds) else tradesOf id ds := by
  ext trade
  split_ifs with h_id
  · simp only [tradesOf, List.map_append, List.map_cons, List.map_nil, List.filter_append,
      List.toFinset_append, Finset.mem_union, List.mem_toFinset, List.mem_filter,
      List.mem_singleton, decide_eq_true_eq, Finset.mem_insert]
    constructor
    · rintro (h | ⟨h, -⟩)
      · exact .inr h
      · exact .inl h
    · rintro (rfl | h)
      · exact .inr ⟨rfl, h_id⟩
      · exact .inl h
  · simp [tradesOf, h_id]

theorem exists_mem_addFill (m : FillDeduplicationManager) (tenant : Tenant) {s : Desk}
    {o : OrderLifecycle} {id : String} (h_o : o ∈ s.engine.activeOrders id) (d : Delivery) :
    ∃ o', o' ∈ (s.addFill m tenant d).engine.activeOrders id := by
  rw [addFill_activeOrders, show s.engine.activeOrders id = some o from h_o]
  split
  · exact ⟨_, rfl⟩
  · exact ⟨_, rfl⟩

theorem exists_mem_of_mem_addFill {m : FillDeduplicationManager} {tenant : Tenant} {s : Desk}
    {o' : OrderLifecycle} {id : String} {d : Delivery}
    (h_o' : o' ∈ (s.addFill m tenant d).engine.activeOrders id) :
    ∃ o, o ∈ s.engine.activeOrders id := by
  rw [addFill_activeOrders] at h_o'
  split at h_o'
  · obtain ⟨o, h_o, -⟩ := Option.map_eq_some_iff.mp h_o'
    exact ⟨o, h_o⟩
  · exact ⟨o', h_o'⟩

/-- The run rule: each delivery may be distinguished on the strength of what the order
    recorded before it. -/
theorem eachTradeOnce_of_distinguished {m : FillDeduplicationManager} {tenant : Tenant}
    {e : OrderStateEngine} {id : String} {ds : List Delivery}
    (h_new : ∀ o ∈ e.activeOrders id, o.fillHistory = [] ∧ o.totalFilled = 0)
    (h : ∀ pre d post, ds = pre ++ d :: post → d.trade.orderId = id →
      ∀ o ∈ (run m tenant e pre).engine.activeOrders id, EachTradeOnce o (tradesOf id pre) →
        Distinguished m tenant (run m tenant e pre) (tradesOf id pre) o d) :
    CountsEachTradeOnce m tenant e id ds := by
  intro pre h_pre
  -- induction on the deliveries made so far
  induction pre using List.reverseRecOn with
  | nil =>
    intro o h_o
    obtain ⟨h_history, h_total⟩ := h_new o h_o
    exact ⟨by rw [h_history]; rfl, by rw [h_total]; rfl⟩
  | append_singleton pre d ih =>
    obtain ⟨post, rfl⟩ := h_pre
    have h_before := ih ⟨d :: post, by simp⟩
    intro o' h_o'
    rw [run_append_singleton] at h_o'
    rw [tradesOf_append_singleton]
    split_ifs with h_id
    · subst h_id
      obtain ⟨o, h_o⟩ := exists_mem_of_mem_addFill h_o'
      exact (eachTradeOnce_insert_iff m tenant _ (h_before o h_o) h_o h_o').mpr
        (h pre d post (by simp) rfl o h_o (h_before o h_o))
    · rw [addFill_activeOrders, if_neg h_id] at h_o'
      exact h_before o' h_o'

/-- An order that starts without fills records every delivered trade once, at every point
    of the deliveries, exactly when each delivery is distinguished. -/
theorem countsEachTradeOnce_iff (m : FillDeduplicationManager) (tenant : Tenant)
    (e : OrderStateEngine) (id : String) (ds : List Delivery)
    (h_new : ∀ o ∈ e.activeOrders id, o.fillHistory = [] ∧ o.totalFilled = 0) :
    CountsEachTradeOnce m tenant e id ds ↔ AllDistinguished m tenant e id ds := by
  constructor
  · rintro h pre d post rfl rfl o h_o
    obtain ⟨o', h_o'⟩ := exists_mem_addFill m tenant h_o d
    have h_next : pre ++ [d] <+: pre ++ d :: post := ⟨post, by simp⟩
    have h_after := h (pre ++ [d]) h_next o' (by rwa [run_append_singleton])
    rw [tradesOf_append_singleton, if_pos rfl] at h_after
    exact (eachTradeOnce_insert_iff m tenant _ (h pre ⟨d :: post, rfl⟩ o h_o) h_o h_o').mp h_after
  · intro h
    refine eachTradeOnce_of_distinguished h_new fun pre d post h_ds h_id o h_o _ => ?_
    exact h pre d post h_ds h_id o h_o

/-! ## Deliveries that lose a trade, or count it twice -/

/-- An order of two units, open on the exchange. -/
def openOrder : OrderStateEngine :=
  OrderEngine.run 30
    [.createOrder 0 "ord_1" "u" "BTCUSDT" "buy" "limit" 2 none, .submitOrder 0 "ord_1",
      .confirmOpen 0 "ord_1"]

theorem openOrder_new :
    ∀ o ∈ openOrder.activeOrders "ord_1", o.fillHistory = [] ∧ o.totalFilled = 0 := by
  intro o h_o
  cases h_o
  exact ⟨rfl, rfl⟩

def defaultManager : FillDeduplicationManager where
  fillRegistryTtl := 86400 * 30
  enableHashValidation := true

def tenantOne : Tenant := ⟨"tenant_1", by decide⟩

/-- A trade of one unit, told with some number of decimals. -/
def oneUnit (decimals : ℕ) (registration : SetOutcome) : Delivery where
  trade := ⟨"ord_1", 0, "t1", 1, 100⟩
  quantity := ⟨false, 10 ^ decimals, -decimals⟩
  price := ⟨false, 100, 0⟩
  quantity_eq := by
    rw [WrittenDecimal.value, zpow_neg, zpow_natCast]
    push_cast
    simp
  price_eq := by norm_num [WrittenDecimal.value]
  fee := 0
  feeCurrency := ""
  timestamp := "2024-01-01T00:00:00"
  wait := 1
  checkFails := false
  registration := registration

theorem oneUnit_iff :
    CountsEachTradeOnce defaultManager tenantOne openOrder "ord_1" [oneUnit 0 .answered] ↔
      AllDistinguished defaultManager tenantOne openOrder "ord_1" [oneUnit 0 .answered] :=
  countsEachTradeOnce_iff defaultManager tenantOne openOrder "ord_1" _ openOrder_new

/-- The trade of a delivery whose registration meets a Redis error is dropped. -/
theorem not_eachTradeOnce :
    ¬ ∀ m tenant e id ds,
      (∀ o ∈ e.activeOrders id, o.fillHistory = [] ∧ o.totalFilled = 0) →
      (∀ d ∈ ds, ∀ d' ∈ ds, d.trade.orderId = d'.trade.orderId →
        d.trade.exchangeTradeId = d'.trade.exchangeTradeId → d.trade.exchangeTradeId ≠ "" →
        d.trade = d'.trade) →
      ∀ o ∈ (run m tenant e ds).engine.activeOrders id, EachTradeOnce o (tradesOf id ds) := by
  intro h
  have h_total : ((run defaultManager tenantOne openOrder [oneUnit 0 .lost]).engine.activeOrders
      "ord_1").map (·.totalFilled) = some 0 := by decide +kernel
  obtain ⟨o, h_o, h_o_total⟩ := Option.map_eq_some_iff.mp h_total
  have h_once := h defaultManager tenantOne openOrder "ord_1" [oneUnit 0 .lost] openOrder_new
    (by simp) o h_o
  have h_trades : tradesOf "ord_1" [oneUnit 0 .lost] = {(oneUnit 0 .lost).trade} := rfl
  have h_sum := h_once.total
  rw [h_o_total, h_trades, Finset.sum_singleton] at h_sum
  exact absurd h_sum (by decide +kernel)

/-- The trade counts twice when it is told again with another number of decimals. -/
example : ((run defaultManager tenantOne openOrder
    [oneUnit 0 .answered, oneUnit 1 .answered]).engine.activeOrders "ord_1").map
      (·.totalFilled) = some 2 := by decide +kernel

end VyomQuant.FillDeduplication
