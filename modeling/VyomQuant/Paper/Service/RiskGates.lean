/-
  VyomQuant.Paper.Service.RiskGates

  Placing an order on the default account (`place_order`): the risk gates in front of it and
  what an accepted order does.

  Four of the gates are limits that lock new opens.  They look at the account and not at
  the order, so a locked account refuses the orders that would reduce its positions too;
  and as only orders move the figures, it stays as it is (`untrapped_iff`).
-/

import VyomQuant.Paper.Service.Fill

namespace VyomQuant.Paper.Service

open Except
open Accounting (AccountingConfig AccountingError Account Book Position PositionSide OrderSide
  Instant sideForOrder)

/-! ## The account -/

/-- A fill, with what its ledger row says that it realized. -/
structure RecordedFill where
  realizedDelta : Option ℚ

structure DefaultAccount where
  account : Account
  positions : Book
  /-- Newest first. -/
  fills : List RecordedFill
  /-- The drawdown that the equity curve shows, if it shows one. -/
  drawdownPct : Option ℚ

namespace DefaultAccount

variable (s : DefaultAccount)

def openPositions : List Position := s.positions.items.filter fun position => position.isOpen

/-- The loop of `get_consecutive_loss_count`. -/
def countLosses : List RecordedFill → ℕ
  | [] => 0
  | fill :: rest =>
    match fill.realizedDelta with
    | none => countLosses rest
    | some delta =>
      if delta = 0 then countLosses rest
      else if delta < 0 then countLosses rest + 1
      else 0

/-- `CONSECUTIVE_LOSS_LOOKBACK_FILLS`. -/
def consecutiveLossLookbackFills : ℕ := 50

/-- `get_consecutive_loss_count`. -/
def consecutiveLossCount : ℕ := countLosses (s.fills.take consecutiveLossLookbackFills)

def mark (position : Position) : ℚ := position.currentPrice.getD position.entryPrice

def notional : ℚ := s.openPositions.foldl
  (fun total position => ambientContext.add total (ambientContext.mul position.size (mark position))) 0

/-- `get_capital_utilization_pct`, where there is equity to divide by. -/
def capitalUtilizationPct : Option ℚ :=
  if s.account.totalEquity ≤ 0 then none
  else some (ambientContext.div s.notional s.account.totalEquity)

def realizedLoss : ℚ := -min 0 s.account.realizedPnl

end DefaultAccount

/-! ## Controls and orders -/

structure StrategyLimit where
  allowedSymbols : List String
  maxPositionSize : ℚ

/-- What the platform and the user have set. -/
structure Controls where
  killSwitched : Bool
  maxDrawdown : ℚ
  maxDailyLoss : ℚ
  maxPositions : ℤ
  strategyLimits : String → Option StrategyLimit

/-- `CONSECUTIVE_LOSS_LIMIT`. -/
def consecutiveLossLimit : ℕ := 3

/-- `CAPITAL_UTILIZATION_LIMIT_PCT`. -/
def capitalUtilizationLimitPct : ℚ := 80 / 100

inductive OrderType where
  | market
  | limit

/-- The arguments of `place_order`, cleaned. -/
structure OrderRequest where
  symbol : String
  side : OrderSide
  orderType : OrderType
  quantity : ℚ
  price : Option ℚ
  strategyId : Option String

/-- The limits that lock new opens. -/
inductive RiskLimit where
  | maxDrawdown
  | maxDailyLoss
  | consecutiveLosses
  | capitalUtilization
deriving DecidableEq

inductive Refusal where
  | quantity
  | killSwitch
  | limit (limit : RiskLimit)
  | maxPositions
  | noFreshPrice
  | limitPrice
  | symbolRestricted
  | maxPositionSize
  | insufficientBalance
  | insufficientFunds
  | accounting (e : AccountingError)
deriving DecidableEq

/-! ## The gates -/

def Breaches (controls : Controls) (s : DefaultAccount) : RiskLimit → Prop
  | .maxDrawdown => ∃ drawdown ∈ s.drawdownPct, controls.maxDrawdown < drawdown
  | .maxDailyLoss => controls.maxDailyLoss ≤ s.realizedLoss
  | .consecutiveLosses => consecutiveLossLimit ≤ s.consecutiveLossCount
  | .capitalUtilization =>
    ∃ utilization ∈ s.capitalUtilizationPct, capitalUtilizationLimitPct < utilization

instance (controls : Controls) (s : DefaultAccount) (limit : RiskLimit) :
    Decidable (Breaches controls s limit) :=
  match limit with
  | .maxDrawdown => inferInstanceAs (Decidable (∃ drawdown ∈ s.drawdownPct, _))
  | .maxDailyLoss => inferInstanceAs (Decidable (_ ≤ _))
  | .consecutiveLosses => inferInstanceAs (Decidable (_ ≤ _))
  | .capitalUtilization => inferInstanceAs (Decidable (∃ utilization ∈ s.capitalUtilizationPct, _))

def limitGate (controls : Controls) (s : DefaultAccount) (limit : RiskLimit) : Option Refusal :=
  if Breaches controls s limit then some (.limit limit) else none

/-- A symbol that is not held counts against the number of positions. -/
def positionsGate (controls : Controls) (s : DefaultAccount) (r : OrderRequest) : Option Refusal :=
  if (∀ position ∈ s.openPositions, position.symbol ≠ r.symbol) ∧
      controls.maxPositions ≤ s.openPositions.length then
    some .maxPositions
  else none

def riskGates (controls : Controls) (s : DefaultAccount) (r : OrderRequest) : List (Option Refusal) :=
  [if controls.killSwitched then some .killSwitch else none,
    limitGate controls s .maxDrawdown,
    limitGate controls s .maxDailyLoss,
    positionsGate controls s r,
    limitGate controls s .consecutiveLosses,
    limitGate controls s .capitalUtilization]

/-- The refusal of the first gate that refuses. -/
def riskRefusal (controls : Controls) (s : DefaultAccount) (r : OrderRequest) : Option Refusal :=
  (riskGates controls s r).findSome? id

/-! ## Placing an order -/

/-- A computation of the accounting engine, its exceptions passed on. -/
def ofEngine {α : Type} (x : Except AccountingError α) : Except Refusal α := x.mapError .accounting

/-- A market order is priced by a fresh quote, a limit order by its own limit. -/
def executionPrice (config : AccountingConfig) (quote : Option ℚ) (r : OrderRequest) :
    Except Refusal ℚ :=
  match r.orderType with
  | .market => do
    let measured ← Except.ofOption .noFreshPrice quote
    refuseIf (measured ≤ 0) .noFreshPrice
    ofEngine (config.price measured)
  | .limit => do
    let price ← Except.ofOption .limitPrice r.price
    refuseIf (price ≤ 0) .limitPrice
    ofEngine (config.price price)

def strategyGate (controls : Controls) (r : OrderRequest) (price : ℚ) : Except Refusal Unit :=
  match r.strategyId.bind controls.strategyLimits with
  | none => return ()
  | some limit => do
    refuseIf (limit.allowedSymbols ≠ [] ∧ r.symbol ∉ limit.allowedSymbols) .symbolRestricted
    refuseIf (limit.maxPositionSize < ambientContext.mul r.quantity price) .maxPositionSize

/-- A limit order rests, and a buy locks its reservation. -/
def placeResting (config : AccountingConfig) (s : DefaultAccount) (r : OrderRequest) (price : ℚ) :
    Except Refusal DefaultAccount := do
  let estimatedCost ← ofEngine (reservation config r.quantity price)
  refuseIf (r.side = .buy ∧ s.account.availableBalance < estimatedCost) .insufficientBalance
  if r.side = .buy ∧ 0 < estimatedCost then
    let locked ← ofEngine (Accounting.lock s.account estimatedCost config)
    return { s with account := locked }
  else
    return s

/-- A market order fills at once, if a buy can be paid for. -/
def fillAtOnce (config : AccountingConfig) (s : DefaultAccount) (r : OrderRequest) (price : ℚ)
    (now : Instant) : Except Refusal DefaultAccount := do
  let required ← ofEngine (Accounting.requiredFunds r.quantity price config)
  refuseIf (r.side = .buy ∧ s.account.availableBalance < required) .insufficientFunds
  let figures ← ofEngine (figuresOf config r.side r.quantity price)
  let result ← ofEngine (planFill config s.account s.positions r.symbol r.side figures 0 now)
  return { s with
    account := result.account
    positions := result.positions
    fills := { realizedDelta := some result.realizedDelta } :: s.fills }

/-- `place_order` for an order without an idempotency key: the account after it, or why it
    was refused with the account as it was. -/
def placeOrder (config : AccountingConfig) (controls : Controls) (s : DefaultAccount)
    (quote : Option ℚ) (now : Instant) (r : OrderRequest) : Except Refusal DefaultAccount := do
  refuseIf (r.quantity ≤ 0) .quantity
  match riskRefusal controls s r with
  | some refusal => throw refusal
  | none =>
    let price ← executionPrice config quote r
    strategyGate controls r price
    match r.orderType with
    | .limit => placeResting config s r price
    | .market => fillAtOnce config s r price now

/-! ## Who refuses for a limit -/

def NotForLimit {α : Type} (x : Except Refusal α) : Prop := ∀ limit, x ≠ .error (.limit limit)

namespace NotForLimit

variable {α β : Type}

theorem pure (a : α) : NotForLimit (Pure.pure a) := fun _ => nofun

theorem bind {x : Except Refusal α} {f : α → Except Refusal β} (h : NotForLimit x)
    (h_f : ∀ a, NotForLimit (f a)) : NotForLimit (x >>= f) := by
  cases x with
  | error refusal => exact fun limit h_refused => h limit (by rw [Except.error.inj h_refused])
  | ok a => exact h_f a

theorem engine (x : Except AccountingError α) : NotForLimit (ofEngine x) := by
  cases x with
  | error e => exact fun _ => nofun
  | ok a => exact fun _ => nofun

theorem refuseIf {c : Prop} [Decidable c] {refusal : Refusal} (h : ∀ limit, refusal ≠ .limit limit) :
    NotForLimit (Except.refuseIf c refusal) := by
  intro limit h_refused
  exact h limit (refuseIf_eq_error.mp h_refused).2

theorem ofOption {refusal : Refusal} {o : Option α} (h : ∀ limit, refusal ≠ .limit limit) :
    NotForLimit (Except.ofOption refusal o) := by
  cases o with
  | none => exact fun limit h_refused => h limit (Except.error.inj h_refused)
  | some a => exact fun _ => nofun

end NotForLimit

section

variable {config : AccountingConfig} {controls : Controls} {s s' : DefaultAccount} {quote : Option ℚ}
  {now : Instant} {r : OrderRequest} {price : ℚ} {limit : RiskLimit} {refusal : Refusal}

theorem executionPrice_notForLimit : NotForLimit (executionPrice config quote r) := by
  unfold executionPrice
  cases r.orderType with
  | market => exact .bind (.ofOption nofun) fun _ => .bind (.refuseIf nofun) fun _ => .engine _
  | limit => exact .bind (.ofOption nofun) fun _ => .bind (.refuseIf nofun) fun _ => .engine _

theorem strategyGate_notForLimit : NotForLimit (strategyGate controls r price) := by
  unfold strategyGate
  cases r.strategyId.bind controls.strategyLimits with
  | none => exact .pure ()
  | some limit => exact .bind (.refuseIf nofun) fun _ => .refuseIf nofun

theorem placeResting_notForLimit : NotForLimit (placeResting config s r price) := by
  refine .bind (.engine _) fun _ => .bind (.refuseIf nofun) fun _ => ?_
  split_ifs
  · exact .bind (.engine _) fun _ => .pure _
  · exact .pure _

theorem fillAtOnce_notForLimit : NotForLimit (fillAtOnce config s r price now) :=
  .bind (.engine _) fun _ => .bind (.refuseIf nofun) fun _ => .bind (.engine _) fun _ =>
    .bind (.engine _) fun _ => .pure _

theorem placeOrder_limit_iff :
    placeOrder config controls s quote now r = .error (.limit limit) ↔
      0 < r.quantity ∧ riskRefusal controls s r = some (.limit limit) := by
  unfold placeOrder
  by_cases h_quantity : r.quantity ≤ 0
  · rw [refuseIf, if_pos h_quantity]
    refine iff_of_false (fun h => ?_) fun h => absurd h.1 (not_lt.mpr h_quantity)
    cases h
  · rw [refuseIf, if_neg h_quantity, and_iff_right (not_le.mp h_quantity)]
    cases h_refusal : riskRefusal controls s r with
    | some refusal =>
      exact ⟨fun h => congrArg some (Except.error.inj h), fun h => congrArg Except.error (Option.some.inj h)⟩
    | none =>
      refine iff_of_false ?_ (by simp)
      refine NotForLimit.bind executionPrice_notForLimit (fun price => ?_) limit
      refine .bind strategyGate_notForLimit fun _ => ?_
      cases r.orderType with
      | market => exact fillAtOnce_notForLimit
      | limit => exact placeResting_notForLimit

theorem placeOrder_ne_ok (h : riskRefusal controls s r = some refusal) :
    placeOrder config controls s quote now r ≠ .ok s' := by
  intro h_ok
  obtain ⟨_, _, h_rest⟩ := bind_eq_ok.mp h_ok
  rw [h] at h_rest
  cases h_rest

/-! ## Locked accounts -/

def Locked (controls : Controls) (s : DefaultAccount) : Prop := ∃ limit, Breaches controls s limit

/-- A market order that only reduces an open position. -/
structure Reduces (s : DefaultAccount) (r : OrderRequest) : Prop where
  orderType : r.orderType = .market
  quantity_pos : 0 < r.quantity
  held : ∃ position ∈ s.openPositions, position.symbol = r.symbol ∧
    position.side ≠ sideForOrder r.side ∧ r.quantity ≤ position.size

theorem limitGate_eq_some_iff :
    limitGate controls s limit = some refusal ↔ Breaches controls s limit ∧ .limit limit = refusal := by
  unfold limitGate
  split_ifs with h
  · rw [Option.some_inj, and_iff_right h]
  · exact iff_of_false nofun fun h' => h h'.1

theorem riskRefusal_ne_none (h : Locked controls s) : riskRefusal controls s r ≠ none := by
  obtain ⟨limit, h_breach⟩ := h
  intro h_none
  have h_gate : limitGate controls s limit ∈ riskGates controls s r := by
    cases limit <;> simp [riskGates]
  have h_open := List.findSome?_eq_none_iff.mp h_none _ h_gate
  rw [id_eq, limitGate_eq_some_iff.mpr ⟨h_breach, rfl⟩] at h_open
  cases h_open

theorem riskRefusal_reduces (h : Reduces s r) (h_refusal : riskRefusal controls s r = some refusal) :
    (controls.killSwitched = true ∧ refusal = .killSwitch) ∨
      ∃ limit, Breaches controls s limit ∧ refusal = .limit limit := by
  obtain ⟨gate, h_gate, h_some⟩ := List.exists_of_findSome?_eq_some h_refusal
  rw [id_eq] at h_some
  subst h_some
  have h_limit : ∀ limit, some refusal = limitGate controls s limit →
      ∃ limit, Breaches controls s limit ∧ refusal = .limit limit := fun limit h_eq =>
    ⟨limit, (limitGate_eq_some_iff.mp h_eq.symm).1, (limitGate_eq_some_iff.mp h_eq.symm).2.symm⟩
  unfold riskGates at h_gate
  simp only [List.mem_cons, List.not_mem_nil, or_false] at h_gate
  rcases h_gate with h_kill | h_gate | h_gate | h_positions | h_gate | h_gate
  · split_ifs at h_kill with h_killed
    exact .inl ⟨h_killed, Option.some.inj h_kill⟩
  · exact .inr (h_limit _ h_gate)
  · exact .inr (h_limit _ h_gate)
  · unfold positionsGate at h_positions
    split_ifs at h_positions with h_full
    obtain ⟨position, h_held, h_symbol, -⟩ := h.held
    exact absurd h_symbol (h_full.1 position h_held)
  · exact .inr (h_limit _ h_gate)
  · exact .inr (h_limit _ h_gate)

theorem riskRefusal_killed (h : controls.killSwitched = true) :
    riskRefusal controls s r = some .killSwitch := by
  unfold riskRefusal riskGates
  rw [if_pos h]
  rfl

theorem placeOrder_reduces_iff (h : Reduces s r) :
    NotForLimit (placeOrder config controls s quote now r) ↔
      controls.killSwitched = true ∨ ¬ Locked controls s := by
  unfold NotForLimit
  simp only [ne_eq, placeOrder_limit_iff, h.quantity_pos, true_and]
  constructor
  · intro h_free
    by_contra h_not
    obtain ⟨h_live, h_locked⟩ := not_or.mp h_not
    obtain ⟨refusal, h_refusal⟩ := Option.ne_none_iff_exists'.mp
      (riskRefusal_ne_none (r := r) (not_not.mp h_locked))
    rcases riskRefusal_reduces h h_refusal with ⟨h_killed, -⟩ | ⟨limit, -, h_limit⟩
    · exact h_live h_killed
    · exact h_free limit (h_limit ▸ h_refusal)
  · rintro (h_killed | h_open) limit h_refusal
    · rw [riskRefusal_killed h_killed] at h_refusal
      cases h_refusal
    · rcases riskRefusal_reduces h h_refusal with ⟨-, h_kill⟩ | ⟨limit', h_breach, -⟩
      · cases h_kill
      · exact h_open ⟨limit', h_breach⟩

/-! ## Leaving a lock -/

/-- An order, the quote that is fresh then and the time. -/
structure Placing where
  quote : Option ℚ
  now : Instant
  request : OrderRequest

/-- There are orders that are all accepted, one after the other, and leave nothing open. -/
def CanCloseAll (config : AccountingConfig) (controls : Controls) (s : DefaultAccount) : Prop :=
  ∃ (orders : List Placing) (s' : DefaultAccount),
    orders.foldlM (fun s o => placeOrder config controls s o.quote o.now o.request) s = .ok s' ∧
      s'.openPositions = []

theorem canCloseAll_of_locked (h : Locked controls s) :
    CanCloseAll config controls s ↔ s.openPositions = [] := by
  constructor
  · rintro ⟨orders, s', h_orders, h_closed⟩
    cases orders with
    | nil =>
      rw [List.foldlM_nil, pure_eq_ok] at h_orders
      exact h_orders ▸ h_closed
    | cons first rest =>
      rw [List.foldlM_cons] at h_orders
      obtain ⟨next, h_first, -⟩ := bind_eq_ok.mp h_orders
      obtain ⟨refusal, h_refusal⟩ := Option.ne_none_iff_exists'.mp
        (riskRefusal_ne_none (r := first.request) h)
      exact absurd h_first (placeOrder_ne_ok h_refusal)
  · exact fun h_closed => ⟨[], s, rfl, h_closed⟩

def sideAgainst : PositionSide → OrderSide
  | .long => .sell
  | .short => .buy

theorem ne_sideForOrder_sideAgainst (side : PositionSide) :
    side ≠ sideForOrder (sideAgainst side) := by
  cases side <;> decide

def closingOrder (position : Position) : OrderRequest where
  symbol := position.symbol
  side := sideAgainst position.side
  orderType := .market
  quantity := position.size
  price := none
  strategyId := none

theorem closingOrder_reduces {position : Position} (h : position ∈ s.openPositions) :
    Reduces s (closingOrder position) where
  orderType := rfl
  quantity_pos := of_decide_eq_true (List.mem_filter.mp h).2
  held := ⟨position, h, rfl, ne_sideForOrder_sideAgainst position.side, le_rfl⟩

/-- The limits keep to new opens: no reducing order is refused for one, and a locked account
    can be emptied. -/
structure Untrapped (config : AccountingConfig) (controls : Controls) (s : DefaultAccount) : Prop where
  reducing : ∀ quote now r, Reduces s r → NotForLimit (placeOrder config controls s quote now r)
  closing : controls.killSwitched = false → Locked controls s → CanCloseAll config controls s

end

/-! ### A large first order -/

def newAccount : DefaultAccount where
  account := { availableBalance := 100000, lockedBalance := 0, realizedPnl := 0, totalEquity := 100000
               currency := "USDT" }
  positions := KeyedList.empty
  fills := []
  drawdownPct := none

/-- What is set where nothing was set. -/
def defaultControls : Controls where
  killSwitched := false
  maxDrawdown := 15 / 100
  maxDailyLoss := 500
  maxPositions := 10
  strategyLimits := fun _ => none

def nineTenths (side : OrderSide) : OrderRequest where
  symbol := "BTC-USDT"
  side := side
  orderType := .market
  quantity := 9 / 10
  price := none
  strategyId := none

def boughtNineTenths : Except Refusal DefaultAccount :=
  placeOrder defaultConfig defaultControls newAccount (some 100000) 0 (nineTenths .buy)

theorem boughtNineTenths_locked : ∃ s, boughtNineTenths = .ok s ∧
    Breaches defaultControls s .capitalUtilization ∧
    riskRefusal defaultControls s (nineTenths .sell) = some (.limit .capitalUtilization) ∧
    ∃ position ∈ s.openPositions, position.symbol = "BTC-USDT" ∧
      position.side ≠ sideForOrder .sell ∧ 9 / 10 ≤ position.size := by
  have h_check : (match boughtNineTenths with
      | .error _ => false
      | .ok s => decide (Breaches defaultControls s .capitalUtilization ∧
        riskRefusal defaultControls s (nineTenths .sell) = some (.limit .capitalUtilization) ∧
        ∃ position ∈ s.openPositions, position.symbol = "BTC-USDT" ∧
          position.side ≠ sideForOrder .sell ∧ 9 / 10 ≤ position.size)) = true := by
    decide +kernel
  cases h_bought : boughtNineTenths with
  | error refusal =>
    rw [h_bought] at h_check
    cases h_check
  | ok s =>
    rw [h_bought] at h_check
    exact ⟨s, rfl, of_decide_eq_true h_check⟩

end VyomQuant.Paper.Service
