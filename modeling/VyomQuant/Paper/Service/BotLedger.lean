/-
  VyomQuant.Paper.Service.BotLedger

  Fills of a bot on the default paper account (`paper/bot_paper_ledger.py`), for any number
  of calls of `record_fill` among other orders on the account.

  A sell is checked against the open long that the ledger shows, and its order is placed
  later, when the long may be another one.  A fill that is recorded is checked again when it
  is retried, against a long that it has reduced itself, and what `place_order` returns does
  not say that the order was there before.  Of an execution id the key keeps the last
  characters only (`idempotencyKeyFor_eq_ok_iff`).
-/

import Mathlib.Algebra.Order.Ring.Rat
import Mathlib.Data.List.DropRight
import Mathlib.Data.String.Basic
import VyomQuant.Lib.Run
import VyomQuant.Paper.Accounting.Types
import VyomQuant.Paper.Feed.Candle

namespace VyomQuant.Paper.BotLedger

open Accounting (OrderSide isSpace)
open Feed (strip)

/-- Why a fill is refused. -/
inductive Refusal where
  | noExecutionId
  | badSide
  | noPosition
  | exceedsPosition
  | unavailable
  deriving DecidableEq

/-! ## The idempotency key -/

def idempotencyPrefix : String := "botrunner"

def maxIdempotencyKey : ℕ := 128

/-- `raw[-keep:]`. -/
def tail (keep : ℕ) (raw : String) : String := String.ofList (raw.toList.drop (raw.length - keep))

def keep : ℕ := maxIdempotencyKey - idempotencyPrefix.length - 1

def idempotencyKeyFor (executionId : String) : Except Refusal String :=
  let raw := strip executionId
  if raw = "" then .error .noExecutionId
  else
    let key := idempotencyPrefix ++ ":" ++ raw
    if key.length ≤ maxIdempotencyKey then .ok key
    else .ok (idempotencyPrefix ++ ":" ++ tail keep raw)

theorem tail_of_length_le {n : ℕ} {raw : String} (h : raw.length ≤ n) : tail n raw = raw := by
  rw [tail, Nat.sub_eq_zero_of_le h, List.drop_zero, String.ofList_toList]

theorem idempotencyKeyFor_eq_ok_iff {executionId key : String} :
    idempotencyKeyFor executionId = .ok key ↔
      strip executionId ≠ "" ∧ key = idempotencyPrefix ++ ":" ++ tail keep (strip executionId) := by
  unfold idempotencyKeyFor
  dsimp only
  split
  · rename_i h_blank
    simp [h_blank]
  · rename_i h_raw
    have h_ok : ∀ text : String, (Except.ok text : Except Refusal String) = .ok key ↔ key = text :=
      fun text => ⟨fun h => (Except.ok.inj h).symm, fun h => h ▸ rfl⟩
    split
    · rename_i h_length
      have h_keep : (strip executionId).length ≤ keep := by
        rw [String.length_append] at h_length
        have h_head : (idempotencyPrefix ++ ":").length = 10 := by decide +kernel
        have h_kept : keep = 118 := by decide +kernel
        unfold maxIdempotencyKey at h_length
        omega
      rw [h_ok, tail_of_length_le h_keep, and_iff_right h_raw]
    · rw [h_ok, and_iff_right h_raw]

theorem key_eq_iff {executionId other key key' : String} (h : idempotencyKeyFor executionId = .ok key)
    (h' : idempotencyKeyFor other = .ok key') :
    key = key' ↔ tail keep (strip executionId) = tail keep (strip other) := by
  rw [(idempotencyKeyFor_eq_ok_iff.mp h).2, (idempotencyKeyFor_eq_ok_iff.mp h').2]
  exact String.append_right_inj _

/-! ## The account -/

/-- A row of `paper_orders`; orders that clients place may have no key. -/
structure Order where
  key : Option String
  symbol : String
  side : OrderSide
  size : ℚ
  deriving DecidableEq

/-- What is open in each symbol, negative for a short, and the recorded orders. -/
structure Account where
  position : String → ℚ
  orders : List Order

/-- What an order leaves open in its symbol. -/
def filled (open_ : ℚ) (order : Order) : ℚ :=
  match order.side with
  | .buy => open_ + order.size
  | .sell => open_ - order.size

namespace Account

def recorded (a : Account) (key : String) : Option Order :=
  a.orders.find? fun order => order.key = some key

def apply (a : Account) (order : Order) : Account where
  position := Function.update a.position order.symbol (filled (a.position order.symbol) order)
  orders := order :: a.orders

end Account

/-- `_order_body`: the columns of the order.  Nothing is put under `_idempotent_replay`. -/
structure OrderBody where
  order : Order
  idempotentReplay : Option Bool := none

/-- `_clean_symbol`, with `str.upper` as a parameter. -/
def cleanSymbol (upper : String → String) (symbol : String) : String :=
  String.ofList ((upper (strip symbol)).toList.map fun c => if c = '/' then '-' else c)

/-- The order with its symbol as `place_order` cleans it. -/
def Order.cleaned (upper : String → String) (order : Order) : Order :=
  { order with symbol := cleanSymbol upper order.symbol }

/-- `place_order` as one step: the order that is recorded under the key, or the order itself,
    unless the service does not accept it. -/
def placeOrder (upper : String → String) (accepted : Bool) (order : Order) (a : Account) :
    Except Refusal (OrderBody × Account) :=
  let order := order.cleaned upper
  if order.size ≤ 0 then .error .unavailable
  else
    match order.key.bind a.recorded with
    | some recorded => .ok ({ order := recorded }, a)
    | none => if accepted then .ok ({ order := order }, a.apply order) else .error .unavailable

/-! ## The calls of `record_fill` -/

structure Request where
  symbol : String
  side : String
  size : ℚ
  executionId : String

structure Settings where
  request : ℕ → Request
  upper : String → String

def cleanSide (side : String) : Except Refusal OrderSide :=
  let side := (strip side).toLower
  if side = "long" ∨ side = "buy" then .ok .buy
  else if side = "short" ∨ side = "sell" then .ok .sell
  else .error .badSide

/-- What `record_fill` makes of its arguments. -/
def prepare (upper : String → String) (r : Request) : Except Refusal Order := do
  let key ← idempotencyKeyFor r.executionId
  let side ← cleanSide r.side
  return { key := some key, symbol := cleanSymbol upper r.symbol, side := side, size := r.size }

def openLongSize (a : Account) (symbol : String) : ℚ :=
  if 0 < a.position symbol then a.position symbol else 0

def assertReduceOnly (a : Account) (symbol : String) (size : ℚ) : Except Refusal Unit :=
  let held := openLongSize a symbol
  if held ≤ 0 then .error .noPosition
  else if held < size then .error .exceedsPosition
  else .ok ()

structure LedgerFill where
  order : Order
  duplicate : Bool
  deriving DecidableEq

/-- `_read_back`, without the figures of the account. -/
def readBack (body : OrderBody) : LedgerFill where
  order := body.order
  duplicate := body.idempotentReplay.getD false

/-- Where a call stands. -/
inductive Phase where
  | called
  | placing
  | refused (refusal : Refusal)
  | returned (fill : LedgerFill)
  deriving DecidableEq

/-- The account, and the calls on it. -/
structure Sys where
  account : Account
  phase : ℕ → Phase

def Sys.goto (s : Sys) (call : ℕ) (phase : Phase) : Sys :=
  { s with phase := Function.update s.phase call phase }

variable (settings : Settings)

def check (call : ℕ) (s : Sys) : Sys :=
  match prepare settings.upper (settings.request call) with
  | .error refusal => s.goto call (.refused refusal)
  | .ok order =>
    match if order.side = .sell then assertReduceOnly s.account order.symbol order.size else .ok () with
    | .error refusal => s.goto call (.refused refusal)
    | .ok () => s.goto call .placing

/-- The order is placed, and the call returns. -/
def place (call : ℕ) (accepted : Bool) (s : Sys) : Sys :=
  match prepare settings.upper (settings.request call) with
  | .error refusal => s.goto call (.refused refusal)
  | .ok order =>
    match placeOrder settings.upper accepted order s.account with
    | .error refusal => s.goto call (.refused refusal)
    | .ok (body, account) => { s with account := account }.goto call (.returned (readBack body))

inductive Action where
  | check (call : ℕ)
  | place (call : ℕ) (accepted : Bool)
  | other (order : Order) (accepted : Bool)

/-- The next step of one call, or another order on the account. -/
def step (s : Sys) : Action → Except Refusal Sys
  | .check call => if s.phase call = .called then .ok (check settings call s) else .error .unavailable
  | .place call accepted =>
    if s.phase call = .placing then .ok (place settings call accepted s) else .error .unavailable
  | .other order accepted => do
    let (_, account) ← placeOrder settings.upper accepted order s.account
    return { s with account := account }

def start (account : Account) : Sys := { account := account, phase := fun _ => .called }

/-! ## What the bots are promised -/

/-- The call repeats one that has returned its fill. -/
def Retry (s : Sys) (call : ℕ) (fill : LedgerFill) : Prop :=
  ∃ first, settings.request first = settings.request call ∧ s.phase first = .returned fill

/-- A sell leaves no position below zero; a retry of a recorded fill is not refused and
    returns it as a duplicate; and two execution ids do not have one key. -/
def Lawful (s : Sys) : Action → Prop
  | .check call => s.phase call = .called →
      (∀ fill, Retry settings s call fill →
        ∀ refusal, (check settings call s).phase call ≠ .refused refusal) ∧
      ∀ other, s.phase other ≠ .called →
        (settings.request call).executionId ≠ (settings.request other).executionId →
        ∀ key key', idempotencyKeyFor (settings.request call).executionId = .ok key →
          idempotencyKeyFor (settings.request other).executionId = .ok key' → key ≠ key'
  | .place call accepted => s.phase call = .placing →
      (∀ symbol, (place settings call accepted s).account.position symbol < s.account.position symbol →
        0 ≤ (place settings call accepted s).account.position symbol) ∧
      ∀ fill, Retry settings s call fill →
        (place settings call accepted s).phase call = .returned { fill with duplicate := true }
  | .other _ _ => True

/-- A retried sell finds a long that still covers it, and two execution ids differ in what is
    kept of them.  The long covers a sell when its order is placed, and what is placed is not
    a retry. -/
def Meets (s : Sys) : Action → Prop
  | .check call => s.phase call = .called →
      (∀ fill, Retry settings s call fill →
        ∀ order, prepare settings.upper (settings.request call) = .ok order → order.side = .sell →
          0 < s.account.position order.symbol ∧ order.size ≤ s.account.position order.symbol) ∧
      ∀ other, s.phase other ≠ .called →
        (settings.request call).executionId ≠ (settings.request other).executionId →
        strip (settings.request call).executionId ≠ "" →
        strip (settings.request other).executionId ≠ "" →
        tail keep (strip (settings.request call).executionId) ≠
          tail keep (strip (settings.request other).executionId)
  | .place call accepted => s.phase call = .placing →
      (∀ order, prepare settings.upper (settings.request call) = .ok order → order.side = .sell →
        0 < order.size → order.key.bind s.account.recorded = none → accepted = true →
          order.size ≤ s.account.position (cleanSymbol settings.upper order.symbol)) ∧
      ∀ fill, ¬ Retry settings s call fill
  | .other _ _ => True

/-! ## The check -/

variable {settings : Settings} {s s' : Sys} {call : ℕ} {order : Order} {a : Account}

theorem assertReduceOnly_eq_ok_iff {symbol : String} {size : ℚ} :
    assertReduceOnly a symbol size = .ok () ↔ 0 < a.position symbol ∧ size ≤ a.position symbol := by
  unfold assertReduceOnly openLongSize
  dsimp only
  split
  · rename_i h_long
    rw [if_neg (not_le.mpr h_long), and_iff_right h_long, ← not_lt]
    split
    · rename_i h_less
      exact iff_of_false (fun h => by cases h) (not_not.mpr h_less)
    · rename_i h_less
      exact iff_of_true rfl h_less
  · rename_i h_long
    rw [if_pos le_rfl]
    exact iff_of_false (fun h => by cases h) fun h => h_long h.1

theorem check_refuses_iff (h : prepare settings.upper (settings.request call) = .ok order) :
    (∀ refusal, (check settings call s).phase call ≠ .refused refusal) ↔
      (order.side = .sell →
        0 < s.account.position order.symbol ∧ order.size ≤ s.account.position order.symbol) := by
  rw [← assertReduceOnly_eq_ok_iff]
  unfold check
  rw [h]
  dsimp only
  by_cases h_sell : order.side = .sell
  · rw [if_pos h_sell]
    cases h_assert : assertReduceOnly s.account order.symbol order.size with
    | error refusal => simp [Sys.goto, h_sell]
    | ok _ => simp [Sys.goto]
  · rw [if_neg h_sell]
    simp [Sys.goto, h_sell]

theorem keys_iff {executionId other : String} :
    (∀ key key', idempotencyKeyFor executionId = .ok key → idempotencyKeyFor other = .ok key' →
      key ≠ key') ↔
      (strip executionId ≠ "" → strip other ≠ "" →
        tail keep (strip executionId) ≠ tail keep (strip other)) := by
  constructor
  · intro h h_id h_other
    have h_key := idempotencyKeyFor_eq_ok_iff.mpr ⟨h_id, rfl⟩
    have h_key' := idempotencyKeyFor_eq_ok_iff.mpr ⟨h_other, rfl⟩
    exact fun h_tail => h _ _ h_key h_key' ((key_eq_iff h_key h_key').mpr h_tail)
  · intro h key key' h_key h_key' h_eq
    exact h (idempotencyKeyFor_eq_ok_iff.mp h_key).1 (idempotencyKeyFor_eq_ok_iff.mp h_key').1
      ((key_eq_iff h_key h_key').mp h_eq)

/-! ## The order -/

/-- What `place_order` did when it returned: it found the order, or applied it. -/
theorem placeOrder_eq_ok {upper : String → String} {accepted : Bool} {body : OrderBody} {a' : Account}
    (h : placeOrder upper accepted order a = .ok (body, a')) :
    body.idempotentReplay = none ∧ 0 < order.size ∧
      (a' = a ∨ order.key.bind a.recorded = none ∧ accepted = true ∧
        a' = a.apply (order.cleaned upper)) := by
  unfold placeOrder at h
  dsimp only at h
  split at h
  · cases h
  · rename_i h_size
    have h_pos := not_le.mp h_size
    split at h
    · cases h
      exact ⟨rfl, h_pos, .inl rfl⟩
    · rename_i h_fresh
      split at h
      · rename_i h_accepted
        cases h
        exact ⟨rfl, h_pos, .inr ⟨h_fresh, h_accepted, rfl⟩⟩
      · cases h

theorem placeOrder_fresh {upper : String → String} (h_size : 0 < order.size)
    (h_fresh : order.key.bind a.recorded = none) :
    placeOrder upper true order a =
      .ok ({ order := order.cleaned upper }, a.apply (order.cleaned upper)) := by
  unfold placeOrder
  dsimp only
  have h_pos : ¬ (order.cleaned upper).size ≤ 0 := not_le.mpr h_size
  have h_key : (order.cleaned upper).key.bind a.recorded = none := h_fresh
  rw [if_neg h_pos, h_key]
  rfl

theorem place_not_duplicate {accepted : Bool} {fill : LedgerFill} :
    (place settings call accepted s).phase call ≠ .returned { fill with duplicate := true } := by
  unfold place
  split
  · simp [Sys.goto]
  · split
    · simp [Sys.goto]
    · rename_i h_place
      have h_replay := (placeOrder_eq_ok h_place).1
      simp [Sys.goto, readBack, h_replay]

theorem position_apply_sell (order : Order) (h : order.side = .sell) :
    (a.apply order).position order.symbol = a.position order.symbol - order.size := by
  have h_amount : (a.apply order).position order.symbol = filled (a.position order.symbol) order :=
    Function.update_self ..
  rw [h_amount, filled, h]

theorem apply_lowers_iff (order : Order) {symbol : String} (h_size : 0 < order.size) :
    (a.apply order).position symbol < a.position symbol ↔ symbol = order.symbol ∧ order.side = .sell := by
  unfold Account.apply
  by_cases h_symbol : symbol = order.symbol
  · subst h_symbol
    cases h_side : order.side with
    | buy => simp [filled, h_side, h_size.le]
    | sell => simp [filled, h_side, h_size]
  · simp [h_symbol]

/-- The order takes a position below zero where the long does not cover it. -/
theorem place_kept_iff {accepted : Bool} :
    (∀ symbol, (place settings call accepted s).account.position symbol < s.account.position symbol →
      0 ≤ (place settings call accepted s).account.position symbol) ↔
    ∀ order, prepare settings.upper (settings.request call) = .ok order → order.side = .sell →
      0 < order.size → order.key.bind s.account.recorded = none → accepted = true →
        order.size ≤ s.account.position (cleanSymbol settings.upper order.symbol) := by
  constructor
  · intro h order h_order h_sell h_size h_fresh h_accepted
    have h_account : (place settings call accepted s).account =
        s.account.apply (order.cleaned settings.upper) := by
      unfold place
      rw [h_order, h_accepted]
      dsimp only
      rw [placeOrder_fresh h_size h_fresh]
      rfl
    rw [h_account] at h
    have h_left := h _ ((apply_lowers_iff (order.cleaned settings.upper) h_size).mpr ⟨rfl, h_sell⟩)
    rw [position_apply_sell (order.cleaned settings.upper) h_sell, sub_nonneg] at h_left
    exact h_left
  · intro h symbol h_lower
    revert h_lower
    unfold place
    split
    · exact fun h_lower => absurd h_lower (lt_irrefl _)
    · rename_i order h_order
      split
      · exact fun h_lower => absurd h_lower (lt_irrefl _)
      · rename_i body account h_place
        obtain ⟨-, h_size, rfl | ⟨h_fresh, h_accepted, rfl⟩⟩ := placeOrder_eq_ok h_place
        · exact fun h_lower => absurd h_lower (lt_irrefl _)
        · intro h_lower
          obtain ⟨rfl, h_sell⟩ := (apply_lowers_iff (order.cleaned settings.upper) h_size).mp h_lower
          have h_amount := position_apply_sell (a := s.account) (order.cleaned settings.upper) h_sell
          exact (sub_nonneg.mpr (h order h_order h_sell h_size h_fresh h_accepted)).trans_eq
            h_amount.symm

/-! ## Every run -/

/-- A call that returned its fill had sound arguments. -/
def Inv (settings : Settings) (s : Sys) : Prop :=
  ∀ call fill, s.phase call = .returned fill →
    ∃ order, prepare settings.upper (settings.request call) = .ok order

theorem Inv.goto (h : Inv settings s) {phase : Phase} (h_phase : ∀ fill, phase = .returned fill →
    ∃ order, prepare settings.upper (settings.request call) = .ok order) :
    Inv settings (s.goto call phase) := by
  intro other fill h_other
  by_cases h_call : other = call
  · subst h_call
    exact h_phase fill (by simpa [Sys.goto] using h_other)
  · exact h other fill (by simpa [Sys.goto, h_call] using h_other)

theorem inv_step {action : Action} (h : Inv settings s) (h_step : step settings s action = .ok s') :
    Inv settings s' := by
  cases action with
  | check call =>
    simp only [step] at h_step
    split at h_step
    · cases h_step
      unfold check
      split
      · exact h.goto fun fill h_fill => by cases h_fill
      · split
        · exact h.goto fun fill h_fill => by cases h_fill
        · exact h.goto fun fill h_fill => by cases h_fill
    · cases h_step
  | place call accepted =>
    simp only [step] at h_step
    split at h_step
    · cases h_step
      unfold place
      split
      · exact h.goto fun fill h_fill => by cases h_fill
      · rename_i order h_order
        split
        · exact h.goto fun fill h_fill => by cases h_fill
        · have h_account : ∀ account, Inv settings { s with account := account } := fun _ => h
          exact (h_account _).goto fun fill _ => ⟨order, h_order⟩
    · cases h_step
  | other order accepted =>
    obtain ⟨placed, -, rfl⟩ := Except.bind_pure_eq_ok.mp h_step
    exact h

theorem lawful_step_iff (h : Inv settings s) (action : Action) :
    Lawful settings s action ↔ Meets settings s action := by
  cases action with
  | check call =>
    refine imp_congr_right fun _ => and_congr ?_ ?_
    · refine forall_congr' fun fill => imp_congr_right fun h_retry => ?_
      obtain ⟨first, h_request, h_phase⟩ := h_retry
      obtain ⟨order, h_order⟩ := h first fill h_phase
      rw [h_request] at h_order
      rw [check_refuses_iff h_order]
      constructor
      · intro h_covered order' h_order'
        cases h_order.symm.trans h_order'
        exact h_covered
      · intro h_covered
        exact h_covered order h_order
    · exact forall_congr' fun other => imp_congr_right fun _ => imp_congr_right fun _ => keys_iff
  | place call accepted =>
    refine imp_congr_right fun _ => and_congr place_kept_iff ?_
    exact forall_congr' fun fill => imp_congr_right fun _ => iff_of_false place_not_duplicate id
  | other order accepted => exact Iff.rfl

/-- In every run, each step does what is promised exactly where it meets the condition. -/
theorem lawful_iff (settings : Settings) (account : Account) (actions : List Action) :
    Run.Throughout (step settings) (Lawful settings) (start account) actions ↔
      Run.Throughout (step settings) (Meets settings) (start account) actions := by
  have h_inv : ∀ actions, Inv settings (Run.final (step settings) (start account) actions) :=
    fun actions => Run.final_invariant (P := fun _ => True) (fun _ _ _ h _ h_step => inv_step h h_step)
      (fun call fill h => by cases h) fun _ _ => trivial
  refine forall_congr' fun before => forall_congr' fun action => forall_congr' fun rest => ?_
  exact imp_congr_right fun _ => lawful_step_iff (h_inv before) action

/-! ## Where it fails -/

def sellOfOne (executionId : String) : Request where
  symbol := "BTC/USDT"
  side := "sell"
  size := 1
  executionId := executionId

def longOfOne : Account where
  position symbol := if symbol = "BTC-USDT" then 1 else 0
  orders := []

/-- Calls that sell it, each under its own execution id or all under the first. -/
def sells (executionId : ℕ → String) : Settings where
  request call := sellOfOne (executionId call)
  upper := id

def shortId (call : ℕ) : String := if call = 0 then "exec_a" else "exec_b"

/-- Two ids of 119 characters that differ in the first. -/
def longId (call : ℕ) : String :=
  String.ofList ((if call = 0 then 'a' else 'b') :: List.replicate 118 'x')

theorem strip_longId (call : ℕ) : strip (longId call) = longId call := by
  have h_space : ∀ c ∈ (longId call).toList, isSpace c = false := by
    intro c h
    rw [longId, String.toList_ofList, List.mem_cons, List.mem_replicate] at h
    obtain rfl | ⟨-, rfl⟩ := h
    · split <;> decide
    · decide
  have h_left : (longId call).toList.dropWhile isSpace = (longId call).toList :=
    List.dropWhile_eq_self_iff.mpr fun h_pos => by simp [h_space _ (List.getElem_mem h_pos)]
  have h_right : (longId call).toList.rdropWhile isSpace = (longId call).toList :=
    List.rdropWhile_eq_self_iff.mpr fun h_ne => by simp [h_space _ (List.getLast_mem h_ne)]
  rw [strip, h_left]
  exact (congrArg String.ofList h_right).trans String.ofList_toList

theorem tail_longId (call : ℕ) :
    tail keep (longId call) = String.ofList (List.replicate 118 'x') := by
  have h_keep : keep = 118 := by decide +kernel
  rw [tail, longId, String.length_ofList, String.toList_ofList, h_keep, List.length_cons,
    List.length_replicate]
  rfl

theorem check_eq_goto : ∃ phase, check settings call s = s.goto call phase ∧ phase ≠ .called := by
  unfold check
  split
  · exact ⟨_, rfl, nofun⟩
  · split
    · exact ⟨_, rfl, nofun⟩
    · exact ⟨_, rfl, nofun⟩

/-- Two sells pass the check before either is placed; a sell that closed the position is
    refused when it is retried; and two long execution ids have one key. -/
theorem not_lawful_sells :
    ¬ Run.Throughout (step (sells shortId)) (Lawful (sells shortId)) (start longOfOne)
        [.check 0, .check 1, .place 0 true, .place 1 true] ∧
      ¬ Run.Throughout (step (sells fun _ => "exec_a")) (Lawful (sells fun _ => "exec_a"))
        (start longOfOne) [.check 0, .place 0 true, .check 1] ∧
      ¬ Run.Throughout (step (sells longId)) (Lawful (sells longId)) (start longOfOne)
        [.check 0, .check 1] := by
  refine ⟨fun h => ?_, fun h => ?_, fun h => ?_⟩
  · have h_place := h [.check 0, .check 1, .place 0 true] (.place 1 true) [] rfl
    have h_kept := (h_place (by decide +kernel)).1 "BTC-USDT" (by decide +kernel)
    exact absurd h_kept (by decide +kernel)
  · have h_check := h [.check 0, .place 0 true] (.check 1) [] rfl
    have h_first : Retry (sells fun _ => "exec_a")
        (Run.final (step (sells fun _ => "exec_a")) (start longOfOne) [.check 0, .place 0 true]) 1
        { order := { key := some "botrunner:exec_a", symbol := "BTC-USDT", side := .sell, size := 1 }
          duplicate := false } := ⟨0, rfl, by decide +kernel⟩
    exact (h_check (by decide +kernel)).1 _ h_first .noPosition (by decide +kernel)
  · have h_check := h [.check 0] (.check 1) [] rfl
    obtain ⟨phase, h_first, h_phase⟩ := @check_eq_goto (sells longId) (start longOfOne) 0
    have h_step : step (sells longId) (start longOfOne) (.check 0) =
        .ok ((start longOfOne).goto 0 phase) := by
      rw [step, h_first]
      exact if_pos rfl
    have h_final : Run.final (step (sells longId)) (start longOfOne) [.check 0] =
        (start longOfOne).goto 0 phase := by
      rw [Run.final, List.foldl_cons, List.foldl_nil, Run.attempt, h_step]
    rw [h_final] at h_check
    have h_ids : longId 1 ≠ longId 0 := fun h_same =>
      absurd (List.cons.inj (String.ofList_injective h_same)).1 (by decide)
    have h_key : ∀ call, idempotencyKeyFor (longId call) =
        .ok (idempotencyPrefix ++ ":" ++ String.ofList (List.replicate 118 'x')) := by
      intro call
      rw [idempotencyKeyFor_eq_ok_iff, strip_longId, tail_longId, and_iff_left rfl, longId]
      exact mt String.ofList_eq_empty_iff.mp (List.cons_ne_nil _ _)
    exact (h_check rfl).2 0 h_phase h_ids _ _ (h_key 1) (h_key 0) rfl

end VyomQuant.Paper.BotLedger
