/-
  VyomQuant.Risk.PortfolioEngine

  Capital for symbols by the strength of their signals, and the plan that moves a book to a
  new allocation (`core/portfolio_engine.py`), in exact arithmetic.

  The strongest signals share the capital in proportion to their strength, no one above a
  cap.  The whole stays within the capital whatever the signs; a negative strength among them
  gets a negative amount where the others outweigh it.

  A plan is right for the book that it is computed from (`moves_plan_iff`).  `rebalance`
  computes it from what the engine keeps, which by then is the new allocation.
-/

import Mathlib.Data.List.Sort
import Mathlib.Data.Rat.Lemmas
import Mathlib.Algebra.Order.Ring.Rat
import Mathlib.Tactic.Linarith
import VyomQuant.Lib.KeyedList
import VyomQuant.Lib.Shares

namespace VyomQuant.Portfolio

/-! ## Dictionaries by symbol -/

abbrev Dict (α : Type) := KeyedList (Prod.fst : String × α → String)

section Dict

variable {α : Type}

def symbols (d : Dict α) : List String := d.items.map Prod.fst

def value? (d : Dict α) (symbol : String) : Option α := (d.get? symbol).map Prod.snd

/-- `d.get(symbol, 0)`. -/
def amount (d : Dict ℚ) (symbol : String) : ℚ := (value? d symbol).getD 0

theorem value?_of_mem {d : Dict α} {p : String × α} (h : p ∈ d.items) : value? d p.1 = some p.2 := by
  rw [value?, KeyedList.get?_key_of_mem h]
  rfl

theorem amount_of_mem {d : Dict ℚ} {p : String × ℚ} (h : p ∈ d.items) : amount d p.1 = p.2 := by
  rw [amount, value?_of_mem h]
  rfl

theorem value?_eq_none_iff {d : Dict α} {symbol : String} :
    value? d symbol = none ↔ symbol ∉ symbols d := by
  rw [value?, Option.map_eq_none_iff, KeyedList.get?_eq_none_iff, symbols, List.mem_map]
  exact ⟨fun h h_mem => h_mem.elim fun p h_p => h p h_p.1 h_p.2, fun h p h_p h_eq => h ⟨p, h_p, h_eq⟩⟩

theorem amount_of_not_mem {d : Dict ℚ} {symbol : String} (h : symbol ∉ symbols d) :
    amount d symbol = 0 := by
  rw [amount, value?_eq_none_iff.mpr h]
  rfl

end Dict

/-! ## The engine -/

/-- `PortfolioEngine`, without the positions that are tracked beside the allocations. -/
structure PortfolioEngine where
  totalCapital : ℚ
  maxPositions : ℕ
  maxAllocationPerAsset : ℚ
  currentAllocations : Dict ℚ

/-- The strongest signals; equal ones in the order they came in. -/
def selected (maxPositions : ℕ) (signals : Dict ℚ) : List (String × ℚ) :=
  (signals.items.insertionSort fun a b => b.2 ≤ a.2).take maxPositions

theorem nodup_selected (maxPositions : ℕ) (signals : Dict ℚ) :
    ((selected maxPositions signals).map Prod.fst).Nodup := by
  have h_sorted : ((signals.items.insertionSort fun a b => b.2 ≤ a.2).map Prod.fst).Nodup :=
    ((List.perm_insertionSort _ signals.items).map Prod.fst).nodup_iff.mpr signals.nodup
  exact h_sorted.sublist ((List.take_sublist _ _).map _)

def totalSignal (chosen : List (String × ℚ)) : ℚ := (chosen.map Prod.snd).sum

/-- The capital of one selected symbol. -/
def capital (e : PortfolioEngine) (total strength : ℚ) : ℚ :=
  let weight := if 0 < total then strength / total else 0
  min (weight * e.totalCapital) (e.totalCapital * e.maxAllocationPerAsset)

def allocation (e : PortfolioEngine) (signals : Dict ℚ) : Dict ℚ :=
  let chosen := selected e.maxPositions signals
  ⟨chosen.map fun p => (p.1, capital e (totalSignal chosen) p.2), by
    rw [List.map_map]
    exact nodup_selected e.maxPositions signals⟩

/-- What is allocated, and the engine that remembers it.  Without signals nothing is
    allocated, and nothing is forgotten. -/
def allocate (e : PortfolioEngine) (signals : Dict ℚ) : Dict ℚ × PortfolioEngine :=
  if signals.items = [] then (KeyedList.empty, e)
  else (allocation e signals, { e with currentAllocations := allocation e signals })

/-- For each symbol the target, and what there is. -/
def plan (newAllocations currentAllocations : Dict ℚ) : Dict (ℚ × ℚ) :=
  ⟨newAllocations.items.map (fun p => (p.1, (p.2, amount currentAllocations p.1))) ++
    (currentAllocations.items.filter fun p => p.1 ∉ symbols newAllocations).map
      fun p => (p.1, (0, p.2)), by
    rw [List.map_append, List.map_map, List.map_map]
    refine List.nodup_append.mpr ⟨newAllocations.nodup, ?_, ?_⟩
    · exact currentAllocations.nodup.sublist (List.filter_sublist.map _)
    · rintro symbol h_new other h_dropped rfl
      obtain ⟨p, h_p, rfl⟩ := List.mem_map.mp h_dropped
      exact of_decide_eq_true (List.mem_filter.mp h_p).2 h_new⟩

def rebalance (e : PortfolioEngine) (newSignals : Dict ℚ) : Dict (ℚ × ℚ) × PortfolioEngine :=
  let (newAllocations, e) := allocate e newSignals
  (plan newAllocations e.currentAllocations, e)

/-! ## What the calls are to ensure -/

/-- The range of the settings. -/
structure Admissible (e : PortfolioEngine) : Prop where
  capital_pos : 0 < e.totalCapital
  positions_pos : 1 ≤ e.maxPositions
  cap_pos : 0 < e.maxAllocationPerAsset
  cap_le_one : e.maxAllocationPerAsset ≤ 1

structure InBudget (e : PortfolioEngine) (book : Dict ℚ) : Prop where
  nonneg : ∀ p ∈ book.items, 0 ≤ p.2
  capped : ∀ p ∈ book.items, p.2 ≤ e.maxAllocationPerAsset * e.totalCapital
  count : book.items.length ≤ e.maxPositions
  total : (book.items.map Prod.snd).sum ≤ e.totalCapital

def change (reported : Dict (ℚ × ℚ)) (symbol : String) : ℚ :=
  ((value? reported symbol).map fun p => p.1 - p.2).getD 0

/-- A plan reports each symbol of either book with its target and its present amount, and
    applying it leads from the one book to the other. -/
structure Moves (previous target : Dict ℚ) (reported : Dict (ℚ × ℚ)) : Prop where
  reports : ∀ symbol, symbol ∈ symbols previous ∨ symbol ∈ symbols target →
    value? reported symbol = some (amount target symbol, amount previous symbol)
  applies : ∀ symbol, amount previous symbol + change reported symbol = amount target symbol

/-! ## The calls of a run -/

inductive Call where
  | allocate (signals : Dict ℚ)
  | rebalance (signals : Dict ℚ)

/-- The engine, and what the last call allocated. -/
structure State where
  engine : PortfolioEngine
  book : Dict ℚ

def State.after (s : State) : Call → State
  | .allocate signals => ⟨(allocate s.engine signals).2, (allocate s.engine signals).1⟩
  | .rebalance signals => ⟨(rebalance s.engine signals).2, (allocate s.engine signals).1⟩

def start (totalCapital : ℚ) (maxPositions : ℕ) (maxAllocationPerAsset : ℚ) : State :=
  ⟨{ totalCapital := totalCapital, maxPositions := maxPositions
     maxAllocationPerAsset := maxAllocationPerAsset, currentAllocations := KeyedList.empty },
    KeyedList.empty⟩

/-- `M` holds of every call in the state that it meets. -/
def Throughout (M : State → Call → Prop) : State → List Call → Prop
  | _, [] => True
  | s, call :: rest => M s call ∧ Throughout M (s.after call) rest

def Lawful (s : State) : Call → Prop
  | .allocate signals => InBudget s.engine (allocate s.engine signals).1
  | .rebalance signals => InBudget s.engine (allocate s.engine signals).1 ∧
      Moves s.book (allocate s.engine signals).1 (rebalance s.engine signals).1

/-- No selected strength is negative, or together they come to nothing. -/
def Backed (e : PortfolioEngine) (signals : Dict ℚ) : Prop :=
  (∀ p ∈ selected e.maxPositions signals, 0 ≤ p.2) ∨
    totalSignal (selected e.maxPositions signals) ≤ 0

/-- Nothing has to move: the book already holds for each selected symbol its share of the
    capital or the cap, and no other symbol.  Without signals it has to be what the engine
    remembers. -/
def Unmoved (s : State) (signals : Dict ℚ) : Prop :=
  if signals.items = [] then
    (∀ symbol ∈ symbols s.book, symbol ∈ symbols s.engine.currentAllocations) ∧
      ∀ p ∈ s.engine.currentAllocations.items, amount s.book p.1 = p.2
  else
    let chosen := selected s.engine.maxPositions signals
    (∀ symbol ∈ symbols s.book, symbol ∈ chosen.map Prod.fst) ∧
      ∀ p ∈ chosen, amount s.book p.1 = Shares.share s.engine.totalCapital
        (s.engine.totalCapital * s.engine.maxAllocationPerAsset) (totalSignal chosen) p.2

def Meets (s : State) : Call → Prop
  | .allocate signals => Backed s.engine signals
  | .rebalance signals => Backed s.engine signals ∧ Unmoved s signals

instance (e : PortfolioEngine) (signals : Dict ℚ) : Decidable (Backed e signals) :=
  inferInstanceAs (Decidable (_ ∨ _))

instance (s : State) (signals : Dict ℚ) : Decidable (Unmoved s signals) := by
  unfold Unmoved
  infer_instance

instance (s : State) : (call : Call) → Decidable (Meets s call)
  | .allocate signals => inferInstanceAs (Decidable (Backed s.engine signals))
  | .rebalance signals => inferInstanceAs (Decidable (Backed s.engine signals ∧ Unmoved s signals))

/-! ## What is allocated -/

variable {e : PortfolioEngine} {signals : Dict ℚ}

theorem Admissible.maxCap_pos (h : Admissible e) : 0 < e.totalCapital * e.maxAllocationPerAsset :=
  mul_pos h.capital_pos h.cap_pos

theorem forall_mem_allocation {P : ℚ → Prop} :
    (∀ p ∈ (allocation e signals).items, P p.2) ↔
      ∀ p ∈ selected e.maxPositions signals,
        P (capital e (totalSignal (selected e.maxPositions signals)) p.2) := by
  constructor
  · intro h p h_p
    exact h _ (List.mem_map_of_mem h_p)
  · intro h p h_p
    obtain ⟨q, h_q, rfl⟩ := List.mem_map.mp h_p
    exact h q h_q

theorem amount_allocation {p : String × ℚ} (h : p ∈ selected e.maxPositions signals) :
    amount (allocation e signals) p.1 =
      capital e (totalSignal (selected e.maxPositions signals)) p.2 := by
  have h_mem : (p.1, capital e (totalSignal (selected e.maxPositions signals)) p.2) ∈
      (allocation e signals).items := List.mem_map.mpr ⟨p, h, rfl⟩
  exact amount_of_mem h_mem

theorem allocation_nonneg_iff (h : Admissible e) :
    (∀ p ∈ (allocation e signals).items, 0 ≤ p.2) ↔ Backed e signals := by
  have h_iff := Shares.share_nonneg_iff h.capital_pos h.maxCap_pos.le
    ((selected e.maxPositions signals).map Prod.snd)
    (totalSignal (selected e.maxPositions signals))
  simp only [List.forall_mem_map] at h_iff
  exact forall_mem_allocation.trans h_iff

theorem inBudget_allocation_iff (h : Admissible e) :
    InBudget e (allocation e signals) ↔ Backed e signals := by
  rw [← allocation_nonneg_iff h]
  constructor
  · exact InBudget.nonneg
  · intro h_nonneg
    refine ⟨h_nonneg, ?_, ?_, ?_⟩
    · rw [mul_comm]
      refine (forall_mem_allocation (P := fun a => a ≤ _)).mpr fun p _ => ?_
      exact Shares.share_le_cap p.2
    · have h_length : (allocation e signals).items.length ≤ e.maxPositions := by
        rw [allocation, List.length_map]
        exact List.length_take_le ..
      exact h_length
    · have h_sum := Shares.sum_share_le h.capital_pos.le
        (e.totalCapital * e.maxAllocationPerAsset) ((selected e.maxPositions signals).map Prod.snd)
      rw [List.map_map] at h_sum
      have h_amounts : (allocation e signals).items.map Prod.snd =
          (selected e.maxPositions signals).map
            (capital e (totalSignal (selected e.maxPositions signals)) ∘ Prod.snd) := by
        rw [allocation, List.map_map]
        rfl
      rw [h_amounts]
      exact h_sum

theorem inBudget_empty (h : Admissible e) : InBudget e KeyedList.empty where
  nonneg := List.forall_mem_nil _
  capped := List.forall_mem_nil _
  count := Nat.zero_le _
  total := h.capital_pos.le

theorem inBudget_iff (h : Admissible e) :
    InBudget e (allocate e signals).1 ↔ Backed e signals := by
  unfold allocate
  split
  · rename_i h_nil
    refine iff_of_true (inBudget_empty h) (.inl ?_)
    simp [selected, h_nil]
  · exact inBudget_allocation_iff h

/-! ## What a plan reports -/

variable {previous target current : Dict ℚ} {symbol : String}

theorem mem_symbols {d : Dict ℚ} : symbol ∈ symbols d ↔ ∃ p ∈ d.items, p.1 = symbol := List.mem_map

theorem value?_plan (h : symbol ∈ symbols target ∨ symbol ∈ symbols current) :
    value? (plan target current) symbol = some (amount target symbol, amount current symbol) := by
  by_cases h_target : symbol ∈ symbols target
  · obtain ⟨p, h_p, rfl⟩ := mem_symbols.mp h_target
    have h_mem : (p.1, (p.2, amount current p.1)) ∈ (plan target current).items :=
      List.mem_append_left _ (List.mem_map.mpr ⟨p, h_p, rfl⟩)
    rw [amount_of_mem h_p]
    exact value?_of_mem h_mem
  · obtain ⟨p, h_p, rfl⟩ := mem_symbols.mp (h.resolve_left h_target)
    have h_mem : (p.1, ((0 : ℚ), p.2)) ∈ (plan target current).items :=
      List.mem_append_right _ (List.mem_map.mpr
        ⟨p, List.mem_filter.mpr ⟨h_p, decide_eq_true h_target⟩, rfl⟩)
    rw [amount_of_not_mem h_target, amount_of_mem h_p]
    exact value?_of_mem h_mem

theorem value?_plan_eq_none (h : ¬ (symbol ∈ symbols target ∨ symbol ∈ symbols current)) :
    value? (plan target current) symbol = none := by
  rw [value?_eq_none_iff]
  intro h_mem
  apply h
  unfold symbols plan at h_mem
  rw [List.map_append, List.mem_append, List.map_map, List.map_map] at h_mem
  rcases h_mem with h_mem | h_mem
  · exact .inl h_mem
  · obtain ⟨p, h_p, rfl⟩ := List.mem_map.mp h_mem
    exact .inr (List.mem_map_of_mem (List.mem_filter.mp h_p).1)

/-- A plan is right for a book that has the amounts it was computed from. -/
theorem moves_plan_iff :
    Moves previous target (plan target current) ↔
      (∀ symbol ∈ symbols previous, symbol ∈ symbols target ∨ symbol ∈ symbols current) ∧
        ∀ symbol, symbol ∈ symbols target ∨ symbol ∈ symbols current →
          amount previous symbol = amount current symbol := by
  constructor
  · intro h
    refine ⟨fun symbol h_previous => ?_, fun symbol h_reported => ?_⟩
    · by_contra h_not
      have h_reports := h.reports symbol (.inl h_previous)
      rw [value?_plan_eq_none h_not] at h_reports
      cases h_reports
    · have h_applies := h.applies symbol
      rw [change, value?_plan h_reported] at h_applies
      have h_change : amount previous symbol + (amount target symbol - amount current symbol) =
          amount target symbol := h_applies
      linarith
  · rintro ⟨h_covered, h_same⟩
    refine ⟨fun symbol h_symbol => ?_, fun symbol => ?_⟩
    · have h_reported := h_symbol.elim (h_covered symbol) Or.inl
      rw [value?_plan h_reported, h_same symbol h_reported]
    · by_cases h_reported : symbol ∈ symbols target ∨ symbol ∈ symbols current
      · have h_change : change (plan target current) symbol =
            amount target symbol - amount current symbol := by
          rw [change, value?_plan h_reported]
          rfl
        rw [h_change, h_same symbol h_reported, add_sub_cancel]
      · have h_change : change (plan target current) symbol = 0 := by
          rw [change, value?_plan_eq_none h_reported]
          rfl
        have h_previous : symbol ∉ symbols previous := fun h => h_reported (h_covered symbol h)
        rw [h_change, amount_of_not_mem h_previous, add_zero,
          amount_of_not_mem fun h => h_reported (.inl h)]

/-- The plan of `rebalance` is right exactly where nothing has to move. -/
theorem moves_rebalance_iff {s : State} :
    Moves s.book (allocate s.engine signals).1 (rebalance s.engine signals).1 ↔ Unmoved s signals := by
  unfold rebalance
  dsimp only
  rw [moves_plan_iff]
  unfold allocate Unmoved
  split
  · have h_empty : ∀ symbol, symbol ∉ symbols (KeyedList.empty : Dict ℚ) :=
      fun symbol => List.not_mem_nil
    simp only [h_empty, false_or]
    refine and_congr_right fun _ => ⟨fun h p h_p => ?_, fun h symbol h_symbol => ?_⟩
    · rw [h p.1 (List.mem_map_of_mem h_p), amount_of_mem h_p]
    · obtain ⟨p, h_p, rfl⟩ := mem_symbols.mp h_symbol
      rw [h p h_p, amount_of_mem h_p]
  · have h_symbols : symbols (allocation s.engine signals) =
        (selected s.engine.maxPositions signals).map Prod.fst := by
      unfold symbols allocation
      rw [List.map_map]
      rfl
    simp only [or_self, h_symbols]
    refine and_congr_right fun _ => ⟨fun h p h_p => ?_, fun h symbol h_symbol => ?_⟩
    · rw [h p.1 (List.mem_map_of_mem h_p)]
      exact amount_allocation h_p
    · obtain ⟨p, h_p, rfl⟩ := List.mem_map.mp h_symbol
      rw [h p h_p]
      exact (amount_allocation h_p).symm

/-! ## Every run -/

theorem allocate_settings (e : PortfolioEngine) (signals : Dict ℚ) :
    (allocate e signals).2.totalCapital = e.totalCapital ∧
      (allocate e signals).2.maxPositions = e.maxPositions ∧
      (allocate e signals).2.maxAllocationPerAsset = e.maxAllocationPerAsset := by
  unfold allocate
  split
  · exact ⟨rfl, rfl, rfl⟩
  · exact ⟨rfl, rfl, rfl⟩

theorem Admissible.allocate (h : Admissible e) : Admissible (allocate e signals).2 := by
  obtain ⟨h_capital, h_positions, h_cap⟩ := allocate_settings e signals
  constructor
  · rw [h_capital]
    exact h.capital_pos
  · rw [h_positions]
    exact h.positions_pos
  · rw [h_cap]
    exact h.cap_pos
  · rw [h_cap]
    exact h.cap_le_one

theorem Admissible.after {s : State} (h : Admissible s.engine) (call : Call) :
    Admissible (s.after call).engine := by
  cases call with
  | allocate signals => exact h.allocate
  | rebalance signals => exact h.allocate

theorem lawful_call_iff {s : State} (h : Admissible s.engine) (call : Call) :
    Lawful s call ↔ Meets s call := by
  cases call with
  | allocate signals => exact inBudget_iff h
  | rebalance signals => exact and_congr (inBudget_iff h) moves_rebalance_iff

theorem throughout_lawful_iff {s : State} (h : Admissible s.engine) (calls : List Call) :
    Throughout Lawful s calls ↔ Throughout Meets s calls := by
  induction calls generalizing s with
  | nil => exact Iff.rfl
  | cons call rest ih => exact and_congr (lawful_call_iff h call) (ih (h.after call))

/-- In every sequence of calls, each one stays within the budget exactly where its selected
    signals are backed, and a plan moves the book exactly where nothing has to move. -/
theorem throughout_iff_meets {totalCapital maxAllocationPerAsset : ℚ} {maxPositions : ℕ}
    (h : Admissible (start totalCapital maxPositions maxAllocationPerAsset).engine)
    (calls : List Call) :
    Throughout Lawful (start totalCapital maxPositions maxAllocationPerAsset) calls ↔
      Throughout Meets (start totalCapital maxPositions maxAllocationPerAsset) calls :=
  throughout_lawful_iff h calls

def signalsOf (symbol : String) (strength : ℚ) : Dict ℚ := ⟨[(symbol, strength)], by simp⟩

/-- A stronger signal for the one symbol at its cap moves nothing. -/
theorem lawful_rebalance_unmoved :
    Throughout Lawful (start 100 5 (3 / 10))
      [.allocate (signalsOf "BTC" 1), .rebalance (signalsOf "BTC" 2)] :=
  (throughout_iff_meets
    { capital_pos := by decide +kernel, positions_pos := by decide, cap_pos := by decide +kernel
      cap_le_one := by decide +kernel }
    [.allocate (signalsOf "BTC" 1), .rebalance (signalsOf "BTC" 2)]).mpr
    ⟨by decide +kernel, by decide +kernel, trivial⟩

/-- A negative strength beside a positive one gets a negative amount, and a plan for another
    symbol reports no change for it, and nothing for the one that is dropped. -/
theorem not_lawful_rebalance :
    ¬ Throughout Lawful (start 100 5 (3 / 10))
        [.allocate ⟨[("BTC", 1), ("ETH", -1 / 2)], by simp⟩] ∧
      ¬ Throughout Lawful (start 100 5 (3 / 10))
        [.rebalance (signalsOf "BTC" 1), .rebalance (signalsOf "ETH" 1)] := by
  constructor
  · intro h
    have h_nonneg := h.1.nonneg ("ETH", -100) (by decide +kernel)
    norm_num at h_nonneg
  · intro h
    have h_reports := h.2.1.2.reports "BTC" (.inl (by decide +kernel))
    exact absurd h_reports (by decide +kernel)

end VyomQuant.Portfolio
