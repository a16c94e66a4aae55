/-
  VyomQuant.Paper.Accounting.Overdraft

  When `apply_fill` refuses a fill because it would take more cash than is available.

  No part of `apply_fill` but its own check raises that refusal (the `avoids` lemmas),
  so it is raised exactly when the figures were computed and the balance they lead to
  is negative (`applyFill_eq_availableBalance`).  `valueAfter` is the value of the
  position a fill leaves, in closed form by position case.
-/

import VyomQuant.Paper.Accounting.Fill

namespace VyomQuant.Paper.Accounting

open Decimal Except

/-- The refusal of a fill that overdraws the available balance. -/
def overdraft : AccountingError := .invariantViolation .availableBalance

theorem invalidOperation_ne_overdraft : AccountingError.invalidOperation ≠ overdraft := nofun

theorem invalidQuantity_ne_overdraft (what : QuantityRefusal) :
    AccountingError.invalidQuantity what ≠ overdraft := nofun

theorem stalePrice_ne_overdraft (symbol : String) :
    AccountingError.stalePrice symbol ≠ overdraft := nofun

section Avoids

variable {config : AccountingConfig}

theorem avoids_quantizeAt (places : ℕ) (value : ℚ) :
    Avoids overdraft (config.quantizeAt places value) :=
  Avoids.ofOption invalidOperation_ne_overdraft _

theorem avoids_make (fields : PositionFields) : Avoids overdraft (Position.make fields) := by
  unfold Position.make
  split
  · exact Avoids.error (invalidQuantity_ne_overdraft _)
  · split
    · exact Avoids.error (by decide)
    · exact Avoids.ok _

theorem avoids_fillFigures (request : FillRequest) :
    Avoids overdraft (fillFigures request config) := by
  unfold fillFigures
  apply Avoids.bind (avoids_quantizeAt _ _)
  intro _ _
  apply Avoids.bind (avoids_quantizeAt _ _)
  intro _ _
  apply Avoids.bind (avoids_quantizeAt _ _)
  intro _ _
  apply Avoids.bind (avoids_quantizeAt _ _)
  intro _ _
  apply Avoids.bind (Avoids.refuseIf (invalidQuantity_ne_overdraft _))
  intro _ _
  apply Avoids.bind (Avoids.refuseIf (invalidQuantity_ne_overdraft _))
  intro _ _
  apply Avoids.bind (Avoids.refuseIf (invalidQuantity_ne_overdraft _))
  intro _ _
  apply Avoids.bind (Avoids.refuseIf (invalidQuantity_ne_overdraft _))
  intro _ _
  exact Avoids.pure _

theorem avoids_oldValueOf (fillPrice : ℚ) (existing : Option Position) :
    Avoids overdraft (oldValueOf config fillPrice existing) := by
  cases existing with
  | none => exact Avoids.ok _
  | some position => exact avoids_quantizeAt _ _

theorem avoids_weightedAverageEntry (oldSize oldEntry addedSize fillPrice : ℚ) :
    Avoids overdraft (weightedAverageEntry oldSize oldEntry addedSize fillPrice config) :=
  Avoids.bind (Avoids.refuseIf (invalidQuantity_ne_overdraft _)) fun _ _ => avoids_quantizeAt _ _

theorem avoids_changePosition (symbol : String) (side : PositionSide)
    (fillQty fillPrice fillFee : ℚ) (filledAt : Option Instant) (existing : Option Position) :
    Avoids overdraft
      (changePosition symbol side fillQty fillPrice fillFee config filledAt existing) := by
  cases existing with
  | none => exact Avoids.bind (avoids_make _) fun _ _ => Avoids.pure _
  | some position =>
    by_cases h_side : position.side = side
    · simp only [changePosition, if_pos h_side]
      apply Avoids.bind (avoids_quantizeAt _ _)
      intro _ _
      apply Avoids.bind (avoids_weightedAverageEntry _ _ _ _)
      intro _ _
      exact Avoids.bind (avoids_make _) fun _ _ => Avoids.pure _
    · simp only [changePosition, if_neg h_side]
      apply Avoids.bind (avoids_quantizeAt _ _)
      intro _ _
      apply Avoids.bind (avoids_quantizeAt _ _)
      intro _ _
      split
      · exact Avoids.bind (avoids_make _) fun _ _ => Avoids.pure _
      · apply Avoids.bind (avoids_quantizeAt _ _)
        intro _ _
        exact Avoids.bind (avoids_make _) fun _ _ => Avoids.pure _

theorem avoids_positionMarketValue (positions : List Position) (prices : Prices) :
    Avoids overdraft (positionMarketValue positions prices config) := by
  apply Avoids.foldlM
  intro total position
  unfold addMarketValue
  split
  · apply Avoids.bind (Avoids.ofOption (stalePrice_ne_overdraft _) _)
    intro _ _
    exact Avoids.bind (avoids_quantizeAt _ _) fun _ _ => Avoids.pure _
  · exact Avoids.pure _

theorem avoids_assertInvariants {account : Account} (h : 0 ≤ account.availableBalance)
    (positions : List Position) (prices : Prices) :
    Avoids overdraft (assertInvariants account positions prices config) := by
  unfold assertInvariants violatedInvariant
  rw [any_size_neg]
  simp only [Bool.false_eq_true, if_false, if_neg (not_lt.mpr h)]
  by_cases h_locked : account.lockedBalance < 0
  · rw [if_pos h_locked]
    exact Avoids.error (by decide)
  · rw [if_neg h_locked]
    refine Avoids.bind ?_ ?_
    · refine Avoids.bind ?_ fun _ _ => Avoids.pure _
      exact Avoids.bind (avoids_positionMarketValue _ _) fun _ _ => Avoids.pure _
    · rintro (_ | invariant) h_violated
      · exact Avoids.pure _
      · simp only [bind_eq_ok, pure_eq_ok] at h_violated
        obtain ⟨_, _, h_eq⟩ := h_violated
        split at h_eq
        · cases h_eq
          exact Avoids.error (by decide)
        · cases h_eq

end Avoids

/-- `apply_fill` refuses a fill as an overdraft exactly when its figures exist, the
    release fits the locked balance, and the available balance they lead to is negative. -/
theorem applyFill_eq_overdraft {account : Account} {positions : Book} {request : FillRequest}
    {config : AccountingConfig} :
    applyFill account positions request config = .error overdraft ↔
      ∃ figures, fillFigures request config = .ok figures ∧
      ∃ oldValue, oldValueOf config figures.fillPrice (openPosition positions request.symbol)
        = .ok oldValue ∧
      ∃ change, changePosition request.symbol (sideForOrder request.side) figures.fillQty
        figures.fillPrice figures.fillFee config request.filledAt
        (openPosition positions request.symbol) = .ok change ∧
      ∃ newValue, config.money (positionValue change.newPosition figures.fillPrice)
        = .ok newValue ∧
      0 ≤ accountingContext.sub account.lockedBalance figures.release ∧
        accountingContext.add (accountingContext.add account.availableBalance figures.release)
          (cashDelta newValue oldValue figures.fillFee) < 0 := by
  unfold applyFill
  refine (bind_eq_error_of_avoids (avoids_fillFigures request)).trans ?_
  refine exists_congr fun figures => and_congr_right fun _ => ?_
  refine (bind_eq_error_of_avoids (avoids_oldValueOf _ _)).trans ?_
  refine exists_congr fun oldValue => and_congr_right fun _ => ?_
  refine (bind_eq_error_of_avoids (avoids_changePosition _ _ _ _ _ _ _)).trans ?_
  refine exists_congr fun change => and_congr_right fun _ => ?_
  refine (bind_eq_error_of_avoids (avoids_quantizeAt _ _)).trans ?_
  refine exists_congr fun newValue => and_congr_right fun _ => ?_
  -- What is left is the check of the locked balance, the check of the available balance,
  -- and nothing after them that could be an overdraft.
  refine (bind_eq_error_of_avoids (Avoids.refuseIf (by decide))).trans ?_
  simp only [refuseIf_eq_ok, not_lt, exists_const]
  refine and_congr_right fun _ => refuseIf_bind_eq_error ?_
  refine Avoids.bind (avoids_positionMarketValue _ _) fun _ _ => ?_
  refine Avoids.bind (avoids_quantizeAt _ _) fun _ _ => ?_
  exact Avoids.bind (avoids_make _) fun _ _ => Avoids.pure _

/-! ## The value a fill leaves, by position case -/

def valueOf (side : PositionSide) (size entryPrice price : ℚ) : ℚ :=
  match side with
  | .long => accountingContext.mul size price
  | .short =>
    accountingContext.mul size
      (accountingContext.sub (accountingContext.mul 2 entryPrice) price)

theorem positionValue_eq_valueOf (position : Position) (price : ℚ) :
    positionValue position price = valueOf position.side position.size position.entryPrice price :=
  rfl

/-- The quantized value of the position that a fill of `qty` at `price` leaves. -/
def valueAfter (config : AccountingConfig) (side : PositionSide) (qty price : ℚ) :
    Option Position → Except AccountingError ℚ
  | none => config.money (valueOf side qty price price)
  | some position =>
    if position.side = side then do
      let size ← config.qty (accountingContext.add position.size qty)
      let entryPrice ← weightedAverageEntry position.size position.entryPrice qty price config
      config.money (valueOf side size entryPrice price)
    else do
      let _ ← config.money
        (realizedOnClose position.side position.entryPrice price (min qty position.size))
      if qty ≤ position.size then do
        let size ← config.qty (accountingContext.sub position.size qty)
        config.money (valueOf position.side size position.entryPrice price)
      else do
        let size ← config.qty (accountingContext.sub qty position.size)
        config.money (valueOf side size price price)

section ValueAfter

variable {symbol : String} {side : PositionSide} {qty price fee newValue quantity : ℚ}
  {config : AccountingConfig} {filledAt : Option Instant} {existing : Option Position}

/-- What a fill makes of a position is worth its `valueAfter`. -/
theorem valueAfter_of_case {change : PositionChange}
    (h : PositionCase symbol side qty price fee config filledAt existing change) :
    valueAfter config side qty price existing
      = config.money (positionValue change.newPosition price) := by
  rw [positionValue_eq_valueOf]
  cases h with
  | opened h_new => rw [h_new]; rfl
  | added h_side h_size h_entry h_new =>
    rw [h_new]
    simp only [valueAfter, if_pos h_side, h_size, h_entry]
    rw [← h_side]
    rfl
  | reduced h_side h_le h_realized h_remaining h_new =>
    rw [h_new]
    simp only [valueAfter, if_neg h_side, if_pos h_le, min_eq_left h_le, h_realized, h_remaining]
    rfl
  | reversed h_side h_lt h_realized h_surplus h_new =>
    rw [h_new]
    simp only [valueAfter, if_neg h_side, if_neg (not_le.mpr h_lt), min_eq_right h_lt.le,
      h_realized, h_surplus]
    rfl

/-- The position cases refuse nothing that `valueAfter` computes. -/
theorem exists_changePosition (h_symbol : isBlank symbol = false) (h_pos : 0 < qty)
    (h : valueAfter config side qty price existing = .ok newValue) :
    ∃ change, changePosition symbol side qty price fee config filledAt existing = .ok change := by
  cases existing with
  | none =>
    simp only [changePosition, bind_eq_ok, pure_eq_ok]
    exact ⟨_, _, Position.make_of_wellFormed h_symbol h_pos.le, rfl⟩
  | some position =>
    by_cases h_side : position.side = side
    · simp only [valueAfter, if_pos h_side, bind_eq_ok] at h
      obtain ⟨size, h_size, entryPrice, h_entry, _⟩ := h
      have h_sum : 0 ≤ accountingContext.add position.size qty := by
        apply Context.round_nonneg
        have h_size_nonneg := position.size_nonneg
        linarith
      have h_nonneg := AccountingConfig.quantizeAt_nonneg h_size h_sum
      simp only [changePosition, if_pos h_side, bind_eq_ok, pure_eq_ok]
      exact ⟨_, size, h_size, entryPrice, h_entry, _, Position.make_of_wellFormed
        (show isBlank (addedFields position size entryPrice price filledAt).symbol = false from
          position.symbol_nonblank) h_nonneg, rfl⟩
    · by_cases h_le : qty ≤ position.size
      · simp only [valueAfter, if_neg h_side, if_pos h_le, min_eq_left h_le, bind_eq_ok] at h
        obtain ⟨realized, h_realized, size, h_size, _⟩ := h
        have h_nonneg := AccountingConfig.quantizeAt_nonneg h_size
          (accountingContext.round_nonneg (sub_nonneg.mpr h_le))
        simp only [changePosition, if_neg h_side, if_pos h_le, min_eq_left h_le, bind_eq_ok,
          pure_eq_ok]
        exact ⟨_, realized, h_realized, size, h_size, _, Position.make_of_wellFormed
          (show isBlank (reducedFields position size price filledAt).symbol = false from
            position.symbol_nonblank) h_nonneg, rfl⟩
      · have h_lt : position.size < qty := not_le.mp h_le
        simp only [valueAfter, if_neg h_side, if_neg h_le, min_eq_right h_lt.le, bind_eq_ok] at h
        obtain ⟨realized, h_realized, size, h_size, _⟩ := h
        have h_nonneg := AccountingConfig.quantizeAt_nonneg h_size
          (accountingContext.round_nonneg (sub_nonneg.mpr h_lt.le))
        simp only [changePosition, if_neg h_side, if_neg h_le, min_eq_right h_lt.le, bind_eq_ok,
          pure_eq_ok, Context.sub_self, AccountingConfig.qty_zero, ok.injEq]
        exact ⟨_, realized, h_realized, _, rfl, size, h_size, _,
          Position.make_of_wellFormed h_symbol h_nonneg, rfl⟩

theorem changePosition_value (h_symbol : isBlank symbol = false) (h_pos : 0 < qty) :
    (∃ change, changePosition symbol side qty price fee config filledAt existing = .ok change ∧
        config.money (positionValue change.newPosition price) = .ok newValue) ↔
      valueAfter config side qty price existing = .ok newValue := by
  constructor
  · rintro ⟨change, h_change, h_value⟩
    rw [valueAfter_of_case (changePosition_cases h_change)]
    exact h_value
  · intro h
    obtain ⟨change, h_change⟩ := exists_changePosition h_symbol h_pos h
    refine ⟨change, h_change, ?_⟩
    rw [← valueAfter_of_case (changePosition_cases h_change)]
    exact h

end ValueAfter

end VyomQuant.Paper.Accounting
