/-
  VyomQuant.Paper.Simulator.StaticAcceptance

  What the static checks promise of the intents they accept: the figures are at the session's
  precisions, the accounting engine's quantizers leave them alone, and fills that sum to the
  ordered quantity fill the order.

  The checks count decimals after a rounding to 28 digits, and the quantizers keep 34.
  `hasDecimalPlaces_iff` says on which figures the two notions of fitting a precision agree.
-/

import VyomQuant.Paper.Simulator.Concurrency

namespace VyomQuant.Paper

open Decimal Except
open Accounting (AccountingConfig AccountingError)

/-! ## Fitting a precision -/

/-- A figure that fits a precision, seen through 28 digits: it has no more digits, or it is so
    large that those past the 28th are still above the precision. -/
def FitsPrecision (places : ℕ) (value : ℚ) : Prop :=
  if value < 10 ^ ((28 : ℤ) - places) then normalize value = some value
  else OnGrid places value ∧ value < 10 ^ ((34 : ℤ) - places)

instance (places : ℕ) (value : ℚ) : Decidable (FitsPrecision places value) := by
  unfold FitsPrecision
  infer_instance

theorem normalize_of_onGrid {places : ℕ} {value : ℚ} (h_places : places ≤ maxRecordedPrecision)
    (h_grid : OnGrid places value) (h_lt : |value| < 10 ^ ((28 : ℤ) - places)) :
    normalize value = some value := by
  unfold maxRecordedPrecision at h_places
  refine Context.normalize_of_onGrid h_grid (by simpa [ambientContext] using h_lt) ?_ ?_
  · show (-999999 : ℤ) ≤ -places
    omega
  · show ((28 : ℕ) : ℤ) - places ≤ 999999 + 1
    omega

theorem fitsPrecision_iff {places : ℕ} {value : ℚ} (h_places : places ≤ maxRecordedPrecision)
    (h_pos : 0 < value) (h_check : HasDecimalPlaces places value) :
    FitsPrecision places value ↔ OnGrid places value ∧ value < 10 ^ ((34 : ℤ) - places) := by
  unfold FitsPrecision
  split
  · rename_i h_small
    constructor
    · intro h_normal
      obtain ⟨normal, h_mem, h_le⟩ := h_check
      obtain rfl : value = normal := Option.some.inj (h_normal.symm.trans h_mem)
      obtain ⟨d, h_grid⟩ := Context.normalize_onGrid h_normal
      refine ⟨(decimalPlaces_le_iff h_grid).mp h_le, h_small.trans ?_⟩
      exact zpow_lt_zpow_right₀ (by norm_num) (by omega)
    · intro h
      exact normalize_of_onGrid h_places h.1 (by rwa [abs_of_pos h_pos])
  · exact Iff.rfl

/-- The quantizer of a precision leaves a positive figure alone exactly when it is at the
    precision and has a coefficient that fits. -/
theorem quantizeAt_eq_self_of_pos {config : AccountingConfig} {places : ℕ} {value : ℚ}
    (h_pos : 0 < value) : config.quantizeAt places value = .ok value ↔
      OnGrid places value ∧ value < 10 ^ ((34 : ℤ) - places) := by
  rw [AccountingConfig.quantizeAt_eq_self_iff, abs_of_pos h_pos]
  rfl

/-! ## Fills of one order -/

/-- A fill at the figures that `apply_fill` computes of its arguments. -/
def FillAdmitted (config : SessionConfig) (fill : FillRow) : Prop :=
  ∃ call, fillFigures config call = .ok (fill.quantity, fill.price)

/-- The order after the fills, each decided on the fills before it. -/
def driveFills (config : SessionConfig) (account : AccountRow) (order : OrderRow)
    (applied : List FillRow) : List FillRow → Except PaperError OrderRow
  | [] => .ok order
  | fill :: rest => do
    let context ← fillContext config fill.quantity account order applied none
    driveFills config account
      { order with orderState := context.target, filledQuantity := context.filledQuantity }
      (applied ++ [fill]) rest

/-- What an accepted intent is promised: its figures are at the session's precisions, the
    engine reads them as they are, and its order is filled by fills of its quantity. -/
structure AcceptedExactly (intent : OrderIntent) (config : SessionConfig) : Prop where
  quantity_pos : 0 < intent.quantity
  quantity_grid : OnGrid config.quantityPrecision intent.quantity
  quantity_le : intent.quantity ≤ config.maxOrderQuantity
  limitPrice_pos : ∀ limit ∈ intent.limitPrice, 0 < limit
  limitPrice_grid : ∀ limit ∈ intent.limitPrice, OnGrid config.pricePrecision limit
  qty_eq : config.accounting.qty intent.quantity = .ok intent.quantity
  price_eq : ∀ limit ∈ intent.limitPrice, config.accounting.price limit = .ok limit
  filled : ∀ account order fills, numeric intent.quantity = .ok order.quantity →
    order.orderState = .accepted → (∀ fill ∈ fills, FillAdmitted config fill) →
    (fills.map FillRow.quantity).sum = order.quantity →
    ∃ final, driveFills config account order [] fills = .ok final ∧ final.orderState = .filled

theorem FillAdmitted.figures {config : SessionConfig} {fill : FillRow}
    (h : FillAdmitted config fill) :
    (OnGrid config.quantityPrecision fill.quantity ∧ 0 < fill.quantity) ∧
      config.accounting.qty fill.quantity = .ok fill.quantity ∧
      config.accounting.price fill.price = .ok fill.price := by
  obtain ⟨call, h_call⟩ := h
  obtain ⟨h_qty, h_price, h_pos, _⟩ := fillFigures_eq_ok.mp h_call
  exact ⟨⟨AccountingConfig.quantizeAt_onGrid h_qty, h_pos⟩,
    AccountingConfig.quantizeAt_idem h_qty, AccountingConfig.quantizeAt_idem h_price⟩

theorem foldlM_addFillAmounts_isOk {config : SessionConfig} {fills : List FillRow}
    (h_fills : ∀ fill ∈ fills, FillAdmitted config fill) (totals : FillTotals) :
    ∃ result, (fills.map FillRow.amounts).foldlM (addFillAmounts config) totals = .ok result := by
  induction fills generalizing totals with
  | nil => exact ⟨totals, rfl⟩
  | cons fill rest ih =>
    rw [List.forall_mem_cons] at h_fills
    obtain ⟨_, h_qty, h_price⟩ := h_fills.1.figures
    rw [List.map_cons, List.foldlM_cons]
    unfold addFillAmounts
    have h_amounts : fill.amounts.quantity = fill.quantity ∧ fill.amounts.price = fill.price :=
      ⟨rfl, rfl⟩
    rw [h_amounts.1, h_amounts.2, h_qty, h_price]
    exact ih h_fills.2 _

section Order

variable {config : SessionConfig} {account : AccountRow} {order : OrderRow}
  {applied rest : List FillRow} {fill : FillRow}

theorem sum_amounts (fills : List FillRow) :
    ((fills.map FillRow.amounts).map FillAmounts.quantity).sum
      = (fills.map FillRow.quantity).sum := by
  rw [List.map_map]
  rfl

theorem admitted_sum (h_fills : ∀ fill ∈ applied, FillAdmitted config fill) :
    OnGrid config.quantityPrecision (applied.map FillRow.quantity).sum ∧
      0 ≤ (applied.map FillRow.quantity).sum := by
  induction applied with
  | nil => exact ⟨.zero _, le_rfl⟩
  | cons fill rest ih =>
    rw [List.forall_mem_cons] at h_fills
    obtain ⟨h_grid, h_nonneg⟩ := ih h_fills.2
    obtain ⟨⟨h_fill, h_pos⟩, _, _⟩ := h_fills.1.figures
    rw [List.map_cons, List.sum_cons]
    exact ⟨h_fill.add h_grid, by linarith⟩

theorem fillEventTotals_admitted (h_fills : ∀ fill ∈ applied, FillAdmitted config fill)
    (h_lt : (applied.map FillRow.quantity).sum < 10 ^ 18) :
    ∃ totals, fillEventTotals (applied.map FillRow.amounts) config = .ok totals ∧
      totals.quantity = (applied.map FillRow.quantity).sum := by
  have h_amounts : ∀ a ∈ applied.map FillRow.amounts,
      OnGrid config.quantityPrecision a.quantity ∧ 0 < a.quantity := by
    intro a h_a
    obtain ⟨fill, h_mem, rfl⟩ := List.mem_map.mp h_a
    exact (h_fills fill h_mem).figures.1
  obtain ⟨sums, h_sums⟩ := foldlM_addFillAmounts_isOk h_fills ⟨0, 0, 0, 0⟩
  have h_sum : sums.quantity = (applied.map FillRow.quantity).sum := by
    rw [foldlM_addFillAmounts (.zero _) le_rfl h_amounts
      (by rw [sum_amounts, zero_add]; exact h_lt) h_sums, sum_amounts, zero_add]
  obtain ⟨h_grid, h_nonneg⟩ := admitted_sum h_fills
  have h_qty : config.accounting.qty sums.quantity = .ok sums.quantity := by
    rw [h_sum]
    exact quantizeAt_of_recorded _ config.quantityPrecision_le h_grid
      (by rwa [abs_of_nonneg h_nonneg])
  refine ⟨sums, ?_, h_sum⟩
  unfold fillEventTotals
  rw [h_sums]
  show (config.accounting.qty sums.quantity >>= fun quantity =>
    pure { sums with quantity }) = Except.ok sums
  rw [h_qty]
  rfl

/-- One fill within what remains: the order is `FILLED` when nothing remains after it. -/
theorem fillContext_admitted (h_applied : ∀ fill ∈ applied, FillAdmitted config fill)
    (h_fill : FillAdmitted config fill)
    (h_grid : OnGrid config.quantityPrecision order.quantity) (h_lt : order.quantity < 10 ^ 18)
    (h_le : (applied.map FillRow.quantity).sum + fill.quantity ≤ order.quantity)
    (h_state : order.orderState = .accepted ∨ order.orderState = .partiallyFilled) :
    ∃ context, fillContext config fill.quantity account order applied none = .ok context ∧
      context.target = if (applied.map FillRow.quantity).sum + fill.quantity = order.quantity
        then .filled else .partiallyFilled := by
  obtain ⟨⟨h_fill_grid, h_fill_pos⟩, _, _⟩ := h_fill.figures
  obtain ⟨h_sum_grid, h_sum_nonneg⟩ := admitted_sum h_applied
  obtain ⟨prior, h_prior, h_quantity⟩ := fillEventTotals_admitted h_applied (by linarith)
  have h_ordered : config.accounting.qty order.quantity = .ok order.quantity :=
    quantizeAt_of_recorded _ config.quantityPrecision_le h_grid
      (by rw [abs_of_nonneg (by linarith)]; exact h_lt)
  have h_add : ambientContext.add prior.quantity fill.quantity
      = (applied.map FillRow.quantity).sum + fill.quantity := by
    rw [h_quantity]
    exact ambient_round_of_recorded config.quantityPrecision_le (h_sum_grid.add h_fill_grid)
      (by rw [abs_of_nonneg (by linarith)]; linarith)
  have h_filled : config.accounting.qty ((applied.map FillRow.quantity).sum + fill.quantity)
      = .ok ((applied.map FillRow.quantity).sum + fill.quantity) :=
    quantizeAt_of_recorded _ config.quantityPrecision_le (h_sum_grid.add h_fill_grid)
      (by rw [abs_of_nonneg (by linarith)]; linarith)
  have h_allowed : order.orderState.canTransition
      (if (applied.map FillRow.quantity).sum + fill.quantity = order.quantity
        then .filled else .partiallyFilled) := by
    rcases h_state with h_state | h_state <;> rw [h_state] <;> split <;> decide
  unfold fillContext
  rw [h_prior, h_ordered]
  simp only [ofAccounting, bind, Except.bind, h_add, h_filled]
  rw [refuseIf, if_neg (not_lt.mpr h_le), refuseIf, if_neg (not_not.mpr h_allowed)]
  exact ⟨_, rfl, rfl⟩

/-- Fills that sum to what remains fill the order: by induction on them, the order standing at
    `ACCEPTED` or `PARTIALLY_FILLED` before each. -/
theorem driveFills_filled (h_rest : ∀ fill ∈ rest, FillAdmitted config fill)
    (h_applied : ∀ fill ∈ applied, FillAdmitted config fill)
    (h_grid : OnGrid config.quantityPrecision order.quantity) (h_lt : order.quantity < 10 ^ 18)
    (h_sum : (applied.map FillRow.quantity).sum + (rest.map FillRow.quantity).sum = order.quantity)
    (h_state : if rest = [] then order.orderState = .filled
      else order.orderState = .accepted ∨ order.orderState = .partiallyFilled) :
    ∃ final, driveFills config account order applied rest = .ok final ∧
      final.orderState = .filled := by
  induction rest generalizing order applied with
  | nil => exact ⟨order, rfl, h_state⟩
  | cons fill rest ih =>
    rw [List.forall_mem_cons] at h_rest
    rw [if_neg (List.cons_ne_nil _ _)] at h_state
    rw [List.map_cons, List.sum_cons] at h_sum
    obtain ⟨⟨_, h_pos⟩, _, _⟩ := h_rest.1.figures
    obtain ⟨_, h_nonneg⟩ := admitted_sum h_rest.2
    obtain ⟨context, h_context, h_target⟩ :
        ∃ context, fillContext config fill.quantity account order applied none = .ok context ∧
          context.target = if (applied.map FillRow.quantity).sum + fill.quantity = order.quantity
            then .filled else .partiallyFilled :=
      fillContext_admitted h_applied h_rest.1 h_grid h_lt (by linarith) h_state
    have h_next : ∀ other ∈ applied ++ [fill], FillAdmitted config other := by
      intro other h_other
      rcases List.mem_append.mp h_other with h_before | h_last
      · exact h_applied other h_before
      · rw [List.mem_singleton.mp h_last]
        exact h_rest.1
    have h_after : if rest = [] then context.target = .filled
        else context.target = .accepted ∨ context.target = .partiallyFilled := by
      rw [h_target]
      cases rest with
      | nil => rw [if_pos rfl, if_pos (by simpa using h_sum)]
      | cons next more =>
        obtain ⟨⟨_, h_next_pos⟩, _, _⟩ := (h_rest.2 next List.mem_cons_self).figures
        obtain ⟨_, h_more⟩ := admitted_sum fun f h => h_rest.2 f (List.mem_cons_of_mem _ h)
        rw [List.map_cons, List.sum_cons] at h_sum
        rw [if_neg (List.cons_ne_nil _ _), if_neg (by intro h; linarith)]
        exact Or.inr rfl
    have h_sum_next : ((applied ++ [fill]).map FillRow.quantity).sum
        + (rest.map FillRow.quantity).sum = order.quantity := by
      rw [List.map_append, List.sum_append]
      simpa [add_assoc] using h_sum
    obtain ⟨final, h_run, h_final⟩ : ∃ final, driveFills config account
        { order with orderState := context.target, filledQuantity := context.filledQuantity }
        (applied ++ [fill]) rest = .ok final ∧ final.orderState = .filled :=
      ih h_rest.2 h_next h_grid h_lt h_sum_next h_after
    refine ⟨final, ?_, h_final⟩
    unfold driveFills
    rw [h_context]
    exact h_run

end Order

/-! ## Exact acceptance -/

/-- An accepted intent is what the checks say exactly when its figures fit: the others are
    accepted for what 28 digits show of them. -/
theorem acceptedExactly_iff (intent : OrderIntent) (config : SessionConfig) :
    (staticRejectionReason intent config = none → AcceptedExactly intent config) ↔
      staticRejectionReason intent config ≠ none ∨
      (FitsPrecision config.quantityPrecision intent.quantity ∧
        ∀ limit ∈ intent.limitPrice, FitsPrecision config.pricePrecision limit) := by
  by_cases h_accepted : staticRejectionReason intent config = none
  · have h_valid := staticRejectionReason_eq_none.mp h_accepted
    have h_quantity := fitsPrecision_iff config.quantityPrecision_le h_valid.quantity_pos
      h_valid.quantity_places
    have h_limit (limit : ℚ) (h_mem : limit ∈ intent.limitPrice) :=
      fitsPrecision_iff config.pricePrecision_le (h_valid.limitPrice_pos limit h_mem)
        (h_valid.limitPrice_places limit h_mem)
    constructor
    · intro h
      have h_exact := h h_accepted
      refine Or.inr ⟨h_quantity.mpr ?_, fun limit h_mem => (h_limit limit h_mem).mpr ?_⟩
      · exact (quantizeAt_eq_self_of_pos h_exact.quantity_pos).mp h_exact.qty_eq
      · exact (quantizeAt_eq_self_of_pos (h_exact.limitPrice_pos limit h_mem)).mp
          (h_exact.price_eq limit h_mem)
    · rintro (h_refused | ⟨h_fits, h_fits_limit⟩) _
      · exact absurd h_accepted h_refused
      obtain ⟨h_grid, h_lt⟩ := h_quantity.mp h_fits
      refine {
        quantity_pos := h_valid.quantity_pos
        quantity_grid := h_grid
        quantity_le := h_valid.quantity_le
        limitPrice_pos := h_valid.limitPrice_pos
        limitPrice_grid := fun limit h_mem => ((h_limit limit h_mem).mp (h_fits_limit limit h_mem)).1
        qty_eq := (quantizeAt_eq_self_of_pos h_valid.quantity_pos).mpr ⟨h_grid, h_lt⟩
        price_eq := fun limit h_mem =>
          (quantizeAt_eq_self_of_pos (h_valid.limitPrice_pos limit h_mem)).mpr
            ((h_limit limit h_mem).mp (h_fits_limit limit h_mem))
        filled := ?_ }
      intro account order fills h_stored h_state h_fills h_sum
      -- The column holds the quantity as it is, so the sums stay within 28 digits.
      obtain ⟨h_eq, h_numeric⟩ := isNumeric_of_onGrid h_stored config.quantityPrecision_le h_grid
      have h_order_lt : order.quantity < 10 ^ 18 := by
        rw [h_eq]
        exact (abs_lt.mp h_numeric.2).2
      have h_some : fills ≠ [] := by
        rintro rfl
        rw [List.map_nil, List.sum_nil, h_eq] at h_sum
        exact absurd h_sum h_valid.quantity_pos.ne
      refine driveFills_filled h_fills (List.forall_mem_nil _) (h_eq ▸ h_grid) h_order_lt
        (by rw [List.map_nil, List.sum_nil, zero_add, h_sum]) ?_
      rw [if_neg h_some]
      exact Or.inl h_state
  · exact iff_of_true (fun h => absurd h h_accepted) (Or.inl h_accepted)

/-- A quantity of thirty digits, the last of them far below the session's precision. -/
def hairOverOne : OrderIntent where
  symbol := "BTC/USDT"
  side := .recognised .buy
  orderType := .recognised .market
  quantity := 1 + 1 / 10 ^ 29
  limitPrice := none
  timeInForce := "GTC"
  idempotencyKey := none
  signalId := none

/-- The checks round it to one and accept it; it is no multiple of the session's unit, and the
    engine reads another quantity. -/
theorem hairOverOne_accepted :
    staticRejectionReason hairOverOne spotConfig = none ∧
    ¬ OnGrid spotConfig.quantityPrecision hairOverOne.quantity ∧
    spotConfig.accounting.qty hairOverOne.quantity = .ok 1 ∧
    ¬ (staticRejectionReason hairOverOne spotConfig = none →
      AcceptedExactly hairOverOne spotConfig) := by
  have h_accepted : staticRejectionReason hairOverOne spotConfig = none := by decide +kernel
  have h_grid : ¬ OnGrid spotConfig.quantityPrecision hairOverOne.quantity := by decide +kernel
  exact ⟨h_accepted, h_grid, by decide +kernel, fun h => h_grid (h h_accepted).quantity_grid⟩

end VyomQuant.Paper
