/-
  VyomQuant.Paper.Accounting.Drawdown

  `max_drawdown` of `paper_accounting.py`: the largest decline of a session's equity from a
  running peak to a later trough, and its share of that peak.

  The loop is the pass of `RunningPeak` with the decline measured in the 34-digit context,
  so a figure with more digits is reported rounded.  `maxDrawdown_spec` says what the loop
  finds in terms of all pairs of snapshots.
-/

import VyomQuant.Lib.RunningPeak
import VyomQuant.Paper.Accounting.Types

namespace VyomQuant.Paper.Accounting

open Decimal Except RunningPeak

/-! ## The metric -/

/-- One equity snapshot; a bare equity value has no `taken_at`. -/
structure Snapshot where
  totalEquity : ℚ
  takenAt : Option Instant

/-- `Drawdown`. -/
structure Drawdown where
  amount : ℚ
  fraction : ℚ
deriving DecidableEq

inductive DrawdownError where
  /-- `SnapshotOrderError`. -/
  | snapshotOrder
  /-- The quotient has no five decimals within the context's digits. -/
  | invalidOperation
deriving DecidableEq

/-- `FRACTION_QUANTUM`: five decimals. -/
def fractionPlaces : ℕ := 5

/-- The loop body that reads the series: the last time that was recorded, and the equities. -/
def readSnapshot (state : Option Instant × List ℚ) (snapshot : Snapshot) :
    Except DrawdownError (Option Instant × List ℚ) := do
  refuseIf (∃ takenAt ∈ snapshot.takenAt, ∃ previousTime ∈ state.1, takenAt < previousTime)
    .snapshotOrder
  return (snapshot.takenAt.or state.1, state.2 ++ [snapshot.totalEquity])

/-- The state of the loop over the equities. -/
structure Decline where
  peak : ℚ
  amount : ℚ
  peakAtTrough : ℚ

/-- The loop body over the equities. -/
def declineStep (state : Decline) (equity : ℚ) : Decline :=
  let peak := if state.peak < equity then equity else state.peak
  let decline := accountingContext.sub peak equity
  if state.amount < decline then
    { peak, amount := decline, peakAtTrough := peak }
  else
    { state with peak }

def report (found : Decline) : Except DrawdownError Drawdown :=
  if found.amount ≤ 0 then
    .ok ⟨0, 0⟩
  else if found.peakAtTrough ≤ 0 then
    .ok ⟨found.amount, 0⟩
  else do
    let fraction ← Except.ofOption .invalidOperation (accountingContext.quantize .halfEven
      fractionPlaces (accountingContext.div found.amount found.peakAtTrough))
    return ⟨found.amount, min fraction 1⟩

/-- `max_drawdown`. -/
def maxDrawdown (series : List Snapshot) : Except DrawdownError Drawdown :=
  if series.length < 2 then
    .ok ⟨0, 0⟩
  else do
    let (_, equities) ← series.foldlM readSnapshot (none, [])
    match equities with
    | [] => return ⟨0, 0⟩
    | first :: rest => report (rest.foldl declineStep ⟨first, 0, first⟩)

/-! ## The order of the series -/

def equitiesOf (series : List Snapshot) : List ℚ := series.map (·.totalEquity)

/-- No timestamped snapshot is earlier than the timestamped one before it. -/
def InTimeOrder (series : List Snapshot) : Prop :=
  (series.filterMap (·.takenAt)).IsChain (· ≤ ·)

instance (series : List Snapshot) : Decidable (InTimeOrder series) :=
  inferInstanceAs (Decidable (List.IsChain _ _))

variable {series : List Snapshot}

theorem inTimeOrder_append_singleton {snapshot : Snapshot} :
    InTimeOrder (series ++ [snapshot]) ↔ InTimeOrder series ∧
      ∀ takenAt ∈ snapshot.takenAt, ∀ previous ∈ (series.filterMap (·.takenAt)).getLast?,
        previous ≤ takenAt := by
  unfold InTimeOrder
  rw [List.filterMap_append, List.isChain_append]
  cases h_taken : snapshot.takenAt with
  | none => simp [h_taken]
  | some takenAt => simp [h_taken]

theorem foldlM_readSnapshot (series : List Snapshot) :
    series.foldlM readSnapshot (none, []) =
      if InTimeOrder series then
        .ok ((series.filterMap (·.takenAt)).getLast?, equitiesOf series)
      else .error .snapshotOrder := by
  induction series using List.reverseRecOn with
  | nil => rfl
  | append_singleton series snapshot ih =>
    rw [List.foldlM_append, ih]
    by_cases h_order : InTimeOrder series
    · rw [if_pos h_order]
      show List.foldlM readSnapshot _ [snapshot] = _
      rw [List.foldlM_cons]
      unfold readSnapshot
      by_cases h_later : ∃ takenAt ∈ snapshot.takenAt,
          ∃ previousTime ∈ (series.filterMap (·.takenAt)).getLast?, takenAt < previousTime
      · rw [refuseIf, if_pos h_later, if_neg]
        · rfl
        · intro h
          obtain ⟨takenAt, h_taken, previous, h_previous, h_lt⟩ := h_later
          have h_le := (inTimeOrder_append_singleton.mp h).2 takenAt h_taken previous h_previous
          exact absurd h_le (not_le.mpr h_lt)
      · rw [refuseIf, if_neg h_later, if_pos]
        · cases h_taken : snapshot.takenAt with
          | none => simp [h_taken, equitiesOf, List.filterMap_append, bind, Except.bind, pure,
              Except.pure]
          | some takenAt => simp [h_taken, equitiesOf, List.filterMap_append, bind, Except.bind,
              pure, Except.pure]
        · refine inTimeOrder_append_singleton.mpr ⟨h_order, ?_⟩
          intro takenAt h_taken previous h_previous
          exact not_lt.mp fun h_lt => h_later ⟨takenAt, h_taken, previous, h_previous, h_lt⟩
    · rw [if_neg h_order, if_neg fun h => h_order (inTimeOrder_append_singleton.mp h).1]
      rfl

/-! ## The largest decline -/

/-- The decline of one equity to another, as the loop computes it. -/
def declineOf (peak trough : ℚ) : ℚ := accountingContext.sub peak trough

theorem declineOf_mono (trough : ℚ) : Monotone fun peak => declineOf peak trough :=
  fun _ _ h => accountingContext.round_mono (sub_le_sub_right h trough)

theorem foldl_declineStep (first : ℚ) (rest : List ℚ) :
    rest.foldl declineStep ⟨first, 0, first⟩ =
      ⟨(scan declineOf first rest).peak, (scan declineOf first rest).best,
        (scan declineOf first rest).peakAtBest⟩ := by
  induction rest using List.reverseRecOn with
  | nil => simp [scan, declineOf]
  | append_singleton rest equity ih =>
    have h_scan : scan declineOf first (rest ++ [equity])
        = RunningPeak.step declineOf (scan declineOf first rest) equity := by
      rw [scan, List.foldl_append]
      rfl
    rw [List.foldl_append, ih, h_scan]
    have h_peak : (if (scan declineOf first rest).peak < equity then equity
        else (scan declineOf first rest).peak) = max (scan declineOf first rest).peak equity := by
      exact (max_def_lt _ _).symm
    simp only [List.foldl_cons, List.foldl_nil, declineStep, RunningPeak.step, h_peak]
    show (if (scan declineOf first rest).best
        < declineOf (max (scan declineOf first rest).peak equity) equity then _ else _) = _
    split <;> rfl

/-- The declines of a series, each computed in the engine's context. -/
def declines (series : List Snapshot) : Set ℚ := falls declineOf (equitiesOf series)

/-- The first snapshot that a decline of this size leads to. -/
def IsFirstTrough (series : List Snapshot) (amount : ℚ) (j : ℕ) : Prop :=
  IsLeast {j | FallTo declineOf (equitiesOf series) j amount} j

theorem quantize_div_isSome {amount peak : ℚ} (h_amount : 0 < amount) (h_peak : 0 < peak)
    (h_le : amount ≤ 10 ^ 28 * peak) :
    ∃ fraction, accountingContext.quantize .halfEven fractionPlaces
      (accountingContext.div amount peak) = some fraction := by
  have h_ratio : amount / peak ≤ 10 ^ (28 : ℤ) := by
    rw [div_le_iff₀ h_peak]
    exact_mod_cast h_le
  have h_nonneg : 0 ≤ accountingContext.div amount peak :=
    accountingContext.round_nonneg (div_nonneg h_amount.le h_peak.le)
  have h_round : accountingContext.div amount peak ≤ 10 ^ (28 : ℤ) :=
    (accountingContext.representable_zpow 28).round_le h_ratio
  have h_scaled : accountingContext.div amount peak * 10 ^ fractionPlaces ≤ ((10 ^ 33 : ℤ) : ℚ) := by
    have h_mul := mul_le_mul_of_nonneg_right h_round (by positivity : (0 : ℚ) ≤ 10 ^ 5)
    refine h_mul.trans (le_of_eq ?_)
    norm_num
  have h_high := RoundingMode.halfEven.toInt_le h_scaled
  have h_low : 0 ≤ RoundingMode.halfEven.toInt
      (accountingContext.div amount peak * 10 ^ fractionPlaces) :=
    RoundingMode.halfEven.toInt_nonneg (by positivity)
  refine ⟨_, if_pos ?_⟩
  show _ < 10 ^ 34
  omega

theorem report_ne_snapshotOrder {found : Decline} : report found ≠ .error .snapshotOrder := by
  unfold report
  split
  · simp
  split
  · simp
  · cases h_fraction : accountingContext.quantize .halfEven fractionPlaces
      (accountingContext.div found.amount found.peakAtTrough) with
    | none => simp [Except.ofOption, bind, Except.bind]
    | some fraction => simp [Except.ofOption, bind, Except.bind, pure, Except.pure]

theorem report_bounds {found : Decline} {drawdown : Drawdown} (h : report found = .ok drawdown) :
    0 ≤ drawdown.fraction ∧ drawdown.fraction ≤ 1 := by
  unfold report at h
  split at h
  · cases h
    exact ⟨le_rfl, zero_le_one⟩
  rename_i h_amount
  split at h
  · cases h
    exact ⟨le_rfl, zero_le_one⟩
  rename_i h_peak
  simp only [bind_eq_ok, pure_eq_ok, ofOption_eq_ok] at h
  obtain ⟨fraction, h_fraction, rfl⟩ := h
  have h_div := accountingContext.round_nonneg
    (div_nonneg (not_le.mp h_amount).le (not_le.mp h_peak).le)
  exact ⟨le_min (Context.quantize_nonneg h_fraction h_div) zero_le_one, min_le_right _ _⟩

theorem isGreatest_declines {decline : ℚ}
    (h : IsGreatest (falls (· - ·) (equitiesOf series)) decline) :
    IsGreatest (declines series) (accountingContext.round decline) := by
  constructor
  · obtain ⟨j, i, x, y, h_le, h_x, h_y, rfl⟩ := h.1
    exact ⟨j, i, x, y, h_le, h_x, h_y, rfl⟩
  · rintro amount ⟨j, i, x, y, h_le, h_x, h_y, rfl⟩
    exact accountingContext.round_mono (h.2 ⟨j, i, x, y, h_le, h_x, h_y, rfl⟩)

theorem exists_greatest_decline (h : 0 < series.length) :
    ∃ decline, IsGreatest (falls (· - ·) (equitiesOf series)) decline := by
  obtain ⟨first, rest, rfl⟩ := List.exists_cons_of_length_pos h
  have h_mono (trough : ℚ) : Monotone fun peak => peak - trough :=
    fun _ _ h_le => sub_le_sub_right h_le trough
  exact ⟨_, (scanned_scan h_mono first.totalEquity (equitiesOf rest)).best⟩

theorem greatest_decline_nonneg {decline : ℚ}
    (h : IsGreatest (falls (· - ·) (equitiesOf series)) decline) : 0 ≤ decline := by
  obtain ⟨_, i, x, _, _, h_x, _, _⟩ := h.1
  exact h.2 ⟨i, i, x, x, le_rfl, h_x, h_x, sub_self x⟩

theorem maxDrawdown_of_order (h_two : 2 ≤ series.length) (h_order : InTimeOrder series) : ∃ found,
      Scanned declineOf (equitiesOf series) found ∧
      maxDrawdown series = report ⟨found.peak, found.best, found.peakAtBest⟩ := by
  obtain ⟨first, rest, h_series⟩ : ∃ first rest, equitiesOf series = first :: rest := by
    refine List.exists_cons_of_ne_nil fun h_none => ?_
    have h_length : (equitiesOf series).length = series.length := List.length_map ..
    rw [h_none, List.length_nil] at h_length
    omega
  refine ⟨scan declineOf first rest, ?_, ?_⟩
  · rw [h_series]
    exact scanned_scan declineOf_mono first rest
  · unfold maxDrawdown
    rw [if_neg (by omega), foldlM_readSnapshot, if_pos h_order, h_series, ← foldl_declineStep]
    rfl

theorem maxDrawdown_eq_snapshotOrder :
    maxDrawdown series = .error .snapshotOrder ↔ 2 ≤ series.length ∧ ¬ InTimeOrder series := by
  by_cases h_two : 2 ≤ series.length
  · by_cases h_order : InTimeOrder series
    · obtain ⟨found, _, h_run⟩ := maxDrawdown_of_order h_two h_order
      refine iff_of_false (fun h => ?_) fun h => h.2 h_order
      rw [h_run] at h
      exact report_ne_snapshotOrder h
    · refine iff_of_true ?_ ⟨h_two, h_order⟩
      unfold maxDrawdown
      rw [if_neg (by omega), foldlM_readSnapshot, if_neg h_order]
      rfl
  · refine iff_of_false (fun h => ?_) fun h => h_two h.1
    rw [maxDrawdown, if_pos (by omega)] at h
    cases h

theorem maxDrawdown_bounds {drawdown : Drawdown} (h : maxDrawdown series = .ok drawdown) :
    0 ≤ drawdown.fraction ∧ drawdown.fraction ≤ 1 := by
  by_cases h_two : 2 ≤ series.length
  · by_cases h_order : InTimeOrder series
    · obtain ⟨found, _, h_run⟩ := maxDrawdown_of_order h_two h_order
      exact report_bounds (h_run ▸ h)
    · have h_refused := maxDrawdown_eq_snapshotOrder.mpr ⟨h_two, h_order⟩
      rw [h_refused] at h
      cases h
  · rw [maxDrawdown, if_pos (by omega)] at h
    cases h
    exact ⟨le_rfl, zero_le_one⟩

/-- A series out of time order is refused, fewer than two snapshots have no drawdown, and
    otherwise the amount is the largest decline over all pairs of snapshots and the fraction
    its share of the peak before the first trough. -/
theorem maxDrawdown_spec (series : List Snapshot) :
    (maxDrawdown series = .error .snapshotOrder ↔ 2 ≤ series.length ∧ ¬ InTimeOrder series) ∧
    (series.length < 2 → maxDrawdown series = .ok ⟨0, 0⟩) ∧
    (∀ drawdown, maxDrawdown series = .ok drawdown →
      0 ≤ drawdown.fraction ∧ drawdown.fraction ≤ 1) ∧
    (2 ≤ series.length → InTimeOrder series → ∃ decline,
      IsGreatest (falls (· - ·) (equitiesOf series)) decline ∧ 0 ≤ decline ∧
      (decline = 0 → maxDrawdown series = .ok ⟨0, 0⟩) ∧
      ∀ amount j peak, amount = accountingContext.round decline → 0 < decline →
        IsFirstTrough series amount j → PeakAt (equitiesOf series) j peak →
        (peak ≤ 0 → maxDrawdown series = .ok ⟨amount, 0⟩) ∧
        (0 < peak → amount ≤ 10 ^ 28 * peak → ∃ fraction,
          accountingContext.quantize .halfEven fractionPlaces (accountingContext.div amount peak)
            = some fraction ∧
          maxDrawdown series = .ok ⟨amount, min fraction 1⟩)) := by
  refine ⟨maxDrawdown_eq_snapshotOrder, fun h => if_pos h, fun _ => maxDrawdown_bounds, ?_⟩
  intro h_two h_order
  obtain ⟨found, h_found, h_run⟩ := maxDrawdown_of_order h_two h_order
  have h_some : 0 < series.length := by omega
  obtain ⟨decline, h_decline⟩ := exists_greatest_decline h_some
  -- The largest fall is unique, so what the pass found is the rounded one.
  have h_best : found.best = accountingContext.round decline :=
    h_found.best.unique (isGreatest_declines h_decline)
  refine ⟨decline, h_decline, greatest_decline_nonneg h_decline, ?_, ?_⟩
  · rintro rfl
    rw [h_run, report, if_pos]
    rw [h_best, accountingContext.round_zero]
  · rintro amount j peak h_amount h_pos h_first h_peak
    have h_pos := h_amount ▸ accountingContext.round_pos h_pos
    rw [← h_best] at h_amount
    subst h_amount
    have h_at : found.peakAtBest = peak := by
      exact (h_found.peakAtBest j h_first).unique h_peak
    subst h_at
    refine ⟨fun h_zero => ?_, fun h_zero h_share => ?_⟩
    · rw [h_run, report, if_neg (not_le.mpr h_pos), if_pos h_zero]
    · obtain ⟨fraction, h_fraction⟩ := quantize_div_isSome h_pos h_zero h_share
      refine ⟨fraction, h_fraction, ?_⟩
      rw [h_run, report, if_neg (not_le.mpr h_pos), if_neg (not_le.mpr h_zero)]
      simp only [h_fraction]
      rfl

/-- A decline of 35 digits is reported in 34: the amount is not the decline itself. -/
theorem maxDrawdown_of_long_decline :
    InTimeOrder [⟨10 ^ 34 + 1, none⟩, ⟨0, none⟩] ∧
    IsGreatest (falls (· - ·) (equitiesOf [⟨10 ^ 34 + 1, none⟩, ⟨0, none⟩])) (10 ^ 34 + 1) ∧
    maxDrawdown [⟨10 ^ 34 + 1, none⟩, ⟨0, none⟩] = .ok ⟨10 ^ 34, 1⟩ := by
  refine ⟨by decide, ?_, by decide +kernel⟩
  have h_mono (trough : ℚ) : Monotone fun peak => peak - trough :=
    fun _ _ h_le => sub_le_sub_right h_le trough
  have h_best := (scanned_scan h_mono (10 ^ 34 + 1) [0]).best
  have h_scan : (scan (· - ·) (10 ^ 34 + 1 : ℚ) [0]).best = 10 ^ 34 + 1 := by
    decide +kernel
  rwa [h_scan] at h_best

/-- The spec at an equity that rises, falls and falls again. -/
theorem maxDrawdown_spec_sample :
    ∃ decline, IsGreatest (falls (· - ·) (equitiesOf
        [⟨100, some 1⟩, ⟨120, none⟩, ⟨90, some 2⟩, ⟨105, some 2⟩, ⟨90, some 3⟩])) decline ∧
      0 ≤ decline := by
  obtain ⟨decline, h_decline, h_nonneg, _⟩ := (maxDrawdown_spec
    [⟨100, some 1⟩, ⟨120, none⟩, ⟨90, some 2⟩, ⟨105, some 2⟩, ⟨90, some 3⟩]).2.2.2
      (by decide) (by decide)
  exact ⟨decline, h_decline, h_nonneg⟩

example : maxDrawdown [⟨100, some 1⟩, ⟨120, none⟩, ⟨90, some 2⟩, ⟨105, some 2⟩, ⟨90, some 3⟩] =
    .ok ⟨30, 1 / 4⟩ := by
  decide +kernel

example : maxDrawdown [⟨100, some 2⟩, ⟨120, some 1⟩] = .error .snapshotOrder := by
  decide +kernel

end VyomQuant.Paper.Accounting
