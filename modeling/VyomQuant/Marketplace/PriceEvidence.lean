/-
  VyomQuant.Marketplace.PriceEvidence

  What the price suggestion depends on.  The rows are read column by column, and every
  statistic but the standard deviation is of a multiset; the standard deviation adds the
  returns and their squared deviations in list order, and each addition is rounded.  Where no
  such sum is, the suggestion is a function of the evidence (`price_of_evidence`); where one
  is, two orders of the same evidence may be priced differently under one digest
  (`price_of_evidence_divergence`).
-/

import VyomQuant.Lib.Related
import VyomQuant.Marketplace.PricingEvaluator
import VyomQuant.StrategyDag.Identity

namespace VyomQuant.Marketplace.Pricing

open Decimal Except
open StrategyDag (Value dumps strip)

/-- What a refusal is without its message, which names the first row that is refused. -/
def PricingError.withoutMessage : PricingError → PricingError
  | .invalidEvidenceInput _ => .invalidEvidenceInput ""
  | e => e

/-- A result, or the refusal. -/
def outcome {α : Type} (x : Except PricingError α) : Except PricingError α :=
  x.mapError PricingError.withoutMessage

/-- Two refusals of one kind. -/
def SameRefusal (e e' : PricingError) : Prop := e.withoutMessage = e'.withoutMessage

theorem SameRefusal.refl (e : PricingError) : SameRefusal e e := rfl

/-! ## Reading the rows -/

section Reading

variable {scripts : ScriptDigits} {row : Row} {name : String} {rows rows' : List Row}

theorem missingEvidenceInputs_perm (h : rows.Perm rows') (required : List String) :
    missingEvidenceInputs rows required = missingEvidenceInputs rows' required := by
  have h_any : ∀ name, (rows.any fun row => read row name = none)
      = rows'.any fun row => read row name = none := by
    intro name
    rw [Bool.eq_iff_iff, List.any_eq_true, List.any_eq_true]
    simp only [h.mem_iff]
  have h_empty : rows.isEmpty = rows'.isEmpty := by
    rw [Bool.eq_iff_iff, List.isEmpty_iff, List.isEmpty_iff, ← List.length_eq_zero_iff,
      ← List.length_eq_zero_iff, h.length_eq]
  unfold missingEvidenceInputs
  simp only [h_any, h_empty]

theorem require_perm (h : rows.Perm rows') (required : List String) :
    require rows required = require rows' required := by
  rw [require, require, missingEvidenceInputs_perm h]

theorem require_eq_ok_iff {required : List String} (h_required : required ≠ []) :
    require rows required = .ok () ↔
      rows ≠ [] ∧ ∀ name ∈ required, ∀ row ∈ rows, read row name ≠ none := by
  rw [require, refuseIf_eq_ok, not_not, missingEvidenceInputs]
  have h_nil : ∀ missing : List String, missing.dedup.insertionSort (· ≤ ·) = [] ↔ missing = [] := by
    intro missing
    rw [← List.length_eq_zero_iff, List.length_insertionSort, List.length_eq_zero_iff,
      List.dedup_eq_nil]
  rw [h_nil]
  cases rows with
  | nil => simp [h_required]
  | cons row rest => simp [List.filter_eq_nil_iff]

theorem require_mono {required required' : List String} (h_required : required ≠ [])
    (h_subset : required ⊆ required') (h : require rows required' = .ok ()) :
    require rows required = .ok () := by
  have h_required' : required' ≠ [] := by
    rintro rfl
    exact h_required (List.subset_nil.mp h_subset)
  obtain ⟨h_rows, h_read⟩ := (require_eq_ok_iff h_required').mp h
  exact (require_eq_ok_iff h_required).mpr ⟨h_rows, fun name h_name => h_read name (h_subset h_name)⟩

/-- What is refused is a value, and nothing that is missing. -/
def OnlyInvalid {α : Type} (x : Except PricingError α) : Prop :=
  ∀ e, x = .error e → SameRefusal e (.invalidEvidenceInput "")

section OnlyInvalid

variable {α β : Type}

theorem OnlyInvalid.ok (a : α) : OnlyInvalid (.ok a) := nofun

theorem OnlyInvalid.error (message : String) :
    OnlyInvalid (.error (.invalidEvidenceInput message) : Except PricingError α) := by
  intro e h
  cases h
  rfl

theorem OnlyInvalid.bind {x : Except PricingError α} {f : α → Except PricingError β}
    (h : OnlyInvalid x) (h_f : ∀ a, OnlyInvalid (f a)) : OnlyInvalid (x >>= f) := by
  cases x with
  | error e' =>
    intro e h_e
    cases h_e
    exact h e' rfl
  | ok a => exact h_f a

theorem OnlyInvalid.refuseIf {c : Prop} [Decidable c] (message : String) :
    OnlyInvalid (refuseIf c (.invalidEvidenceInput message)) := by
  unfold Except.refuseIf
  split
  · exact OnlyInvalid.error message
  · exact OnlyInvalid.ok ()

theorem OnlyInvalid.ofOption (message : String) (o : Option α) :
    OnlyInvalid (ofOption (.invalidEvidenceInput message) o) := by
  cases o with
  | none => exact OnlyInvalid.error message
  | some a => exact OnlyInvalid.ok a

theorem OnlyInvalid.mapM_perm {f : Row → Except PricingError α} (h : ∀ row ∈ rows, OnlyInvalid (f row))
    (h_perm : rows.Perm rows') : Related SameRefusal List.Perm (rows.mapM f) (rows'.mapM f) :=
  Related.mapM_perm (fun row h_row row' h_row' e e' h_e h_e' =>
    (h row h_row e h_e).trans (h row' h_row' e' h_e').symm) h_perm

end OnlyInvalid

theorem onlyInvalid_decimalInput (h_read : read row name ≠ none) :
    OnlyInvalid (decimalInput scripts row name) := by
  unfold decimalInput
  split
  · exact absurd ‹_› h_read
  · exact OnlyInvalid.error _
  · exact OnlyInvalid.ok _
  · exact OnlyInvalid.ok _
  · exact OnlyInvalid.error _
  · split
    · exact OnlyInvalid.ok _
    · exact OnlyInvalid.error _
    · exact OnlyInvalid.error _
  · exact OnlyInvalid.error _

theorem onlyInvalid_integerInput (h_read : read row name ≠ none) :
    OnlyInvalid (integerInput scripts row name) := by
  unfold integerInput
  split
  · exact absurd ‹_› h_read
  · exact OnlyInvalid.error _
  · exact OnlyInvalid.ok _
  · exact (onlyInvalid_decimalInput h_read).bind fun d =>
      (OnlyInvalid.refuseIf _).bind fun _ => OnlyInvalid.ok _

theorem onlyInvalid_dateInput (h_read : read row name ≠ none) : OnlyInvalid (dateInput row name) := by
  unfold dateInput
  split
  · exact absurd ‹_› h_read
  · exact OnlyInvalid.ok _
  · exact OnlyInvalid.ok _
  · exact OnlyInvalid.ofOption _ _
  · exact OnlyInvalid.error _

theorem onlyInvalid_textInput (h_read : read row name ≠ none) : OnlyInvalid (textInput row name) := by
  unfold textInput
  split
  · exact absurd ‹_› h_read
  · exact OnlyInvalid.error _
  · exact OnlyInvalid.ok _

/-! ## The columns -/

/-- The columns of one multiset of rows. -/
structure Columns.Perm (columns columns' : Columns) : Prop where
  returns : columns.returns.Perm columns'.returns
  sharpes : columns.sharpes.Perm columns'.sharpes
  sortinos : columns.sortinos.Perm columns'.sortinos
  drawdowns : columns.drawdowns.Perm columns'.drawdowns
  winRates : columns.winRates.Perm columns'.winRates
  profitFactors : columns.profitFactors.Perm columns'.profitFactors
  tradeCounts : columns.tradeCounts.Perm columns'.tradeCounts
  windowLengths : columns.windowLengths.Perm columns'.windowLengths

theorem decimalColumn_perm (h_read : ∀ row ∈ rows, read row name ≠ none) (h : rows.Perm rows') :
    Related SameRefusal List.Perm (decimalColumn scripts rows name)
      (decimalColumn scripts rows' name) :=
  OnlyInvalid.mapM_perm (fun row h_row =>
    (onlyInvalid_decimalInput (h_read row h_row)).bind fun _ => OnlyInvalid.ok _) h

theorem readColumns_perm (h_read : ∀ name ∈ PRICING_INPUTS, ∀ row ∈ rows, read row name ≠ none)
    (h : rows.Perm rows') :
    Related SameRefusal Columns.Perm (readColumns scripts rows) (readColumns scripts rows') := by
  have h_column : ∀ name ∈ PRICING_INPUTS, Related SameRefusal List.Perm
      (decimalColumn scripts rows name) (decimalColumn scripts rows' name) :=
    fun name h_name => decimalColumn_perm (h_read name h_name) h
  have h_trades : Related SameRefusal List.Perm
      (rows.mapM fun row => integerInput scripts row "total_trades")
      (rows'.mapM fun row => integerInput scripts row "total_trades") :=
    OnlyInvalid.mapM_perm (fun row h_row =>
      onlyInvalid_integerInput (h_read _ (by decide) row h_row)) h
  have h_windows : Related SameRefusal List.Perm (rows.mapM windowDays) (rows'.mapM windowDays) :=
    OnlyInvalid.mapM_perm (fun row h_row =>
      (onlyInvalid_dateInput (h_read _ (by decide) row h_row)).bind fun _ =>
        (onlyInvalid_dateInput (h_read _ (by decide) row h_row)).bind fun _ => OnlyInvalid.ok _) h
  unfold readColumns
  refine (h_column _ (by decide)).bind fun returns returns' _ _ h_returns => ?_
  refine (h_column _ (by decide)).bind fun sharpes sharpes' _ _ h_sharpes => ?_
  refine (h_column _ (by decide)).bind fun sortinos sortinos' _ _ h_sortinos => ?_
  refine (h_column _ (by decide)).bind fun drawdowns drawdowns' _ _ h_drawdowns => ?_
  refine (h_column _ (by decide)).bind fun winRates winRates' _ _ h_winRates => ?_
  refine (h_column _ (by decide)).bind fun profitFactors profitFactors' _ _ h_profitFactors => ?_
  refine h_trades.bind fun tradeCounts tradeCounts' _ _ h_tradeCounts => ?_
  refine h_windows.bind fun windowLengths windowLengths' _ _ h_windowLengths => ?_
  exact .ok ⟨h_returns, h_sharpes, h_sortinos, h_drawdowns, h_winRates, h_profitFactors,
    h_tradeCounts, h_windowLengths⟩

end Reading

/-! ## The statistics -/

variable {columns : Columns}

section Statistics

variable {ctx : BoundedContext} {values values' : List ℚ}

theorem median_perm (h : values.Perm values') : median ctx values = median ctx values' := by
  have h_sorted : values.insertionSort (· ≤ ·) = values'.insertionSort (· ≤ ·) :=
    (((List.perm_insertionSort _ _).trans h).trans (List.perm_insertionSort _ _).symm).eq_of_pairwise
      (fun a b _ _ h_le h_ge => le_antisymm h_le h_ge)
      (List.pairwise_insertionSort _ _) (List.pairwise_insertionSort _ _)
  rw [median, median, h_sorted, h.length_eq]

theorem max?_perm {α : Type} [LinearOrder α] {l l' : List α} (h : l.Perm l') : l.max? = l'.max? := by
  cases h_max : l'.max? with
  | none =>
    rw [List.max?_eq_none_iff] at h_max ⊢
    rw [h_max] at h
    exact h.eq_nil
  | some a =>
    rw [List.max?_eq_some_iff] at h_max ⊢
    exact ⟨h.mem_iff.mpr h_max.1, fun b h_b => h_max.2 b (h.mem_iff.mp h_b)⟩

theorem min?_perm {α : Type} [LinearOrder α] {l l' : List α} (h : l.Perm l') : l.min? = l'.min? := by
  cases h_min : l'.min? with
  | none =>
    rw [List.min?_eq_none_iff] at h_min ⊢
    rw [h_min] at h
    exact h.eq_nil
  | some a =>
    rw [List.min?_eq_some_iff] at h_min ⊢
    exact ⟨h.mem_iff.mpr h_min.1, fun b h_b => h_min.2 b (h.mem_iff.mp h_b)⟩

theorem worstDrawdown_perm (h : values.Perm values') :
    worstDrawdown ctx values = worstDrawdown ctx values' := by
  unfold worstDrawdown
  cases h_found : values.mapM ctx.abs with
  | some found =>
    obtain ⟨found', h_found', h_perm⟩ := h.mapM_eq_some h_found
    rw [h_found']
    exact max?_perm h_perm
  | none =>
    cases h_found' : values'.mapM ctx.abs with
    | none => rfl
    | some found' =>
      obtain ⟨found, h_some, _⟩ := h.symm.mapM_eq_some h_found'
      rw [h_found] at h_some
      cases h_some

theorem foldlM_squaredDeviation (mean acc : ℚ) (values : List ℚ) :
    (values.foldlM (fun acc value => do
      let square ← squaredDeviation ctx mean value
      ctx.add acc square) acc)
      = (values.mapM (squaredDeviation ctx mean)) >>= fun squares => squares.foldlM ctx.add acc := by
  induction values generalizing acc with
  | nil => rfl
  | cons value rest ih =>
    rw [List.foldlM_cons, List.mapM_cons]
    cases h_square : squaredDeviation ctx mean value with
    | none => rfl
    | some square =>
      simp only [Option.bind_eq_bind, Option.bind_some, Option.bind_assoc, Option.pure_def,
        List.foldlM_cons]
      cases h_add : ctx.add acc square with
      | none =>
        rw [Option.bind_none]
        simp
      | some next =>
        have h_next := ih next
        simp only [Option.bind_eq_bind] at h_next
        rw [Option.bind_some, h_next]
        simp

variable (ctx) in
/-- None of the additions of the standard deviation is rounded, in whatever order the values
    come: neither of the values nor of their squared deviations. -/
def NoSumRounded (values : List ℚ) : Prop :=
  ctx.Exact values ∧
    ∀ mean ∈ ctx.div values.sum values.length,
      ∀ squares ∈ values.mapM (squaredDeviation ctx mean), ctx.Exact squares

instance (values : List ℚ) : Decidable (NoSumRounded ctx values) :=
  inferInstanceAs (Decidable (ctx.Exact values ∧
    ∀ mean ∈ ctx.div values.sum values.length,
      ∀ squares ∈ values.mapM (squaredDeviation ctx mean), ctx.Exact squares))

theorem populationSd_perm (h_exact : NoSumRounded ctx values) (h : values.Perm values') :
    populationSd ctx values = populationSd ctx values' := by
  obtain ⟨h_values, h_squares⟩ := h_exact
  unfold populationSd
  rw [BoundedContext.sum_of_exact h_values, BoundedContext.sum_of_exact (h_values.perm h),
    ← h.sum_eq, ← h.length_eq]
  simp only [Option.bind_eq_bind, Option.bind_some]
  cases h_mean : ctx.div values.sum values.length with
  | none => rfl
  | some mean =>
    rw [Option.bind_some, Option.bind_some]
    have h_sum := @foldlM_squaredDeviation ctx mean 0 values
    have h_sum' := @foldlM_squaredDeviation ctx mean 0 values'
    simp only [Option.bind_eq_bind] at h_sum h_sum'
    rw [h_sum, h_sum']
    cases h_found : values.mapM (squaredDeviation ctx mean) with
    | some squares =>
      obtain ⟨squares', h_found', h_perm⟩ := h.mapM_eq_some h_found
      have h_exact := h_squares mean h_mean squares h_found
      have h_total := BoundedContext.sum_of_exact h_exact
      have h_total' := BoundedContext.sum_of_exact (h_exact.perm h_perm)
      unfold BoundedContext.sum at h_total h_total'
      rw [h_found', Option.bind_some, Option.bind_some, h_total, h_total', h_perm.sum_eq]
    | none =>
      cases h_found' : values'.mapM (squaredDeviation ctx mean) with
      | none => rfl
      | some squares' =>
        obtain ⟨squares, h_some, _⟩ := h.symm.mapM_eq_some h_found'
        rw [h_found] at h_some
        cases h_some

theorem statistics_perm {columns' : Columns} (h_exact : NoSumRounded ctx columns.returns)
    (h : columns.Perm columns') : statistics ctx columns = statistics ctx columns' := by
  unfold statistics
  rw [h.returns.length_eq, median_perm h.returns, populationSd_perm h_exact h.returns,
    median_perm h.sharpes, median_perm h.sortinos, worstDrawdown_perm h.drawdowns,
    median_perm h.winRates, median_perm h.profitFactors, h.tradeCounts.sum_eq,
    min?_perm h.windowLengths]

end Statistics

/-! ## The bounds of the score -/

variable {s : Statistics} {q : ℚ}

/-! ## The score -/

def scoreColumns (columns : Columns) : Except PricingError ℤ := do
  let c ← ofOption .decimalException
    (statistics evaluationContext columns >>= components evaluationContext)
  let score ← ofOption .decimalException (wholeScore c.total)
  refuseIf (¬ (0 ≤ score ∧ score ≤ 100)) .assertionError
  return score

theorem qualityScore_eq (scripts : ScriptDigits) (rows : List Row) :
    qualityScore scripts rows =
      (require rows PRICING_INPUTS >>= fun _ => readColumns scripts rows >>= scoreColumns) := by
  simp only [qualityScore, qualityComponents, bind_assoc]
  rfl

theorem scoreColumns_perm {columns' : Columns}
    (h_exact : NoSumRounded evaluationContext columns.returns) (h : columns.Perm columns') :
    scoreColumns columns = scoreColumns columns' := by
  rw [scoreColumns, scoreColumns, statistics_perm h_exact h]

theorem scoreColumns_mem {score : ℤ} (h : scoreColumns columns = .ok score) :
    0 ≤ score ∧ score ≤ 100 := by
  obtain ⟨c, _, h⟩ := bind_eq_ok.mp h
  obtain ⟨found, _, h⟩ := bind_eq_ok.mp h
  obtain ⟨_, h_check, h⟩ := bind_eq_ok.mp h
  rw [pure_eq_ok] at h
  rw [← h]
  exact not_not.mp (refuseIf_eq_ok.mp h_check)

/-! ## The prices -/

variable {currency digest : String}

theorem anchor_mem {base span : ℕ} (h : anchor currency = .ok (base, span)) :
    2 ≤ base ∧ 250 * (base + span) ≤ 100 * ABSOLUTE_MAX_MINOR := by
  have h_all : ∀ entry ∈ ANCHORS, 2 ≤ entry.2.1 ∧
      250 * (entry.2.1 + entry.2.2) ≤ 100 * ABSOLUTE_MAX_MINOR := by decide
  obtain ⟨before, after, h_anchors, _⟩ := List.lookup_eq_some_iff.mp (ofOption_eq_ok.mp h)
  have h_mem : (currency, base, span) ∈ ANCHORS := by
    rw [h_anchors]
    exact List.mem_append_right _ List.mem_cons_self
  exact h_all _ h_mem

theorem pricesOf_inOrder {base span : ℕ} {quality : ℤ} (h_base : 2 ≤ base)
    (h_room : 250 * (base + span) ≤ 100 * ABSOLUTE_MAX_MINOR) (h : 0 ≤ quality ∧ quality ≤ 100) :
    (pricesOf base span quality).InOrder := by
  have h_low : 0 ≤ (span : ℤ) * quality := mul_nonneg (Int.natCast_nonneg _) h.1
  have h_high : (span : ℤ) * quality ≤ span * 100 := mul_le_mul_of_nonneg_left h.2 (Int.natCast_nonneg _)
  unfold PriceRange.InOrder pricesOf MINIMUM_RATIO_PCT MAXIMUM_RATIO_PCT
  unfold ABSOLUTE_MAX_MINOR at h_room ⊢
  generalize (span : ℤ) * quality = product at h_low h_high
  simp only
  omega

theorem pricesOf_mono (base : ℕ) {span : ℕ} {quality quality' : ℤ} (h : quality ≤ quality') :
    (pricesOf base span quality).minimumPriceMinor ≤ (pricesOf base span quality').minimumPriceMinor ∧
    (pricesOf base span quality).recommendedPriceMinor
      ≤ (pricesOf base span quality').recommendedPriceMinor ∧
    (pricesOf base span quality).maximumPriceMinor
      ≤ (pricesOf base span quality').maximumPriceMinor := by
  have h_product : (span : ℤ) * quality ≤ span * quality' :=
    mul_le_mul_of_nonneg_left h (Int.natCast_nonneg _)
  unfold pricesOf MINIMUM_RATIO_PCT MAXIMUM_RATIO_PCT ABSOLUTE_MAX_MINOR
  generalize (span : ℤ) * quality = product at h_product
  generalize (span : ℤ) * quality' = product' at h_product
  simp only
  omega

/-! ## The digest -/

theorem str_injective {d d' : Number} (h : d.str = d'.str) : d = d' := by
  have h_parse := parse_str d
  rw [h, parse_str] at h_parse
  rw [← number_spelling d, ← number_spelling d', Option.some.inj h_parse]

variable {entries entries' : List DigestEntry}

section Text

open StrategyDag

theorem exists_mem_of_sameMembers : ∀ {members members' : List (String × Value)},
    SameMembers members members' → ∀ {key : String} {value : Value}, (key, value) ∈ members →
      ∃ value', (key, value') ∈ members' ∧ Same value value'
  | [], [], _, _, _, h_mem => absurd h_mem List.not_mem_nil
  | (key, value) :: rest, (key', value') :: rest', h, found, foundValue, h_mem => by
    rw [SameMembers] at h
    rcases List.mem_cons.mp h_mem with h_head | h_rest
    · cases h_head
      exact ⟨value', by rw [h.1]; exact List.mem_cons_self, h.2.1⟩
    · obtain ⟨other, h_other, h_same⟩ := exists_mem_of_sameMembers h.2.2 h_rest
      exact ⟨other, List.mem_cons_of_mem _ h_other, h_same⟩
  | [], _ :: _, h, _, _, _ => by simp [SameMembers] at h
  | _ :: _, [], h, _, _, _ => by simp [SameMembers] at h

theorem forall₂_of_dumps {members members' : List (String × Value)}
    (h_keys : members.map Prod.fst = members'.map Prod.fst) (h_nodup : (members.map Prod.fst).Nodup)
    (h : dumps (.dict members) = dumps (.dict members')) :
    List.Forall₂ (fun member member' => Same (sortKeys member.2) (sortKeys member'.2))
      members members' := by
  rw [dumps_eq, dumps_eq, written_eq_iff, sortKeys, sortKeys, Same, sortKeysMembers_eq,
    sortKeysMembers_eq] at h
  have h_length : members.length = members'.length := by
    simpa using congrArg List.length h_keys
  refine List.forall₂_iff_get.mpr ⟨h_length, fun i h_i h_i' => ?_⟩
  have h_sorted : (members[i].1, sortKeys members[i].2) ∈ sortedByKey
      (members.map fun member => (member.1, sortKeys member.2)) :=
    (List.mem_insertionSort _).mpr (List.mem_map_of_mem (List.getElem_mem h_i))
  obtain ⟨found, h_found, h_same⟩ := exists_mem_of_sameMembers h h_sorted
  obtain ⟨member, h_member, h_eq⟩ := List.mem_map.mp ((List.mem_insertionSort _).mp h_found)
  obtain ⟨h_key, h_value⟩ := Prod.mk.inj h_eq
  -- The keys are distinct, so what was found under the key is at the place of the key.
  have h_key' : member.1 = members'[i].1 := by
    have h_at := List.getElem_of_eq h_keys (i := i) (by simpa using h_i)
    rw [List.getElem_map, List.getElem_map] at h_at
    rw [h_key, h_at]
  have h_place : member = members'[i] :=
    List.inj_on_of_nodup_map (h_keys ▸ h_nodup) h_member (List.getElem_mem h_i') h_key'
  rw [← h_value, h_place] at h_same
  exact h_same

def digestKeys : List String :=
  ["ret", "sharpe", "sortino", "dd", "win", "pf", "trades", "start", "end", "id", "dataset_checksum",
    "dag_hash", "bars", "final"]

theorem map_fst_members (entry : DigestEntry) : entry.members.map Prod.fst = digestKeys := rfl

theorem nodup_digestKeys : digestKeys.Nodup := by decide

theorem value_eq (entry : DigestEntry) : entry.value = .dict entry.members := rfl

theorem entry_injective {entry entry' : DigestEntry} (h : dumps entry.value = dumps entry'.value) :
    entry = entry' := by
  rw [value_eq, value_eq] at h
  have h_fields := forall₂_of_dumps ((map_fst_members entry).trans (map_fst_members entry').symm)
    (map_fst_members entry ▸ nodup_digestKeys) h
  unfold DigestEntry.members at h_fields
  simp only [List.forall₂_cons, sortKeys, Same, sameScalar_str_iff, sameScalar_int_iff] at h_fields
  obtain ⟨h_ret, h_sharpe, h_sortino, h_dd, h_win, h_pf, h_trades, h_start, h_last, h_id, h_checksum,
    h_dagHash, h_bars, h_final, _⟩ := h_fields
  cases entry
  cases entry'
  simp only [DigestEntry.mk.injEq]
  exact ⟨str_injective h_ret, str_injective h_sharpe, str_injective h_sortino, str_injective h_dd,
    str_injective h_win, str_injective h_pf, h_trades, Date.isoformat_injective h_start,
    Date.isoformat_injective h_last, h_id, h_checksum, h_dagHash, h_bars, str_injective h_final⟩

theorem digestText_perm (h : entries.Perm entries') : digestText entries = digestText entries' := by
  have h_sorted := @KeySort.insertionSort_map_congr _ _ _ _ DigestEntry.sortKey id _ _
    (fun entry _ entry' _ h_key => entry_injective ?_) (h.map fun entry => (entry.sortKey, id entry))
  · rw [List.map_id, List.map_id] at h_sorted
    rw [digestText, digestText, h_sorted]
  · have h_pair := toLex_inj.mp h_key
    exact String.ofList_injective (Prod.mk.inj h_pair).2

theorem forall₂_of_dumps_list {items items' : List Value}
    (h : dumps (.list items) = dumps (.list items')) :
    List.Forall₂ (fun item item' => dumps item = dumps item') items items' := by
  rw [dumps_eq, dumps_eq, written_eq_iff, sortKeys, sortKeys, Same, sortKeysItems_eq,
    sortKeysItems_eq, sameItems_iff, List.forall₂_map_left_iff, List.forall₂_map_right_iff] at h
  refine h.imp fun item item' h_same => ?_
  rw [dumps_eq, dumps_eq]
  exact written_eq_iff.mpr h_same

theorem entries_injective
    (h : dumps (.list (entries.map DigestEntry.value)) = dumps (.list (entries'.map DigestEntry.value))) :
    entries = entries' := by
  have h_items := forall₂_of_dumps_list h
  rw [List.forall₂_map_left_iff, List.forall₂_map_right_iff] at h_items
  clear h
  induction h_items with
  | nil => rfl
  | cons h_head _ ih => rw [entry_injective h_head, ih]

theorem perm_of_digestText (h : digestText entries = digestText entries') :
    entries.Perm entries' := by
  have h_sorted := entries_injective h
  have h_perm := List.perm_insertionSort (fun a b : DigestEntry => a.sortKey ≤ b.sortKey) entries
  rw [h_sorted] at h_perm
  exact h_perm.symm.trans (List.perm_insertionSort _ entries')

end Text

/-! ## Evidence -/

section Evidence

variable {scripts : ScriptDigits} {row : Row} {rows rows' : List Row}

def columnsOf (entries : List DigestEntry) : Columns where
  returns := entries.map fun entry => entry.ret.value
  sharpes := entries.map fun entry => entry.sharpe.value
  sortinos := entries.map fun entry => entry.sortino.value
  drawdowns := entries.map fun entry => entry.dd.value
  winRates := entries.map fun entry => entry.win.value
  profitFactors := entries.map fun entry => entry.pf.value
  tradeCounts := entries.map fun entry => entry.trades
  windowLengths := entries.map fun entry => entry.last.toordinal - entry.start.toordinal + 1

theorem columnsOf_perm (h : entries.Perm entries') :
    (columnsOf entries).Perm (columnsOf entries') :=
  ⟨h.map _, h.map _, h.map _, h.map _, h.map _, h.map _, h.map _, h.map _⟩

/-- What the price reads of a row whose entry was read. -/
structure ReadsAs (scripts : ScriptDigits) (row : Row) (entry : DigestEntry) : Prop where
  ret : decimalInput scripts row "total_return_pct" = .ok entry.ret
  sharpe : decimalInput scripts row "sharpe_ratio" = .ok entry.sharpe
  sortino : decimalInput scripts row "sortino_ratio" = .ok entry.sortino
  dd : decimalInput scripts row "max_drawdown_pct" = .ok entry.dd
  win : decimalInput scripts row "win_rate_pct" = .ok entry.win
  pf : decimalInput scripts row "profit_factor" = .ok entry.pf
  trades : integerInput scripts row "total_trades" = .ok entry.trades
  start : dateInput row "start_date" = .ok entry.start
  last : dateInput row "end_date" = .ok entry.last

theorem readsAs_of_digestEntry {entry : DigestEntry} (h : digestEntry scripts row = .ok entry) :
    ReadsAs scripts row entry := by
  obtain ⟨ret, h_ret, h⟩ := bind_eq_ok.mp h
  obtain ⟨sharpe, h_sharpe, h⟩ := bind_eq_ok.mp h
  obtain ⟨sortino, h_sortino, h⟩ := bind_eq_ok.mp h
  obtain ⟨dd, h_dd, h⟩ := bind_eq_ok.mp h
  obtain ⟨win, h_win, h⟩ := bind_eq_ok.mp h
  obtain ⟨pf, h_pf, h⟩ := bind_eq_ok.mp h
  obtain ⟨trades, h_trades, h⟩ := bind_eq_ok.mp h
  obtain ⟨start, h_start, h⟩ := bind_eq_ok.mp h
  obtain ⟨last, h_last, h⟩ := bind_eq_ok.mp h
  obtain ⟨id, _, h⟩ := bind_eq_ok.mp h
  obtain ⟨datasetChecksum, _, h⟩ := bind_eq_ok.mp h
  obtain ⟨dagHash, _, h⟩ := bind_eq_ok.mp h
  obtain ⟨bars, _, h⟩ := bind_eq_ok.mp h
  obtain ⟨finalCapital, _, h⟩ := bind_eq_ok.mp h
  rw [pure_eq_ok] at h
  subst h
  exact ⟨h_ret, h_sharpe, h_sortino, h_dd, h_win, h_pf, h_trades, h_start, h_last⟩

theorem decimalColumn_eq {name : String} {field : DigestEntry → Number}
    (h : rows.mapM (digestEntry scripts) = .ok entries)
    (h_field : ∀ row entry, ReadsAs scripts row entry → decimalInput scripts row name = .ok (field entry)) :
    decimalColumn scripts rows name = .ok (entries.map fun entry => (field entry).value) := by
  refine mapM_eq_ok_map h fun row entry h_entry => ?_
  rw [h_field row entry (readsAs_of_digestEntry h_entry)]
  rfl

theorem readColumns_eq (h : rows.mapM (digestEntry scripts) = .ok entries) :
    readColumns scripts rows = .ok (columnsOf entries) := by
  have h_trades : (rows.mapM fun row => integerInput scripts row "total_trades")
      = .ok (entries.map DigestEntry.trades) :=
    mapM_eq_ok_map h fun row entry h_entry => (readsAs_of_digestEntry h_entry).trades
  have h_windows : rows.mapM windowDays
      = .ok (entries.map fun entry => entry.last.toordinal - entry.start.toordinal + 1) := by
    refine mapM_eq_ok_map h fun row entry h_entry => ?_
    have h_reads := readsAs_of_digestEntry h_entry
    rw [windowDays, h_reads.last, h_reads.start]
    rfl
  unfold readColumns
  rw [decimalColumn_eq h fun _ _ h_reads => h_reads.ret,
    decimalColumn_eq h fun _ _ h_reads => h_reads.sharpe,
    decimalColumn_eq h fun _ _ h_reads => h_reads.sortino,
    decimalColumn_eq h fun _ _ h_reads => h_reads.dd,
    decimalColumn_eq h fun _ _ h_reads => h_reads.win,
    decimalColumn_eq h fun _ _ h_reads => h_reads.pf, h_trades, h_windows]
  rfl

theorem onlyInvalid_digestEntry (h : ∀ name ∈ DIGEST_INPUTS, read row name ≠ none) :
    OnlyInvalid (digestEntry scripts row) := by
  have h_decimal : ∀ name ∈ DIGEST_INPUTS, OnlyInvalid (decimalInput scripts row name) :=
    fun name h_name => onlyInvalid_decimalInput (h name h_name)
  have h_integer : ∀ name ∈ DIGEST_INPUTS, OnlyInvalid (integerInput scripts row name) :=
    fun name h_name => onlyInvalid_integerInput (h name h_name)
  have h_date : ∀ name ∈ DIGEST_INPUTS, OnlyInvalid (dateInput row name) :=
    fun name h_name => onlyInvalid_dateInput (h name h_name)
  have h_text : ∀ name ∈ DIGEST_INPUTS, OnlyInvalid (textInput row name) :=
    fun name h_name => onlyInvalid_textInput (h name h_name)
  unfold digestEntry
  refine (h_decimal _ (by decide)).bind fun _ => (h_decimal _ (by decide)).bind fun _ => ?_
  refine (h_decimal _ (by decide)).bind fun _ => (h_decimal _ (by decide)).bind fun _ => ?_
  refine (h_decimal _ (by decide)).bind fun _ => (h_decimal _ (by decide)).bind fun _ => ?_
  refine (h_integer _ (by decide)).bind fun _ => (h_date _ (by decide)).bind fun _ => ?_
  refine (h_date _ (by decide)).bind fun _ => (h_text _ (by decide)).bind fun _ => ?_
  refine (h_text _ (by decide)).bind fun _ => (h_text _ (by decide)).bind fun _ => ?_
  refine (h_integer _ (by decide)).bind fun _ => (h_decimal _ (by decide)).bind fun _ => ?_
  exact OnlyInvalid.ok _

end Evidence

/-! ## The order of the rows -/

section Order

variable {scripts : ScriptDigits} {rows rows' : List Row}

/-- No sum of the standard deviation of the returns is rounded. -/
def SumsExact (scripts : ScriptDigits) (rows : List Row) : Prop :=
  ∀ columns, readColumns scripts rows = .ok columns → NoSumRounded evaluationContext columns.returns

theorem qualityScore_perm (h_exact : SumsExact scripts rows) (h : rows.Perm rows') :
    Related SameRefusal (· = ·) (qualityScore scripts rows) (qualityScore scripts rows') := by
  rw [qualityScore_eq, qualityScore_eq, ← require_perm h]
  refine (Related.refl SameRefusal.refl (fun _ => Eq.refl _) _).bind fun _ _ h_present _ _ => ?_
  have h_read := ((require_eq_ok_iff (by decide)).mp h_present).2
  refine (readColumns_perm h_read h).bind fun columns columns' h_columns _ h_perm => ?_
  rw [scoreColumns_perm (h_exact columns h_columns) h_perm]
  exact Related.refl SameRefusal.refl (fun _ => Eq.refl _) _

theorem priceRange_perm (h_exact : SumsExact scripts rows) (h : rows.Perm rows') (currency : String) :
    Related SameRefusal (· = ·) (priceRange scripts rows currency)
      (priceRange scripts rows' currency) := by
  rw [priceRange, priceRange, ← require_perm h]
  refine (Related.refl SameRefusal.refl (fun _ => Eq.refl _) _).bind fun _ _ _ _ _ => ?_
  refine (Related.refl SameRefusal.refl (fun _ => Eq.refl _) _).bind fun found found' _ _ h_found => ?_
  subst h_found
  refine (qualityScore_perm h_exact h).bind fun quality quality' _ _ h_quality => ?_
  rw [h_quality]
  exact Related.refl SameRefusal.refl (fun _ => Eq.refl _) _

theorem inputsDigest_perm (h : rows.Perm rows') :
    Related SameRefusal (· = ·) (inputsDigest scripts rows) (inputsDigest scripts rows') := by
  rw [inputsDigest, inputsDigest, ← require_perm h]
  refine (Related.refl SameRefusal.refl (fun _ => Eq.refl _) _).bind fun _ _ h_present _ _ => ?_
  have h_read := ((require_eq_ok_iff (by decide)).mp h_present).2
  refine (OnlyInvalid.mapM_perm (fun row h_row =>
    onlyInvalid_digestEntry fun name h_name => h_read name h_name row h_row) h).bind
      fun entries entries' _ _ h_perm => ?_
  rw [digestText_perm h_perm]
  exact Related.refl SameRefusal.refl (fun _ => Eq.refl _) _

/-- The digested texts of the two lists do not collide. -/
def CollisionFree (scripts : ScriptDigits) (rows rows' : List Row) : Prop :=
  ∀ entries entries', rows.mapM (digestEntry scripts) = .ok entries →
    rows'.mapM (digestEntry scripts) = .ok entries' →
    Sha256.sha256 ((digestText entries).map fun c => c.toUInt8)
      = Sha256.sha256 ((digestText entries').map fun c => c.toUInt8) →
    digestText entries = digestText entries'

theorem exists_entries (h : inputsDigest scripts rows = .ok digest) :
    ∃ entries, require rows PRICING_INPUTS = .ok () ∧ rows.mapM (digestEntry scripts) = .ok entries ∧
      digest = String.ofList (Sha256.hex (Sha256.sha256 ((digestText entries).map fun c => c.toUInt8))) := by
  obtain ⟨_, h_present, h⟩ := bind_eq_ok.mp h
  obtain ⟨entries, h_entries, h⟩ := bind_eq_ok.mp h
  rw [pure_eq_ok] at h
  exact ⟨entries, require_mono (by decide) (by decide) h_present, h_entries, h.symm⟩

theorem perm_of_inputsDigest (h_free : CollisionFree scripts rows rows')
    (h : inputsDigest scripts rows = .ok digest) (h' : inputsDigest scripts rows' = .ok digest) :
    ∃ entries entries', require rows PRICING_INPUTS = .ok () ∧ require rows' PRICING_INPUTS = .ok () ∧
      rows.mapM (digestEntry scripts) = .ok entries ∧
      rows'.mapM (digestEntry scripts) = .ok entries' ∧ entries.Perm entries' := by
  obtain ⟨entries, h_present, h_entries, h_digest⟩ := exists_entries h
  obtain ⟨entries', h_present', h_entries', h_digest'⟩ := exists_entries h'
  refine ⟨entries, entries', h_present, h_present', h_entries, h_entries', ?_⟩
  refine perm_of_digestText (h_free entries entries' h_entries h_entries' ?_)
  exact Sha256.hex_inj (fun _ => Sha256.mem_sha256) (fun _ => Sha256.mem_sha256)
    (String.ofList_injective (h_digest.symm.trans h_digest'))

theorem qualityScore_of_digest (h_exact : SumsExact scripts rows)
    (h_free : CollisionFree scripts rows rows') (h : inputsDigest scripts rows = .ok digest)
    (h' : inputsDigest scripts rows' = .ok digest) :
    qualityScore scripts rows = qualityScore scripts rows' := by
  obtain ⟨entries, entries', h_present, h_present', h_entries, h_entries', h_perm⟩ :=
    perm_of_inputsDigest h_free h h'
  have h_columns := readColumns_eq h_entries
  rw [qualityScore_eq, qualityScore_eq, h_present, h_present', h_columns, readColumns_eq h_entries']
  exact scoreColumns_perm (h_exact _ h_columns) (columnsOf_perm h_perm)

theorem priceRange_of_digest (h_exact : SumsExact scripts rows)
    (h_free : CollisionFree scripts rows rows') (h : inputsDigest scripts rows = .ok digest)
    (h' : inputsDigest scripts rows' = .ok digest) (currency : String) :
    priceRange scripts rows currency = priceRange scripts rows' currency := by
  obtain ⟨_, _, h_present, h_present', _⟩ := perm_of_inputsDigest h_free h h'
  rw [priceRange, priceRange, h_present, h_present', qualityScore_of_digest h_exact h_free h h']

end Order

/-! ## The price of evidence -/

section Price

variable {scripts : ScriptDigits} {rows rows' : List Row}

theorem qualityScore_mem {score : ℤ} (h : qualityScore scripts rows = .ok score) :
    0 ≤ score ∧ score ≤ 100 := by
  rw [qualityScore_eq] at h
  obtain ⟨_, _, h⟩ := bind_eq_ok.mp h
  obtain ⟨columns, _, h⟩ := bind_eq_ok.mp h
  exact scoreColumns_mem h

variable {prices : PriceRange}

theorem priceRange_eq_ok (h : priceRange scripts rows currency = .ok prices) :
    ∃ base span score, anchor currency = .ok (base, span) ∧ qualityScore scripts rows = .ok score ∧
      prices = pricesOf base span score := by
  obtain ⟨_, _, h⟩ := bind_eq_ok.mp h
  obtain ⟨band, h_band, h⟩ := bind_eq_ok.mp h
  obtain ⟨score, h_score, h⟩ := bind_eq_ok.mp h
  obtain ⟨_, _, h⟩ := bind_eq_ok.mp h
  rw [pure_eq_ok] at h
  exact ⟨band.1, band.2, score, h_band, h_score, h.symm⟩

/-- The suggestion is a function of the evidence, and one that can be offered. -/
structure PricedByEvidence (scripts : ScriptDigits) (rows : List Row) : Prop where
  score : ∀ rows', rows.Perm rows' →
    outcome (qualityScore scripts rows) = outcome (qualityScore scripts rows')
  prices : ∀ rows' currency, rows.Perm rows' →
    outcome (priceRange scripts rows currency) = outcome (priceRange scripts rows' currency)
  digest : ∀ rows', rows.Perm rows' →
    outcome (inputsDigest scripts rows) = outcome (inputsDigest scripts rows')
  sound : ∀ rows' digest, CollisionFree scripts rows rows' → inputsDigest scripts rows = .ok digest →
    inputsDigest scripts rows' = .ok digest → qualityScore scripts rows = qualityScore scripts rows' ∧
      ∀ currency, priceRange scripts rows currency = priceRange scripts rows' currency
  inOrder : ∀ currency prices, priceRange scripts rows currency = .ok prices → prices.InOrder
  monotone : ∀ rows' currency score score' prices prices', qualityScore scripts rows = .ok score →
    qualityScore scripts rows' = .ok score' → priceRange scripts rows currency = .ok prices →
    priceRange scripts rows' currency = .ok prices' → score ≤ score' →
      prices.minimumPriceMinor ≤ prices'.minimumPriceMinor ∧
      prices.recommendedPriceMinor ≤ prices'.recommendedPriceMinor ∧
      prices.maximumPriceMinor ≤ prices'.maximumPriceMinor

theorem priceRange_inOrder (h : priceRange scripts rows currency = .ok prices) :
    prices.InOrder := by
  obtain ⟨base, span, score, h_band, h_score, rfl⟩ := priceRange_eq_ok h
  obtain ⟨h_base, h_room⟩ := anchor_mem h_band
  exact pricesOf_inOrder h_base h_room (qualityScore_mem h_score)

theorem priceRange_mono {score score' : ℤ} {prices' : PriceRange}
    (h_score : qualityScore scripts rows = .ok score)
    (h_score' : qualityScore scripts rows' = .ok score')
    (h : priceRange scripts rows currency = .ok prices)
    (h' : priceRange scripts rows' currency = .ok prices') (h_le : score ≤ score') :
    prices.minimumPriceMinor ≤ prices'.minimumPriceMinor ∧
      prices.recommendedPriceMinor ≤ prices'.recommendedPriceMinor ∧
      prices.maximumPriceMinor ≤ prices'.maximumPriceMinor := by
  obtain ⟨base, span, found, h_band, h_found, rfl⟩ := priceRange_eq_ok h
  obtain ⟨base', span', found', h_band', h_found', rfl⟩ := priceRange_eq_ok h'
  rw [h_band] at h_band'
  cases h_band'
  rw [h_score] at h_found
  cases h_found
  rw [h_score'] at h_found'
  cases h_found'
  exact pricesOf_mono base h_le

/-- Where no sum of the standard deviation is rounded, the suggestion is a function of the
    evidence. -/
theorem price_of_evidence (h_exact : SumsExact scripts rows) : PricedByEvidence scripts rows where
  score _ h := (qualityScore_perm h_exact h).mapError_eq
  prices _ currency h := (priceRange_perm h_exact h currency).mapError_eq
  digest _ h := (inputsDigest_perm h).mapError_eq
  sound _ _ h_free h h' := ⟨qualityScore_of_digest h_exact h_free h h',
    priceRange_of_digest h_exact h_free h h'⟩
  inOrder _ _ h := priceRange_inOrder h
  monotone _ _ _ _ _ _ h_score h_score' h h' h_le := priceRange_mono h_score h_score' h h' h_le

/-! ## An order that matters -/

/-- A condition of 90 days with 20 trades. -/
def quarter (id ret : String) : Row :=
  [("source_backtest_id", .text id), ("dataset_checksum", .text id), ("dag_hash", .text "d1"),
    ("start_date", .text "2024-01-01"), ("end_date", .text "2024-03-30"), ("total_trades", .int 20),
    ("executed_bar_count", .int 90), ("total_return_pct", .text ret), ("sharpe_ratio", .text "0"),
    ("sortino_ratio", .text "0"), ("max_drawdown_pct", .text "30"), ("win_rate_pct", .text "42.4"),
    ("profit_factor", .text "1"), ("final_capital", .text "1000")]

def listed : List Row :=
  [quarter "a" "2.59", quarter "b" "9.81", quarter "c" "14.8", quarter "d" "6.62", quarter "e" "12.29",
    quarter "f" "17.06", quarter "g" "7", quarter "h" "6.98", quarter "i" "2.29"]

/-- The same nine conditions. -/
def relisted : List Row :=
  [quarter "h" "6.98", quarter "g" "7", quarter "d" "6.62", quarter "e" "12.29", quarter "f" "17.06",
    quarter "a" "2.59", quarter "c" "14.8", quarter "b" "9.81", quarter "i" "2.29"]

/-- A program that knows the ASCII digits only. -/
def asciiScripts : ScriptDigits := fun _ => none

theorem listed_perm : listed.Perm relisted := by decide

theorem qualityScore_listed : qualityScore asciiScripts listed = .ok 8 := by decide +kernel

theorem qualityScore_relisted : qualityScore asciiScripts relisted = .ok 9 := by decide +kernel

/-- Nine conditions of two-decimal returns have two scores and two prices under one digest. -/
theorem price_of_evidence_divergence :
    listed.Perm relisted ∧
      outcome (inputsDigest asciiScripts listed) = outcome (inputsDigest asciiScripts relisted) ∧
      qualityScore asciiScripts listed = .ok 8 ∧ qualityScore asciiScripts relisted = .ok 9 ∧
      ¬ PricedByEvidence asciiScripts listed := by
  refine ⟨listed_perm, (inputsDigest_perm listed_perm).mapError_eq, qualityScore_listed,
    qualityScore_relisted, fun h => ?_⟩
  have h_score := h.score relisted listed_perm
  rw [qualityScore_listed, qualityScore_relisted] at h_score
  cases h_score

theorem price_of_evidence_sample :
    PricedByEvidence asciiScripts [quarter "a" "10", quarter "b" "12.5", quarter "c" "15"] ∧
      qualityScore asciiScripts [quarter "a" "10", quarter "b" "12.5", quarter "c" "15"] = .ok 13 := by
  refine ⟨price_of_evidence fun columns h_columns => ?_, by decide +kernel⟩
  have h_returns : (readColumns asciiScripts
      [quarter "a" "10", quarter "b" "12.5", quarter "c" "15"]).map Columns.returns
        = .ok [10, 25 / 2, 15] := by decide +kernel
  rw [h_columns] at h_returns
  have h_eq : columns.returns = [10, 25 / 2, 15] := Except.ok.inj h_returns
  rw [h_eq]
  decide +kernel

end Price

end VyomQuant.Marketplace.Pricing
