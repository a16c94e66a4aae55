/-
  VyomQuant.Lib.DecimalContext

  Fixed-precision decimal arithmetic over `ℚ`: a context rounds the result of
  every operation half-even to `prec` significant digits, and `quantize` rescales
  to a number of decimal places, refusing (`none`, the `InvalidOperation` signal)
  a coefficient of more than `prec` digits.  Exponent limits are not modelled.

  The rounding of an operation disappears on small figures: a number with at most
  `d` decimals and magnitude below `10 ^ (prec - d)` is representable
  (`Context.round_of_within`), and `Within d v x` tracks both facts through sums
  and differences, so a caller bounds one total volume instead of every
  intermediate result.
-/

import Mathlib.Data.Int.Log
import Mathlib.Tactic.Positivity
import VyomQuant.Lib.Rounding

namespace Decimal

/-! ## Numbers with a bounded number of decimals -/

/-- `x` has at most `d` decimals. -/
def OnGrid (d : ℕ) (x : ℚ) : Prop :=
  ∃ n : ℤ, x = n / 10 ^ d

theorem OnGrid.zero (d : ℕ) : OnGrid d 0 := ⟨0, by simp⟩

theorem OnGrid.intCast (d : ℕ) (n : ℤ) : OnGrid d n :=
  ⟨n * 10 ^ d, by push_cast; field_simp⟩

theorem OnGrid.add {d : ℕ} {x y : ℚ} (hx : OnGrid d x) (hy : OnGrid d y) :
    OnGrid d (x + y) := by
  obtain ⟨m, rfl⟩ := hx
  obtain ⟨n, rfl⟩ := hy
  exact ⟨m + n, by push_cast; rw [add_div]⟩

theorem OnGrid.neg {d : ℕ} {x : ℚ} (hx : OnGrid d x) : OnGrid d (-x) := by
  obtain ⟨m, rfl⟩ := hx
  exact ⟨-m, by push_cast; rw [neg_div]⟩

theorem OnGrid.sub {d : ℕ} {x y : ℚ} (hx : OnGrid d x) (hy : OnGrid d y) :
    OnGrid d (x - y) := by
  rw [sub_eq_add_neg]
  exact hx.add hy.neg

theorem OnGrid.unit_le {d : ℕ} {x : ℚ} (hx : OnGrid d x) (h_pos : 0 < x) : 1 / 10 ^ d ≤ x := by
  obtain ⟨n, rfl⟩ := hx
  have h_pow : (0 : ℚ) < 10 ^ d := by positivity
  have h_n : (0 : ℚ) < n := by
    by_contra h_neg
    exact absurd h_pos (not_lt.mpr (div_nonpos_of_nonpos_of_nonneg (not_lt.mp h_neg) h_pow.le))
  have h_one : 1 ≤ n := by exact_mod_cast h_n
  exact div_le_div_of_nonneg_right (by exact_mod_cast h_one) h_pow.le

theorem OnGrid.mono {d e : ℕ} {x : ℚ} (hx : OnGrid d x) (h_le : d ≤ e) : OnGrid e x := by
  obtain ⟨m, rfl⟩ := hx
  refine ⟨m * 10 ^ (e - d), ?_⟩
  have h_pow : (10 : ℚ) ^ e = 10 ^ (e - d) * 10 ^ d := by
    rw [← pow_add, Nat.sub_add_cancel h_le]
  push_cast
  rw [h_pow]
  field_simp

theorem onGrid_iff_den {d : ℕ} {x : ℚ} : OnGrid d x ↔ (x * 10 ^ d).den = 1 := by
  constructor
  · rintro ⟨n, rfl⟩
    rw [div_mul_cancel₀ _ (by positivity)]
    exact Rat.den_intCast n
  · intro h
    refine ⟨(x * 10 ^ d).num, ?_⟩
    rw [Rat.coe_int_num_of_den_eq_one h]
    field_simp

instance (d : ℕ) (x : ℚ) : Decidable (OnGrid d x) :=
  decidable_of_iff _ onGrid_iff_den.symm

/-! ## Contexts -/

/-- A decimal context: the number of significant digits results are rounded to. -/
structure Context where
  prec : ℕ
  prec_pos : 0 < prec

namespace Context

/-- The context of a program that sets none: 28 digits. -/
def default : Context := ⟨28, by decide⟩

/-- The power of ten of the last digit kept when `x` is rounded. -/
def lastPlace (ctx : Context) (x : ℚ) : ℤ :=
  Int.log 10 |x| + 1 - ctx.prec

/-- `x` rounded half-even to the context's significant digits. -/
def round (ctx : Context) (x : ℚ) : ℚ :=
  RoundingMode.halfEven.toInt (x / 10 ^ ctx.lastPlace x) * 10 ^ ctx.lastPlace x

def add (ctx : Context) (x y : ℚ) : ℚ := ctx.round (x + y)

def sub (ctx : Context) (x y : ℚ) : ℚ := ctx.round (x - y)

def mul (ctx : Context) (x y : ℚ) : ℚ := ctx.round (x * y)

def div (ctx : Context) (x y : ℚ) : ℚ := ctx.round (x / y)

def neg (ctx : Context) (x : ℚ) : ℚ := ctx.round (-x)

/-- Rescale `x` to `places` decimals; `none` when the coefficient does not fit. -/
def quantize (ctx : Context) (mode : RoundingMode) (places : ℕ) (x : ℚ) : Option ℚ :=
  let coefficient := mode.toInt (x * 10 ^ places)
  if coefficient.natAbs < 10 ^ ctx.prec then some (coefficient / 10 ^ places) else none

@[simp] theorem round_zero (ctx : Context) : ctx.round 0 = 0 := by
  simp [round]

@[simp] theorem sub_self (ctx : Context) (x : ℚ) : ctx.sub x x = 0 := by
  simp [sub]

/-- A number of at most `d` decimals below `10 ^ (prec - d)` is representable. -/
theorem round_of_onGrid (ctx : Context) {d : ℕ} {x : ℚ} (h_grid : OnGrid d x)
    (h_lt : |x| < 10 ^ ((ctx.prec : ℤ) - d)) : ctx.round x = x := by
  by_cases h_zero : x = 0
  · rw [h_zero, round_zero]
  obtain ⟨n, h_n⟩ := h_grid
  have h_log : Int.log 10 |x| < (ctx.prec : ℤ) - d :=
    (Int.lt_zpow_iff_log_lt (by norm_num) (abs_pos.mpr h_zero)).mp (by exact_mod_cast h_lt)
  have h_place : 0 ≤ -(d : ℤ) - ctx.lastPlace x := by
    unfold lastPlace
    omega
  obtain ⟨k, h_k⟩ := Int.eq_ofNat_of_zero_le h_place
  have h_scaled : x / 10 ^ ctx.lastPlace x = ((n * 10 ^ k : ℤ) : ℚ) := by
    have h_exp : -ctx.lastPlace x = (k : ℤ) + d := by omega
    calc x / 10 ^ ctx.lastPlace x = x * 10 ^ (-ctx.lastPlace x) := by
          rw [zpow_neg, div_eq_mul_inv]
      _ = n / 10 ^ d * (10 ^ k * 10 ^ d) := by
          rw [h_exp, zpow_add₀ (by norm_num), zpow_natCast, zpow_natCast, ← h_n]
      _ = ((n * 10 ^ k : ℤ) : ℚ) := by
          push_cast
          field_simp
  unfold round
  rw [h_scaled, RoundingMode.toInt_intCast, ← h_scaled]
  exact div_mul_cancel₀ x (zpow_ne_zero _ (by norm_num))

theorem round_onGrid (ctx : Context) {d : ℕ} {x : ℚ} (h_grid : OnGrid d x) :
    OnGrid d (ctx.round x) := by
  by_cases h_lt : |x| < 10 ^ ((ctx.prec : ℤ) - d)
  · rw [ctx.round_of_onGrid h_grid h_lt]
    exact h_grid
  · have h_pos : 0 < |x| := lt_of_lt_of_le (zpow_pos (by norm_num) _) (not_lt.mp h_lt)
    have h_log : (ctx.prec : ℤ) - d ≤ Int.log 10 |x| :=
      (Int.zpow_le_iff_le_log (by norm_num) h_pos).mp (by exact_mod_cast not_lt.mp h_lt)
    obtain ⟨k, h_k⟩ : ∃ k : ℕ, ctx.lastPlace x = (k : ℤ) - d := by
      have h_place : 0 ≤ ctx.lastPlace x + d := by
        unfold lastPlace
        omega
      obtain ⟨k, h_k⟩ := Int.eq_ofNat_of_zero_le h_place
      exact ⟨k, by omega⟩
    refine ⟨RoundingMode.halfEven.toInt (x / 10 ^ ctx.lastPlace x) * 10 ^ k, ?_⟩
    unfold round
    rw [h_k, zpow_sub₀ (by norm_num), zpow_natCast, zpow_natCast]
    push_cast
    ring

/-! ## Representable numbers

Rounding never moves a number across a representable one.  A bound by a result of
the arithmetic therefore survives the next rounding. -/

/-- A number with a coefficient below `10 ^ prec`. -/
def Representable (ctx : Context) (r : ℚ) : Prop :=
  ∃ n e : ℤ, |n| < 10 ^ ctx.prec ∧ r = n * 10 ^ e

theorem Representable.neg {ctx : Context} {r : ℚ} (h : ctx.Representable r) :
    ctx.Representable (-r) := by
  obtain ⟨n, e, h_n, rfl⟩ := h
  exact ⟨-n, e, by rwa [abs_neg], by push_cast; ring⟩

/-- The scaled argument of a rounding has `prec` digits before the point. -/
theorem pow_le_abs_scaled (ctx : Context) {x : ℚ} (h_zero : x ≠ 0) :
    (10 : ℚ) ^ (ctx.prec - 1) ≤ |x / 10 ^ ctx.lastPlace x| := by
  have h_log : (10 : ℚ) ^ Int.log 10 |x| ≤ |x| := by
    exact_mod_cast Int.zpow_log_le_self (by norm_num) (abs_pos.mpr h_zero)
  have h_pos : (0 : ℚ) < 10 ^ ctx.lastPlace x := zpow_pos (by norm_num) _
  rw [abs_div, abs_of_pos h_pos, le_div_iff₀ h_pos, ← zpow_natCast, ← zpow_add₀ (by norm_num)]
  have h_exp : ((ctx.prec - 1 : ℕ) : ℤ) + ctx.lastPlace x = Int.log 10 |x| := by
    have h_prec := ctx.prec_pos
    unfold lastPlace
    omega
  rw [h_exp]
  exact h_log

theorem abs_scaled_lt (ctx : Context) (x : ℚ) :
    |x / 10 ^ ctx.lastPlace x| < (10 : ℚ) ^ ctx.prec := by
  have h_log : |x| < (10 : ℚ) ^ (Int.log 10 |x| + 1) := by
    exact_mod_cast Int.lt_zpow_succ_log_self (by norm_num) |x|
  have h_pos : (0 : ℚ) < 10 ^ ctx.lastPlace x := zpow_pos (by norm_num) _
  rw [abs_div, abs_of_pos h_pos, div_lt_iff₀ h_pos, ← zpow_natCast, ← zpow_add₀ (by norm_num)]
  have h_exp : (ctx.prec : ℤ) + ctx.lastPlace x = Int.log 10 |x| + 1 := by
    unfold lastPlace
    omega
  rw [h_exp]
  exact h_log

/-- A representable number is an integer at the place a larger number is rounded at,
    or smaller in magnitude than every number with `prec` digits there. -/
theorem Representable.scaled {ctx : Context} {r : ℚ} (h : ctx.Representable r) (x : ℚ) :
    (∃ k : ℤ, r / 10 ^ ctx.lastPlace x = k) ∨
      |r / 10 ^ ctx.lastPlace x| < (10 : ℚ) ^ (ctx.prec - 1) := by
  obtain ⟨n, e, h_n, rfl⟩ := h
  have h_scaled : (n : ℚ) * 10 ^ e / 10 ^ ctx.lastPlace x = n * 10 ^ (e - ctx.lastPlace x) := by
    rw [mul_div_assoc, ← zpow_sub₀ (by norm_num)]
  rw [h_scaled]
  rcases le_or_gt (ctx.lastPlace x) e with h_le | h_gt
  · obtain ⟨k, h_k⟩ := Int.eq_ofNat_of_zero_le (sub_nonneg.mpr h_le)
    exact Or.inl ⟨n * 10 ^ k, by rw [h_k]; push_cast; rw [zpow_natCast]⟩
  · right
    have h_coefficient : |(n : ℚ)| < 10 ^ ctx.prec := by exact_mod_cast h_n
    have h_pow : (10 : ℚ) ^ (e - ctx.lastPlace x) ≤ 10 ^ (-1 : ℤ) :=
      zpow_le_zpow_right₀ (by norm_num) (by omega)
    have h_pow_pos : (0 : ℚ) < 10 ^ (e - ctx.lastPlace x) := zpow_pos (by norm_num) _
    have h_prec : (10 : ℚ) ^ ctx.prec * 10 ^ (-1 : ℤ) = 10 ^ (ctx.prec - 1) := by
      obtain ⟨p, h_p⟩ := Nat.exists_eq_succ_of_ne_zero ctx.prec_pos.ne'
      rw [h_p, Nat.succ_sub_one, pow_succ, mul_assoc]
      norm_num
    rw [abs_mul, abs_of_pos h_pow_pos, ← h_prec]
    exact mul_lt_mul h_coefficient h_pow h_pow_pos (by positivity)

theorem Representable.le_round {ctx : Context} {r x : ℚ} (h : ctx.Representable r)
    (h_le : r ≤ x) : r ≤ ctx.round x := by
  by_cases h_zero : x = 0
  · rw [h_zero, round_zero, ← h_zero]
    exact h_le
  have h_pos : (0 : ℚ) < 10 ^ ctx.lastPlace x := zpow_pos (by norm_num) _
  have h_scaled : r / 10 ^ ctx.lastPlace x ≤ x / 10 ^ ctx.lastPlace x :=
    div_le_div_of_nonneg_right h_le h_pos.le
  unfold round
  rw [← div_le_iff₀ h_pos]
  rcases h.scaled x with ⟨k, h_k⟩ | h_small
  · rw [h_k] at h_scaled ⊢
    exact_mod_cast RoundingMode.halfEven.le_toInt h_scaled
  · -- `r` is too small to reach the digits of `x`, so `x` is positive.
    have h_digits := ctx.pow_le_abs_scaled h_zero
    have h_nonneg : 0 ≤ x / 10 ^ ctx.lastPlace x := by
      by_contra h_neg
      rw [abs_of_neg (not_le.mp h_neg)] at h_digits
      have h_abs := neg_abs_le (r / 10 ^ ctx.lastPlace x)
      linarith
    rw [abs_of_nonneg h_nonneg] at h_digits
    have h_int : ((10 ^ (ctx.prec - 1) : ℤ) : ℚ) ≤ x / 10 ^ ctx.lastPlace x := by
      push_cast
      exact h_digits
    have h_round : ((10 ^ (ctx.prec - 1) : ℤ) : ℚ)
        ≤ RoundingMode.halfEven.toInt (x / 10 ^ ctx.lastPlace x) := by
      exact_mod_cast RoundingMode.halfEven.le_toInt h_int
    push_cast at h_round
    exact (le_abs_self _).trans (h_small.le.trans h_round)

theorem Representable.round_le {ctx : Context} {r x : ℚ} (h : ctx.Representable r)
    (h_le : x ≤ r) : ctx.round x ≤ r := by
  by_cases h_zero : x = 0
  · rw [h_zero, round_zero, ← h_zero]
    exact h_le
  have h_pos : (0 : ℚ) < 10 ^ ctx.lastPlace x := zpow_pos (by norm_num) _
  have h_scaled : x / 10 ^ ctx.lastPlace x ≤ r / 10 ^ ctx.lastPlace x :=
    div_le_div_of_nonneg_right h_le h_pos.le
  unfold round
  rw [← le_div_iff₀ h_pos]
  rcases h.scaled x with ⟨k, h_k⟩ | h_small
  · rw [h_k] at h_scaled ⊢
    exact_mod_cast RoundingMode.halfEven.toInt_le h_scaled
  · have h_digits := ctx.pow_le_abs_scaled h_zero
    have h_nonpos : x / 10 ^ ctx.lastPlace x ≤ 0 := by
      by_contra h_pos'
      rw [abs_of_pos (not_le.mp h_pos')] at h_digits
      have h_abs := le_abs_self (r / 10 ^ ctx.lastPlace x)
      linarith
    rw [abs_of_nonpos h_nonpos] at h_digits
    have h_int : x / 10 ^ ctx.lastPlace x ≤ ((-10 ^ (ctx.prec - 1) : ℤ) : ℚ) := by
      push_cast
      linarith
    have h_round : ((RoundingMode.halfEven.toInt (x / 10 ^ ctx.lastPlace x) : ℤ) : ℚ)
        ≤ ((-10 ^ (ctx.prec - 1) : ℤ) : ℚ) := by
      exact_mod_cast RoundingMode.halfEven.toInt_le h_int
    push_cast at h_round
    have h_abs := neg_abs_le (r / 10 ^ ctx.lastPlace x)
    linarith

theorem round_of_representable {ctx : Context} {r : ℚ} (h : ctx.Representable r) :
    ctx.round r = r :=
  le_antisymm (h.round_le le_rfl) (h.le_round le_rfl)

theorem round_representable (ctx : Context) (x : ℚ) : ctx.Representable (ctx.round x) := by
  have h_lt := ctx.abs_scaled_lt x
  rw [abs_lt] at h_lt
  have h_high : RoundingMode.halfEven.toInt (x / 10 ^ ctx.lastPlace x) ≤ 10 ^ ctx.prec :=
    RoundingMode.halfEven.toInt_le (by push_cast; exact h_lt.2.le)
  have h_low : -10 ^ ctx.prec ≤ RoundingMode.halfEven.toInt (x / 10 ^ ctx.lastPlace x) :=
    RoundingMode.halfEven.le_toInt (by push_cast; exact h_lt.1.le)
  have h_pow : (1 : ℤ) < 10 ^ ctx.prec := one_lt_pow₀ (by norm_num) ctx.prec_pos.ne'
  have h_carry : ∀ sign : ℤ, |sign| ≤ 1 →
      ctx.Representable ((sign * 10 ^ ctx.prec : ℤ) * 10 ^ ctx.lastPlace x) := by
    intro sign h_sign
    refine ⟨sign, ctx.prec + ctx.lastPlace x, by omega, ?_⟩
    rw [zpow_add₀ (by norm_num), zpow_natCast]
    push_cast
    ring
  unfold round
  rcases lt_or_eq_of_le (abs_le.mpr ⟨h_low, h_high⟩) with h | h
  · exact ⟨_, _, h, rfl⟩
  · -- The coefficient was rounded up to the next power of ten.
    rcases (abs_eq (by positivity)).mp h with h_eq | h_eq
    · rw [h_eq]
      simpa using h_carry 1 (by norm_num)
    · rw [h_eq]
      simpa using h_carry (-1) (by norm_num)

theorem representable_iff {ctx : Context} {r : ℚ} : ctx.Representable r ↔ ctx.round r = r :=
  ⟨round_of_representable, fun h => h ▸ ctx.round_representable r⟩

instance (ctx : Context) (r : ℚ) : Decidable (ctx.Representable r) :=
  decidable_of_iff _ representable_iff.symm

theorem round_nonneg (ctx : Context) {x : ℚ} (h : 0 ≤ x) : 0 ≤ ctx.round x :=
  Representable.le_round ⟨0, 0, by positivity, by simp⟩ h

theorem representable_zpow (ctx : Context) (e : ℤ) : ctx.Representable (10 ^ e) :=
  ⟨1, e, by rw [abs_one]; exact one_lt_pow₀ (by norm_num) ctx.prec_pos.ne', by push_cast; ring⟩

theorem round_le_round_of_lastPlace_eq (ctx : Context) {x y : ℚ} (h : x ≤ y)
    (h_place : ctx.lastPlace x = ctx.lastPlace y) : ctx.round x ≤ ctx.round y := by
  have h_scale : (0 : ℚ) < 10 ^ ctx.lastPlace y := zpow_pos (by norm_num) _
  unfold round
  rw [h_place]
  refine mul_le_mul_of_nonneg_right ?_ h_scale.le
  exact_mod_cast toInt_halfEven_mono (div_le_div_of_nonneg_right h h_scale.le)

theorem exists_zpow_between {x y : ℚ} (h_pos : 0 < x) (h : x ≤ y)
    (h_log : Int.log 10 x ≠ Int.log 10 y) : ∃ e : ℤ, x ≤ 10 ^ e ∧ 10 ^ e ≤ y := by
  have h_y : 0 < y := h_pos.trans_le h
  have h_lt : Int.log 10 x < Int.log 10 y := lt_of_le_of_ne (Int.log_mono_right h_pos h) h_log
  refine ⟨Int.log 10 y, ?_, ?_⟩
  · refine le_trans ?_ (zpow_le_zpow_right₀ (by norm_num : (1 : ℚ) ≤ 10) h_lt)
    exact_mod_cast (Int.lt_zpow_succ_log_self (by norm_num) x).le
  · exact_mod_cast Int.zpow_log_le_self (by norm_num) h_y

theorem round_mono (ctx : Context) {x y : ℚ} (h : x ≤ y) : ctx.round x ≤ ctx.round y := by
  have h_zero : ctx.Representable 0 := ⟨0, 0, by positivity, by simp⟩
  by_cases h_place : ctx.lastPlace x = ctx.lastPlace y
  · exact ctx.round_le_round_of_lastPlace_eq h h_place
  have h_log : Int.log 10 |x| ≠ Int.log 10 |y| := by
    intro h_eq
    exact h_place (by rw [lastPlace, lastPlace, h_eq])
  rcases le_or_gt x 0 with h_x | h_x
  · rcases le_or_gt 0 y with h_y | h_y
    · exact (h_zero.round_le h_x).trans (h_zero.le_round h_y)
    · rw [abs_of_nonpos h_x, abs_of_neg h_y] at h_log
      obtain ⟨e, h_low, h_high⟩ :=
        exists_zpow_between (neg_pos.mpr h_y) (neg_le_neg h) (Ne.symm h_log)
      have h_power := (ctx.representable_zpow e).neg
      exact (h_power.round_le (by linarith)).trans (h_power.le_round (by linarith))
  · rw [abs_of_pos h_x, abs_of_pos (h_x.trans_le h)] at h_log
    obtain ⟨e, h_low, h_high⟩ := exists_zpow_between h_x h h_log
    have h_power := ctx.representable_zpow e
    exact (h_power.round_le h_low).trans (h_power.le_round h_high)

theorem round_pos (ctx : Context) {x : ℚ} (h : 0 < x) : 0 < ctx.round x := by
  have h_log : (10 : ℚ) ^ Int.log 10 x ≤ x := by
    exact_mod_cast Int.zpow_log_le_self (by norm_num) h
  have h_power : (0 : ℚ) < 10 ^ Int.log 10 x := zpow_pos (by norm_num) _
  exact h_power.trans_le ((ctx.representable_zpow _).le_round h_log)

theorem round_neg (ctx : Context) {x : ℚ} (h : x < 0) : ctx.round x < 0 := by
  have h_log : (10 : ℚ) ^ Int.log 10 (-x) ≤ -x := by
    exact_mod_cast Int.zpow_log_le_self (by norm_num) (neg_pos.mpr h)
  have h_power : (0 : ℚ) < 10 ^ Int.log 10 (-x) := zpow_pos (by norm_num) _
  have h_round := (ctx.representable_zpow _).neg.round_le (by linarith : x ≤ -10 ^ Int.log 10 (-x))
  linarith

end Context

/-- `x` has at most `d` decimals and magnitude at most `v`. -/
structure Within (d : ℕ) (v x : ℚ) : Prop where
  grid : OnGrid d x
  bound : |x| ≤ v

namespace Within

variable {d : ℕ} {v w x y : ℚ}

theorem self (h : OnGrid d x) : Within d |x| x := ⟨h, le_rfl⟩

theorem add (hx : Within d v x) (hy : Within d w y) : Within d (v + w) (x + y) :=
  ⟨hx.grid.add hy.grid, (abs_add_le x y).trans (add_le_add hx.bound hy.bound)⟩

theorem neg (hx : Within d v x) : Within d v (-x) :=
  ⟨hx.grid.neg, by rw [abs_neg]; exact hx.bound⟩

theorem sub (hx : Within d v x) (hy : Within d w y) : Within d (v + w) (x - y) := by
  rw [sub_eq_add_neg]
  exact hx.add hy.neg

end Within

namespace Context

variable {ctx : Context} {d : ℕ} {v x : ℚ}

theorem round_of_within (h : Within d v x) (h_lt : v < 10 ^ ((ctx.prec : ℤ) - d)) :
    ctx.round x = x :=
  ctx.round_of_onGrid h.grid (h.bound.trans_lt h_lt)

/-! ## `quantize` -/

variable {mode : RoundingMode} {places : ℕ} {y : ℚ}

theorem quantize_eq_some (h : ctx.quantize mode places x = some y) :
    (mode.toInt (x * 10 ^ places)).natAbs < 10 ^ ctx.prec ∧
      y = mode.toInt (x * 10 ^ places) / 10 ^ places := by
  simp only [quantize] at h
  split at h
  · rename_i h_fits
    exact ⟨h_fits, (Option.some.inj h).symm⟩
  · cases h

theorem quantize_onGrid (h : ctx.quantize mode places x = some y) : OnGrid places y :=
  ⟨_, (quantize_eq_some h).2⟩

theorem quantize_representable (h : ctx.quantize mode places x = some y) :
    ctx.Representable y := by
  obtain ⟨h_fits, h_y⟩ := quantize_eq_some h
  refine ⟨_, -(places : ℤ), ?_, by rw [h_y, zpow_neg, zpow_natCast, div_eq_mul_inv]⟩
  rw [Int.abs_eq_natAbs]
  exact_mod_cast h_fits

theorem quantize_nonneg (h : ctx.quantize mode places x = some y) (h_nonneg : 0 ≤ x) :
    0 ≤ y := by
  rw [(quantize_eq_some h).2]
  have h_int : 0 ≤ mode.toInt (x * 10 ^ places) := mode.toInt_nonneg (by positivity)
  have h_cast : (0 : ℚ) ≤ mode.toInt (x * 10 ^ places) := by exact_mod_cast h_int
  positivity

theorem le_quantize {r : ℚ} (h : ctx.quantize mode places x = some y) (h_grid : OnGrid places r)
    (h_le : r ≤ x) : r ≤ y := by
  obtain ⟨n, rfl⟩ := h_grid
  have h_pos : (0 : ℚ) < 10 ^ places := by positivity
  have h_int : n ≤ mode.toInt (x * 10 ^ places) :=
    mode.le_toInt (by rwa [div_le_iff₀ h_pos] at h_le)
  rw [(quantize_eq_some h).2]
  exact div_le_div_of_nonneg_right (by exact_mod_cast h_int) h_pos.le

theorem quantize_sub_pos {a b r : ℚ} (ha : OnGrid places a) (hb : OnGrid places b) (h_lt : b < a)
    (h : ctx.quantize mode places (ctx.sub a b) = some r) : 0 < r := by
  have h_unit : ctx.Representable (1 / 10 ^ places) := by
    refine ⟨1, -(places : ℤ), ?_, ?_⟩
    · rw [abs_one]
      exact one_lt_pow₀ (by norm_num) ctx.prec_pos.ne'
    · rw [zpow_neg, zpow_natCast]
      push_cast
      ring
  have h_le : 1 / 10 ^ places ≤ ctx.sub a b :=
    h_unit.le_round ((ha.sub hb).unit_le (sub_pos.mpr h_lt))
  have h_result := le_quantize h ⟨1, by push_cast; rfl⟩ h_le
  exact lt_of_lt_of_le (by positivity) h_result

theorem quantize_idem (h : ctx.quantize mode places x = some y) :
    ctx.quantize mode places y = some y := by
  obtain ⟨h_fits, h_y⟩ := quantize_eq_some h
  have h_scaled : y * 10 ^ places = (mode.toInt (x * 10 ^ places) : ℤ) := by
    rw [h_y]
    exact div_mul_cancel₀ _ (by positivity)
  simp only [quantize, h_scaled, RoundingMode.toInt_intCast, if_pos h_fits]
  rw [← h_y]

@[simp] theorem quantize_zero (ctx : Context) (mode : RoundingMode) (places : ℕ) :
    ctx.quantize mode places 0 = some 0 := by
  simp [quantize]

theorem quantize_of_onGrid (h_grid : OnGrid places x)
    (h_lt : |x| < 10 ^ ((ctx.prec : ℤ) - places)) :
    ctx.quantize mode places x = some x := by
  obtain ⟨n, rfl⟩ := h_grid
  have h_scaled : (n : ℚ) / 10 ^ places * 10 ^ places = n :=
    div_mul_cancel₀ _ (by positivity)
  have h_fits : n.natAbs < 10 ^ ctx.prec := by
    rw [zpow_sub₀ (by norm_num), zpow_natCast, zpow_natCast, abs_div,
      abs_of_pos (show (0 : ℚ) < 10 ^ places by positivity),
      div_lt_div_iff_of_pos_right (by positivity)] at h_lt
    have h_abs : ((n.natAbs : ℕ) : ℚ) < ((10 ^ ctx.prec : ℕ) : ℚ) := by
      rw [Nat.cast_natAbs, Int.cast_abs]
      exact_mod_cast h_lt
    exact_mod_cast h_abs
  simp only [quantize, h_scaled, RoundingMode.toInt_intCast, if_pos h_fits]

theorem quantize_eq_self_iff :
    ctx.quantize mode places x = some x ↔
      OnGrid places x ∧ |x| < 10 ^ ((ctx.prec : ℤ) - places) := by
  refine ⟨fun h => ⟨quantize_onGrid h, ?_⟩, fun h => quantize_of_onGrid h.1 h.2⟩
  obtain ⟨h_fits, h_x⟩ := quantize_eq_some h
  have h_pow : (0 : ℚ) < 10 ^ places := by positivity
  have h_abs : |((mode.toInt (x * 10 ^ places) : ℤ) : ℚ)| < 10 ^ ctx.prec := by
    rw [← Int.cast_abs, Int.abs_eq_natAbs]
    exact_mod_cast h_fits
  rw [zpow_sub₀ (by norm_num), zpow_natCast, zpow_natCast, h_x, abs_div, abs_of_pos h_pow,
    div_lt_div_iff_of_pos_right h_pow]
  exact h_abs

theorem quantize_add_eq {r : ℚ} (hx : OnGrid places x) (hy : OnGrid places y) (hx_nonneg : 0 ≤ x)
    (hy_nonneg : 0 ≤ y) (h : ctx.quantize mode places (ctx.add x y) = some r) : r = x + y := by
  have h_sum : |x + y| = x + y := abs_of_nonneg (add_nonneg hx_nonneg hy_nonneg)
  by_cases h_lt : x + y < 10 ^ ((ctx.prec : ℤ) - places)
  · have h_exact : ctx.add x y = x + y := ctx.round_of_onGrid (hx.add hy) (h_sum.trans_lt h_lt)
    rw [h_exact, quantize_of_onGrid (hx.add hy) (h_sum.trans_lt h_lt)] at h
    exact (Option.some.inj h).symm
  · -- The sum has too many digits, before and after it was rounded.
    exfalso
    have h_round : (10 : ℚ) ^ ((ctx.prec : ℤ) - places) ≤ ctx.add x y :=
      (ctx.representable_zpow _).le_round (not_lt.mp h_lt)
    have h_grid : OnGrid places (10 ^ ((ctx.prec : ℤ) - places)) := by
      refine ⟨10 ^ ctx.prec, ?_⟩
      rw [zpow_sub₀ (by norm_num), zpow_natCast, zpow_natCast]
      push_cast
      rfl
    have h_result := (quantize_eq_self_iff.mp (quantize_idem h)).2
    exact absurd (le_quantize h h_grid h_round) (not_le.mpr ((le_abs_self r).trans_lt h_result))

theorem quantize_sub_eq {r : ℚ} (hx : ctx.quantize mode places x = some x)
    (hy : ctx.quantize mode places y = some y) (hx_nonneg : 0 ≤ x) (hy_nonneg : 0 ≤ y)
    (h : ctx.quantize mode places (ctx.sub x y) = some r) : r = x - y := by
  obtain ⟨h_grid_x, h_x⟩ := quantize_eq_self_iff.mp hx
  obtain ⟨h_grid_y, h_y⟩ := quantize_eq_self_iff.mp hy
  rw [abs_of_nonneg hx_nonneg] at h_x
  rw [abs_of_nonneg hy_nonneg] at h_y
  have h_lt : |x - y| < 10 ^ ((ctx.prec : ℤ) - places) := by
    rw [abs_lt]
    constructor <;> linarith
  have h_exact : ctx.sub x y = x - y := ctx.round_of_onGrid (h_grid_x.sub h_grid_y) h_lt
  rw [h_exact, quantize_of_onGrid (h_grid_x.sub h_grid_y) h_lt] at h
  exact (Option.some.inj h).symm

end Context

end Decimal
