/-
  VyomQuant.Lib.DecimalText

  The canonical text of a decimal: the number is normalized in a context with exponent
  limits, and written without an exponent and without trailing zeros.

  `plainText_inj` takes the text apart again: it determines the sign and the digits.
-/

import VyomQuant.Lib.DecimalContext
import VyomQuant.Lib.Splitting
import Mathlib.Data.Nat.Prime.Basic

namespace Decimal

/-! ## Exponent limits -/

/-- The exponents of the leading digit that a context admits. -/
structure ExponentRange where
  emin : ℤ
  emax : ℤ

variable {d n places : ℕ}

namespace Context

/-- The finest place of a subnormal result. -/
def etiny (ctx : Context) (range : ExponentRange) : ℤ := range.emin - (ctx.prec - 1)

/-- `normalize`: rounded half-even to the context's digits, at no finer place than there is;
    `none` is `Overflow`. -/
def normalize (ctx : Context) (range : ExponentRange) (x : ℚ) : Option ℚ :=
  let place := max (ctx.lastPlace x) (ctx.etiny range)
  let rounded : ℚ := RoundingMode.halfEven.toInt (x / 10 ^ place) * 10 ^ place
  if |rounded| < 10 ^ (range.emax + 1) then some rounded else none

variable {ctx : Context} {range : ExponentRange} {x y : ℚ}

/-- Above the subnormal numbers `normalize` rounds as every operation does. -/
theorem normalize_eq_round (h_place : ctx.etiny range ≤ ctx.lastPlace x) :
    ctx.normalize range x =
      if |ctx.round x| < 10 ^ (range.emax + 1) then some (ctx.round x) else none := by
  unfold normalize
  rw [max_eq_left h_place]
  rfl

theorem normalize_of_onGrid (h_grid : OnGrid d x) (h_lt : |x| < 10 ^ ((ctx.prec : ℤ) - d))
    (h_low : range.emin ≤ -d) (h_high : (ctx.prec : ℤ) - d ≤ range.emax + 1) :
    ctx.normalize range x = some x := by
  have h_round := ctx.round_of_onGrid h_grid h_lt
  have h_log : -(d : ℤ) ≤ Int.log 10 |x| := by
    by_cases h_zero : x = 0
    · rw [h_zero, abs_zero, Int.log_zero_right]
      omega
    · have h_abs : OnGrid d |x| := by
        rcases abs_choice x with h | h
        · rwa [h]
        · rw [h]
          exact h_grid.neg
      have h_unit := h_abs.unit_le (abs_pos.mpr h_zero)
      refine (Int.zpow_le_iff_le_log (by norm_num) (abs_pos.mpr h_zero)).mp ?_
      rw [zpow_neg, zpow_natCast, inv_eq_one_div]
      exact_mod_cast h_unit
  have h_place : ctx.etiny range ≤ ctx.lastPlace x := by
    unfold etiny lastPlace
    omega
  rw [normalize_eq_round h_place, h_round, if_pos]
  exact h_lt.trans_le (zpow_le_zpow_right₀ (by norm_num) h_high)

theorem exists_onGrid_mul_zpow (n place : ℤ) : ∃ d, OnGrid d (n * 10 ^ place : ℚ) := by
  have h_scaled : (10 : ℚ) ^ place * 10 ^ (-place).toNat
      = ((10 ^ (place + (-place).toNat).toNat : ℤ) : ℚ) := by
    push_cast
    rw [← zpow_natCast (10 : ℚ) (-place).toNat, ← zpow_add₀ (by norm_num), ← zpow_natCast,
      Int.toNat_of_nonneg (a := place + (-place).toNat) (by omega)]
  refine ⟨(-place).toNat, n * 10 ^ (place + (-place).toNat).toNat, ?_⟩
  rw [eq_div_iff (by positivity), mul_assoc, h_scaled]
  push_cast
  rfl

theorem normalize_onGrid (h : ctx.normalize range x = some y) : ∃ d, OnGrid d y := by
  simp only [normalize] at h
  split at h
  · cases h
    exact exists_onGrid_mul_zpow _ _
  · cases h

theorem normalize_nonneg (h : ctx.normalize range x = some y) (h_nonneg : 0 ≤ x) : 0 ≤ y := by
  simp only [normalize] at h
  split at h
  · cases h
    have h_int : 0 ≤ RoundingMode.halfEven.toInt
        (x / 10 ^ max (ctx.lastPlace x) (ctx.etiny range)) :=
      RoundingMode.halfEven.toInt_nonneg (div_nonneg h_nonneg (zpow_nonneg (by norm_num) _))
    exact mul_nonneg (by exact_mod_cast h_int) (zpow_nonneg (by norm_num) _)
  · cases h

end Context

/-! ## Decimal places -/

/-- How many decimals a number has, without trailing zeros. -/
def decimalPlaces (value : ℚ) : ℕ :=
  ((List.range (Nat.log2 value.den + 1)).find? fun places => 10 ^ places % value.den == 0).getD 0

theorem dvd_ten_pow_log2 (h : n ∣ 10 ^ d) : n ∣ 10 ^ Nat.log2 n := by
  have h_split : n ∣ 2 ^ d * 5 ^ d := by rwa [← mul_pow]
  obtain ⟨twos, fives, h_twos, h_fives, rfl⟩ := (Nat.dvd_mul).mp h_split
  obtain ⟨a, _, rfl⟩ := (Nat.dvd_prime_pow Nat.prime_two).mp h_twos
  obtain ⟨b, _, rfl⟩ := (Nat.dvd_prime_pow Nat.prime_five).mp h_fives
  have h_pos : 2 ^ a * 5 ^ b ≠ 0 := by positivity
  have h_a : a ≤ Nat.log2 (2 ^ a * 5 ^ b) :=
    (Nat.le_log2 h_pos).mpr (Nat.le_mul_of_pos_right _ (by positivity))
  have h_b : b ≤ Nat.log2 (2 ^ a * 5 ^ b) := by
    refine (Nat.le_log2 h_pos).mpr ((Nat.pow_le_pow_left (by norm_num : 2 ≤ 5) b).trans ?_)
    exact Nat.le_mul_of_pos_left _ (by positivity)
  have h_ten : 10 ^ Nat.log2 (2 ^ a * 5 ^ b)
      = 2 ^ Nat.log2 (2 ^ a * 5 ^ b) * 5 ^ Nat.log2 (2 ^ a * 5 ^ b) := by
    rw [← mul_pow]
    norm_num
  rw [h_ten]
  exact Nat.mul_dvd_mul (Nat.pow_dvd_pow 2 h_a) (Nat.pow_dvd_pow 5 h_b)

theorem OnGrid.den_dvd {x : ℚ} (h : OnGrid d x) : x.den ∣ 10 ^ d := by
  obtain ⟨n, rfl⟩ := h
  have h_den := Rat.den_dvd n (10 ^ d)
  rw [Rat.divInt_eq_div] at h_den
  exact_mod_cast h_den

theorem den_dvd_decimalPlaces {x : ℚ} (h : OnGrid d x) : x.den ∣ 10 ^ decimalPlaces x := by
  have h_found : ((List.range (Nat.log2 x.den + 1)).find? fun places =>
      10 ^ places % x.den == 0).isSome := by
    rw [List.find?_isSome]
    refine ⟨Nat.log2 x.den, List.mem_range.mpr (Nat.lt_succ_self _), ?_⟩
    simpa using Nat.mod_eq_zero_of_dvd (dvd_ten_pow_log2 h.den_dvd)
  obtain ⟨places, h_places⟩ := Option.isSome_iff_exists.mp h_found
  have h_zero := List.find?_some h_places
  rw [decimalPlaces, h_places, Option.getD_some]
  exact Nat.dvd_of_mod_eq_zero (by simpa using h_zero)

theorem decimalPlaces_le_iff {x : ℚ} (h : OnGrid d x) :
    decimalPlaces x ≤ places ↔ OnGrid places x := by
  constructor
  · intro h_le
    obtain ⟨k, h_k⟩ := den_dvd_decimalPlaces h
    have h_den : (x.den : ℚ) ≠ 0 := by exact_mod_cast x.den_nz
    have h_pow : (10 : ℚ) ^ decimalPlaces x = x.den * k := by exact_mod_cast h_k
    refine OnGrid.mono ⟨x.num * k, ?_⟩ h_le
    rw [eq_div_iff (by positivity), h_pow]
    nth_rewrite 1 [← Rat.num_div_den x]
    push_cast
    field_simp
  · intro h_grid
    by_contra h_more
    obtain ⟨found, h_found⟩ : ∃ found, (List.range (Nat.log2 x.den + 1)).find?
        (fun places => 10 ^ places % x.den == 0) = some found := by
      cases h_find : (List.range (Nat.log2 x.den + 1)).find?
          (fun places => 10 ^ places % x.den == 0) with
      | none => exact absurd (by rw [decimalPlaces, h_find]; exact Nat.zero_le _) h_more
      | some found => exact ⟨found, rfl⟩
    rw [decimalPlaces, h_found, Option.getD_some, not_le] at h_more
    have h_earlier := (List.find?_range_eq_some.mp h_found).2.2 places h_more
    rw [Nat.mod_eq_zero_of_dvd h_grid.den_dvd] at h_earlier
    exact absurd h_earlier (by decide)

/-- The digits of a number, without its sign and its point. -/
def digits (value : ℚ) : ℕ := value.num.natAbs * (10 ^ decimalPlaces value / value.den)

theorem abs_eq_digits {x : ℚ} (h : OnGrid d x) : |x| = digits x / 10 ^ decimalPlaces x := by
  obtain ⟨k, h_k⟩ := den_dvd_decimalPlaces h
  have h_den : (x.den : ℚ) ≠ 0 := by exact_mod_cast x.den_nz
  have h_quot : 10 ^ decimalPlaces x / x.den = k := by
    rw [h_k, Nat.mul_div_cancel_left _ x.den_pos]
  have h_pow : (10 : ℚ) ^ decimalPlaces x = x.den * k := by exact_mod_cast h_k
  have h_k_ne : (k : ℚ) ≠ 0 := by
    intro h_zero
    rw [h_zero, mul_zero] at h_pow
    exact absurd h_pow (by positivity)
  rw [digits, h_quot, h_pow]
  push_cast
  rw [Nat.cast_natAbs, Int.cast_abs, mul_comm (x.den : ℚ), mul_comm, mul_div_mul_left _ _ h_k_ne]
  nth_rewrite 1 [← Rat.num_div_den x]
  rw [abs_div, Nat.abs_cast]

/-! ## The text -/

/-- The text of a number: its digits with the point, and no exponent. -/
def plainText (negative : Bool) (value : ℚ) : String :=
  let places := decimalPlaces value
  let fraction := toString (digits value % 10 ^ places)
  (if negative then "-" else "") ++ toString (digits value / 10 ^ places) ++
    if places = 0 then "" else
      "." ++ String.ofList (List.replicate (places - fraction.length) '0') ++ fraction

def isNumberChar (c : Char) : Bool := c.isDigit || c == '-' || c == '.'

theorem isDigit_of_mem_toString {c : Char} (h : c ∈ (toString n).toList) : c.isDigit = true := by
  rw [Nat.toString_eq_repr, Nat.toList_repr] at h
  exact Nat.isDigit_of_mem_toDigits (by decide) (by decide) h

/-- A number behind zeros. -/
def padded (places n : ℕ) : List Char :=
  List.replicate (places - (toString n).length) '0' ++ (toString n).toList

theorem isDigit_of_mem_padded {c : Char} (h : c ∈ padded places n) : c.isDigit = true := by
  rcases List.mem_append.mp h with h_zero | h_digit
  · rw [(List.mem_replicate.mp h_zero).2]
    rfl
  · exact isDigit_of_mem_toString h_digit

theorem length_padded (h_pos : 0 < places) (h : n < 10 ^ places) :
    (padded places n).length = places := by
  have h_length : (toString n).toList.length ≤ places := by
    rw [Nat.toString_eq_repr, Nat.toList_repr]
    exact (Nat.length_toDigits_le_iff (by decide) h_pos).mpr h
  rw [padded, List.length_append, List.length_replicate, ← String.length_toList]
  omega

theorem padded_inj {m : ℕ} (h : padded places m = padded places n) : m = n := by
  have h_read (k : ℕ) : Nat.ofDigitChars 10 (padded places k) 0 = k := by
    rw [padded, Nat.ofDigitChars_append, Nat.ofDigitChars_replicate_zero, Nat.toString_eq_repr,
      Nat.toList_repr, mul_zero, Nat.ofDigitChars_ten_toDigits]
  rw [← h_read m, h, h_read]

/-- What stands after the integer part. -/
def fractionChars (places n : ℕ) : List Char :=
  if places = 0 then [] else '.' :: padded places n

theorem toList_plainText (negative : Bool) (value : ℚ) :
    (plainText negative value).toList = (if negative then ['-'] else []) ++
      ((toString (digits value / 10 ^ decimalPlaces value)).toList ++
        fractionChars (decimalPlaces value) (digits value % 10 ^ decimalPlaces value)) := by
  unfold plainText fractionChars padded
  by_cases h_places : decimalPlaces value = 0
  · cases negative <;> simp [h_places]
  · cases negative <;> simp [h_places]

theorem isNumberChar_of_mem_plainText {negative : Bool} {value : ℚ} {c : Char}
    (h : c ∈ (plainText negative value).toList) : isNumberChar c = true := by
  rw [toList_plainText] at h
  unfold isNumberChar
  rcases List.mem_append.mp h with h_sign | h
  · cases negative with
    | false => cases h_sign
    | true => rw [List.mem_singleton.mp h_sign]; rfl
  rcases List.mem_append.mp h with h_digit | h
  · rw [isDigit_of_mem_toString h_digit]
    rfl
  unfold fractionChars at h
  split at h
  · cases h
  rcases List.mem_cons.mp h with rfl | h_digit
  · rfl
  · rw [isDigit_of_mem_padded h_digit]
    rfl

theorem fractionChars_inj {places' m : ℕ} (h_m : m < 10 ^ places) (h_n : n < 10 ^ places')
    (h : fractionChars places m = fractionChars places' n) : places = places' ∧ m = n := by
  unfold fractionChars at h
  split at h
  · rename_i h_zero
    split at h
    · rename_i h_zero'
      subst h_zero h_zero'
      rw [pow_zero] at h_m h_n
      exact ⟨rfl, by omega⟩
    · cases h
  · rename_i h_zero
    split at h
    · cases h
    · rename_i h_zero'
      have h_padded := (List.cons.inj h).2
      have h_length := congrArg List.length h_padded
      rw [length_padded (by omega) h_m, length_padded (by omega) h_n] at h_length
      subst h_length
      exact ⟨rfl, padded_inj h_padded⟩

theorem head_toString_ne_minus (n : ℕ) (r : List Char) :
    ∀ c ∈ ((toString n).toList ++ r).head?, c ≠ '-' := by
  intro c h_c h_minus
  have h_ne : (toString n).toList ≠ [] := by
    rw [Nat.toString_eq_repr, ne_eq, String.toList_eq_nil_iff]
    exact Nat.repr_ne_empty
  rw [List.head?_append_of_ne_nil _ h_ne] at h_c
  have h_digit := isDigit_of_mem_toString (List.mem_of_mem_head? h_c)
  rw [h_minus] at h_digit
  exact absurd h_digit (by decide)

theorem plainText_ne_empty (negative : Bool) (value : ℚ) : plainText negative value ≠ "" := by
  intro h
  have h_chars := toList_plainText negative value
  rw [h] at h_chars
  have h_digits := (List.append_eq_nil_iff.mp (List.append_eq_nil_iff.mp h_chars.symm).2).1
  rw [Nat.toString_eq_repr, String.toList_eq_nil_iff] at h_digits
  exact Nat.repr_ne_empty h_digits

theorem plainText_inj {e : ℕ} {x y : ℚ} {s t : Bool} (h_x : OnGrid d x) (h_y : OnGrid e y)
    (h : plainText s x = plainText t y) : s = t ∧ |x| = |y| := by
  have h_chars := congrArg String.toList h
  rw [toList_plainText, toList_plainText] at h_chars
  have h_minus (b : Bool) : ∀ c ∈ (if b then ['-'] else []), c = '-' := by
    cases b <;> simp
  obtain ⟨h_sign, h_rest⟩ := Splitting.append_inj_of_stop (h_minus s) (h_minus t)
    (head_toString_ne_minus _ _) (head_toString_ne_minus _ _) h_chars
  have h_stop (places n : ℕ) : ∀ c ∈ (fractionChars places n).head?, ¬ c.isDigit = true := by
    intro c h_c
    unfold fractionChars at h_c
    split at h_c
    · cases h_c
    · obtain rfl := Option.some.inj h_c
      decide
  obtain ⟨h_int, h_fraction⟩ := Splitting.append_inj_of_stop
    (fun _ => isDigit_of_mem_toString) (fun _ => isDigit_of_mem_toString)
    (h_stop _ _) (h_stop _ _) h_rest
  obtain ⟨h_places, h_low⟩ := fractionChars_inj (Nat.mod_lt _ (by positivity))
    (Nat.mod_lt _ (by positivity)) h_fraction
  have h_high : digits x / 10 ^ decimalPlaces x = digits y / 10 ^ decimalPlaces y := by
    refine padded_inj (?_ : padded 0 _ = padded 0 _)
    rw [padded, padded, Nat.zero_sub, Nat.zero_sub, h_int]
  have h_digits : digits x = digits y := by
    rw [← Nat.div_add_mod (digits x) (10 ^ decimalPlaces x), h_high, h_low, h_places,
      Nat.div_add_mod]
  refine ⟨?_, ?_⟩
  · cases s <;> cases t <;> simp_all
  · rw [abs_eq_digits h_x, abs_eq_digits h_y, h_digits, h_places]

end Decimal
