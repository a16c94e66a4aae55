/-
  VyomQuant.Marketplace.Money

  Amounts at the edge of the marketplace (`marketplace/money.py`): an amount in minor units is
  an integer, shown as a decimal number (`toMajor`) and taken in as a text (`fromMajorString`).

  The text goes through `Decimal`.  It is taken in when it writes a whole number of minor
  units in range with no more decimals than the currency has, and refused otherwise
  (`from_major_string_iff`).  Two things come from `Decimal` and its context: a zero with an
  exponent beyond its range is refused too, and where Overflow is not trapped an amount far out
  of range ends in an error of its own.
-/

import VyomQuant.Lib.DecimalNotation
import VyomQuant.Lib.Fallible
import VyomQuant.Marketplace.Settlement
import VyomQuant.StrategyDag.Schema

namespace VyomQuant.Marketplace

open Decimal
open StrategyDag (isSpace strip)

/-! ## Refusals -/

inductive AmountRefusal where
  | notDecimal
  | notFinite
  | decimalPlaces (carried : ℤ)
  | notWhole
  | outOfRange
deriving DecidableEq

/-- What the conversions raise. -/
inductive MoneyError where
  | invalidAmount (refusal : AmountRefusal)
  | unsupportedCurrency
  /-- `int(Decimal('Infinity'))`. -/
  | overflowError
  /-- A signal of `decimal` that is not caught. -/
  | decimalException
deriving DecidableEq

/-- `MINOR_UNIT_EXPONENT`. -/
def MINOR_UNIT_EXPONENT : List (String × ℤ) := [("USD", 2), ("INR", 2)]

/-- `minor_unit_exponent`. -/
def minorUnitExponent (currency : String) : Except MoneyError ℤ :=
  Except.ofOption .unsupportedCurrency (MINOR_UNIT_EXPONENT.lookup currency)

/-! ## Decimals in a context -/

/-- `_CONVERSION_PRECISION`. -/
def CONVERSION_PRECISION : ℕ := 28

/-- What the conversions feel of the caller's context: its exponent limit, and which of the
    signals it traps. -/
structure Ambient where
  emax : ℤ
  trapsOverflow : Bool
  trapsClamped : Bool
  /-- Rounded or Inexact. -/
  trapsRounded : Bool

/-- The context of a program that sets none. -/
def defaultAmbient : Ambient :=
  { emax := 999999, trapsOverflow := true, trapsClamped := false, trapsRounded := false }

/-- What an operation of a context ends in. -/
inductive Operation where
  | signal
  | infinity
  | finite (result : Number)

/-- Half-even to the digits of the conversions. -/
def roundDigits (d : Number) : Number :=
  let shift := d.length - CONVERSION_PRECISION
  { d with
    coefficient := (RoundingMode.halfEven.toInt (d.coefficient / 10 ^ shift)).natAbs
    exponent := d.exponent + shift }

namespace Ambient

variable (ambient : Ambient)

def overflow : Operation := if ambient.trapsOverflow then .signal else .infinity

/-- A result is brought within the digits and the exponents of the context. -/
def finish (d : Number) : Operation :=
  if d.coefficient = 0 then
    if d.exponent ≤ ambient.emax then .finite d
    else if ambient.trapsClamped then .signal
    else .finite { d with exponent := ambient.emax }
  else if ambient.emax < d.adjusted then ambient.overflow
  else if d.length ≤ CONVERSION_PRECISION then .finite d
  else if ambient.trapsRounded then .signal
  else if ambient.emax < (roundDigits d).adjusted then ambient.overflow
  else .finite (roundDigits d)

/-- `d.scaleb(places)`. -/
def scaleb (places : ℤ) (d : Number) : Operation :=
  ambient.finish { d with exponent := d.exponent + places }

end Ambient

/-- `d.quantize(quantum)`, for a quantum with an exponent: `none` is `InvalidOperation`. -/
def quantize (exponent : ℤ) (d : Number) : Option Number :=
  let coefficient :=
    if exponent ≤ d.exponent then d.coefficient * 10 ^ (d.exponent - exponent).toNat
    else (RoundingMode.halfEven.toInt (d.coefficient / 10 ^ (exponent - d.exponent).toNat)).natAbs
  if coefficient < 10 ^ CONVERSION_PRECISION then
    some { d with coefficient := coefficient, exponent := exponent }
  else none

/-! ## Numeric texts -/

/-- The decimal digit that a character of another script is. -/
abbrev ScriptDigits := Char → Option (Fin 10)

/-- What `Decimal` makes of the characters of a text: underscores are left out, wherever they
    stand, and the digits of any script are digits. -/
def asciiOf (scripts : ScriptDigits) : List Char → Option (List Char)
  | [] => some []
  | c :: rest =>
    if c = '_' then asciiOf scripts rest
    else if 0 < c.toNat ∧ c.toNat < 128 then (asciiOf scripts rest).map (c :: ·)
    else if isSpace c then (asciiOf scripts rest).map (' ' :: ·)
    else
      match scripts c with
      | some digit => (asciiOf scripts rest).map (Char.ofNat (48 + digit) :: ·)
      | none => none

/-- `Infinity` and the NaNs. -/
def isSpecial (cs : List Char) : Bool :=
  let text := (readSign cs).2.map Char.toLower
  text = "inf".toList || text = "infinity".toList ||
    ("nan".toList.isPrefixOf text && (text.drop 3).all Char.isDigit) ||
    ("snan".toList.isPrefixOf text && (text.drop 4).all Char.isDigit)

/-- The last exponent that `Decimal` has, and the one of its finest digit. -/
def MAX_EMAX : ℤ := 999999999999999999

def MIN_ETINY : ℤ := -1999999999999999997

/-- The exact conversion of a numeric text refuses what it would have to round or to clamp. -/
def representable (d : Number) : Bool :=
  MIN_ETINY ≤ d.exponent && if d.coefficient = 0 then d.exponent ≤ MAX_EMAX else d.adjusted ≤ MAX_EMAX

/-- `Decimal(text)`, which must be finite. -/
def readDecimal (scripts : ScriptDigits) (text : String) : Except MoneyError Number := do
  let cs ← Except.ofOption (.invalidAmount .notDecimal) (asciiOf scripts text.toList)
  Except.refuseIf (isSpecial cs = true) (.invalidAmount .notFinite)
  let spelling ← Except.ofOption (.invalidAmount .notDecimal) (parse cs)
  Except.refuseIf (representable spelling.number = false) (.invalidAmount .notDecimal)
  return spelling.number

/-! ## The conversions -/

/-- `to_major`. -/
def toMajor (ambient : Ambient) (amountMinor : ℤ) (currency : String) : Except MoneyError Number := do
  let exponent ← minorUnitExponent currency
  Except.refuseIf (MAX_AMOUNT_MINOR < |amountMinor|) (.invalidAmount .outOfRange)
  match ambient.scaleb (-exponent) (.ofInt amountMinor) with
  | .finite scaled => Except.ofOption .decimalException (quantize (-exponent) scaled)
  | _ => .error .decimalException

/-- What is made of the scaled number. -/
def wholeAmount : Operation → Except MoneyError ℤ
  | .signal => .error (.invalidAmount .outOfRange)
  -- infinity equals itself, so it passes as a whole number
  | .infinity => .error .overflowError
  | .finite scaled => do
    Except.refuseIf (scaled.value.den ≠ 1) (.invalidAmount .notWhole)
    Except.refuseIf (MAX_AMOUNT_MINOR < |scaled.value.num|) (.invalidAmount .outOfRange)
    return scaled.value.num

/-- `from_major_string`. -/
def fromMajorString (scripts : ScriptDigits) (ambient : Ambient) (text currency : String) :
    Except MoneyError ℤ := do
  let exponent ← minorUnitExponent currency
  let major ← readDecimal scripts (strip text)
  Except.refuseIf (exponent < -major.exponent) (.invalidAmount (.decimalPlaces (-major.exponent)))
  wholeAmount (ambient.scaleb exponent major)

/-! ## What a text denotes -/

/-- The text writes a number: trimmed, without underscores, its digits those of any script. -/
structure Denotes (scripts : ScriptDigits) (text : String) (s : Spelling) : Prop where
  chars : asciiOf scripts (strip text).toList = some s.chars
  formed : s.WellFormed

theorem toLower_digit {c : Char} (h : c.isDigit = true) : c.toLower = c := by
  have h_range : 48 ≤ c.val ∧ c.val ≤ 57 := by simpa [Char.isDigit] using h
  unfold Char.toLower
  rw [dif_neg]
  intro h_upper
  exact absurd (UInt32.le_trans h_upper.1 h_range.2) (by decide)

theorem not_isSpecial_chars {s : Spelling} (h : s.WellFormed) : isSpecial s.chars = false := by
  obtain ⟨c, rest, h_first, h_kind⟩ := h.first
  have h_lower : c.toLower = c := by
    rcases h_kind with h_digit | rfl
    · exact toLower_digit h_digit
    · rfl
  have h_ne : 'i' ≠ c ∧ 'n' ≠ c ∧ 's' ≠ c := by
    refine ⟨?_, ?_, ?_⟩ <;>
    · rintro rfl
      revert h_kind
      decide
  unfold isSpecial
  rw [readSign_chars h, h_first]
  dsimp only
  rw [List.map_cons, h_lower]
  simp [h_ne, h_ne.1.symm]

variable {d : Number}

theorem readDecimal_eq_ok {scripts : ScriptDigits} {text : String} :
    readDecimal scripts (strip text) = .ok d ↔
      ∃ s, Denotes scripts text s ∧ representable s.number = true ∧ s.number = d := by
  unfold readDecimal
  constructor
  · intro h
    obtain ⟨cs, h_cs, h⟩ := Except.bind_eq_ok.mp h
    obtain ⟨-, h_special, h⟩ := Except.bind_eq_ok.mp h
    obtain ⟨s, h_parse, h⟩ := Except.bind_eq_ok.mp h
    obtain ⟨passed, h_range, rfl⟩ := Except.bind_pure_eq_ok.mp h
    rw [Except.ofOption_eq_ok] at h_cs h_parse
    obtain ⟨h_formed, rfl⟩ := parse_eq_some_iff.mp h_parse
    rw [Except.refuseIf_eq_ok, Bool.not_eq_false] at h_range
    exact ⟨s, { chars := h_cs, formed := h_formed }, h_range, rfl⟩
  · rintro ⟨s, ⟨h_chars, h_formed⟩, h_range, rfl⟩
    have h_parse := parse_eq_some_iff.mpr ⟨h_formed, rfl⟩
    rw [h_chars]
    simp only [Except.ofOption, bind, Except.bind, h_parse, not_isSpecial_chars h_formed, h_range]
    rfl

theorem avoids_readDecimal {scripts : ScriptDigits} {text : String} {e : MoneyError}
    (h : ∀ refusal, .invalidAmount refusal ≠ e) : Except.Avoids e (readDecimal scripts text) := by
  unfold readDecimal
  refine Except.Avoids.bind (Except.Avoids.ofOption (h _) _) fun cs _ => ?_
  refine Except.Avoids.bind (Except.Avoids.refuseIf (h _)) fun _ _ => ?_
  refine Except.Avoids.bind (Except.Avoids.ofOption (h _) _) fun spelling _ => ?_
  refine Except.Avoids.bind (Except.Avoids.refuseIf (h _)) fun _ _ => ?_
  exact Except.Avoids.pure _

/-! ## Scaling -/

theorem value_eq_cast (h : 0 ≤ d.exponent) :
    d.value = ((d.signed * 10 ^ d.exponent.toNat : ℤ) : ℚ) := by
  unfold Number.value
  push_cast
  rw [← zpow_natCast, Int.toNat_of_nonneg h]

theorem value_shift (d : Number) (places : ℤ) :
    d.value * 10 ^ places = Number.value { d with exponent := d.exponent + places } := by
  show (d.signed : ℚ) * 10 ^ d.exponent * 10 ^ places = d.signed * 10 ^ (d.exponent + places)
  rw [mul_assoc, ← zpow_add₀ (by norm_num)]

/-- What the conversions need of the caller's context. -/
structure Ambient.Admits (ambient : Ambient) : Prop where
  overflow : ambient.trapsOverflow = true
  clamped : ambient.trapsClamped = false
  emax : 10 ≤ ambient.emax

theorem pow_adjusted_le (h_ne : d.coefficient ≠ 0) (h : 0 ≤ d.exponent) :
    (10 : ℤ) ^ d.adjusted.toNat ≤ |d.signed * 10 ^ d.exponent.toNat| := by
  have h_coefficient : 10 ^ (d.length - 1) ≤ d.coefficient := by
    by_cases h_one : d.length = 1
    · rw [h_one]
      exact Nat.one_le_iff_ne_zero.mpr h_ne
    · have h_pos := d.length_pos
      exact Number.pow_le_of_length (by omega) (by omega)
  have h_place : d.adjusted.toNat = d.length - 1 + d.exponent.toNat := by
    have h_pos := d.length_pos
    unfold Number.adjusted
    omega
  rw [abs_mul, Int.abs_eq_natAbs d.signed, Number.natAbs_signed, abs_pow, h_place, pow_add]
  refine mul_le_mul ?_ le_rfl (by positivity) (by positivity)
  exact_mod_cast h_coefficient

theorem abs_value_cast (d : Number) (k : ℕ) : |d.signed * 10 ^ k| = d.coefficient * 10 ^ k := by
  rw [abs_mul, Int.abs_eq_natAbs d.signed, Number.natAbs_signed, abs_pow]
  rfl

theorem roundDigits_far (h_length : CONVERSION_PRECISION < d.length) (h : 0 ≤ d.exponent) :
    ∃ x : ℤ, (roundDigits d).value = x ∧ MAX_AMOUNT_MINOR < |x| := by
  have h_exponent : 0 ≤ (roundDigits d).exponent := by
    unfold roundDigits
    dsimp only
    omega
  refine ⟨_, value_eq_cast h_exponent, ?_⟩
  have h_digits : 10 ^ (d.length - 1) ≤ d.coefficient :=
    Number.pow_le_of_length (by omega) (by unfold CONVERSION_PRECISION at h_length; omega)
  have h_kept : (((10 ^ 27 : ℕ) : ℤ) : ℚ) ≤ d.coefficient / 10 ^ (d.length - CONVERSION_PRECISION) := by
    have h_split : d.length - 1 = 27 + (d.length - CONVERSION_PRECISION) := by
      unfold CONVERSION_PRECISION at h_length ⊢
      omega
    rw [h_split, pow_add] at h_digits
    rw [le_div_iff₀ (by positivity)]
    exact_mod_cast h_digits
  have h_rounded := RoundingMode.halfEven.le_toInt h_kept
  have h_coefficient : 10 ^ 27 ≤ (roundDigits d).coefficient := by
    unfold roundDigits
    dsimp only
    omega
  rw [abs_value_cast]
  calc MAX_AMOUNT_MINOR < 10 ^ 27 := by unfold MAX_AMOUNT_MINOR; norm_num
    _ ≤ ((roundDigits d).coefficient : ℤ) := by exact_mod_cast h_coefficient
    _ ≤ (roundDigits d).coefficient * 10 ^ (roundDigits d).exponent.toNat :=
      le_mul_of_one_le_right (by positivity) (one_le_pow₀ (by norm_num))

/-- Finishing settles which integer the amount is, or that it is none of the admissible ones. -/
theorem finish_cases {ambient : Ambient} (h_ambient : ambient.Admits) (h : 0 ≤ d.exponent) {x : ℤ}
    (h_x : d.value = x) :
    (|x| ≤ MAX_AMOUNT_MINOR → ∃ r, ambient.finish d = .finite r ∧ r.value = x) ∧
      (MAX_AMOUNT_MINOR < |x| → ambient.finish d = .signal ∨
        ∃ r, ∃ y : ℤ, ambient.finish d = .finite r ∧ r.value = y ∧ MAX_AMOUNT_MINOR < |y|) := by
  have h_cast : x = d.signed * 10 ^ d.exponent.toNat := by
    have h_eq := value_eq_cast h
    rw [h_x] at h_eq
    exact_mod_cast h_eq
  have h_overflow : ambient.overflow = .signal := by
    rw [Ambient.overflow, if_pos h_ambient.overflow]
  unfold Ambient.finish
  by_cases h_zero : d.coefficient = 0
  · have h_signed : d.signed = 0 := by
      rw [← Int.natAbs_eq_zero, Number.natAbs_signed, h_zero]
    have h_x_zero : x = 0 := by rw [h_cast, h_signed, zero_mul]
    rw [if_pos h_zero, h_ambient.clamped, if_neg Bool.false_ne_true]
    refine ⟨fun _ => ?_, fun h_far => absurd h_far (by rw [h_x_zero]; decide)⟩
    split_ifs
    · exact ⟨d, rfl, h_x⟩
    · refine ⟨_, rfl, ?_⟩
      show (d.signed : ℚ) * 10 ^ ambient.emax = x
      rw [h_signed, h_x_zero, Int.cast_zero, zero_mul]
  · rw [if_neg h_zero]
    by_cases h_high : ambient.emax < d.adjusted
    · -- the first digit stands beyond the eleven digits of the largest amount
      have h_far : MAX_AMOUNT_MINOR < |x| := by
        have h_emax := h_ambient.emax
        have h_pow : (10 : ℤ) ^ 11 ≤ 10 ^ d.adjusted.toNat :=
          pow_le_pow_right₀ (by norm_num) (by omega)
        have h_le := pow_adjusted_le h_zero h
        rw [← h_cast] at h_le
        exact lt_of_lt_of_le (by unfold MAX_AMOUNT_MINOR; norm_num) (h_pow.trans h_le)
      rw [if_pos h_high, h_overflow]
      exact ⟨fun h_near => absurd h_near (not_le.mpr h_far), fun _ => .inl rfl⟩
    · rw [if_neg h_high]
      by_cases h_length : d.length ≤ CONVERSION_PRECISION
      · rw [if_pos h_length]
        exact ⟨fun _ => ⟨d, rfl, h_x⟩, fun h_far => .inr ⟨d, x, rfl, h_x, h_far⟩⟩
      · have h_far : MAX_AMOUNT_MINOR < |x| := by
          have h_digits := Number.pow_le_of_length (not_le.mp h_length) (by decide)
          rw [h_cast, abs_value_cast]
          calc MAX_AMOUNT_MINOR < 10 ^ CONVERSION_PRECISION := by
                unfold MAX_AMOUNT_MINOR CONVERSION_PRECISION
                norm_num
            _ ≤ (d.coefficient : ℤ) := by exact_mod_cast h_digits
            _ ≤ d.coefficient * 10 ^ d.exponent.toNat :=
              le_mul_of_one_le_right (by positivity) (one_le_pow₀ (by norm_num))
        rw [if_neg h_length, h_overflow]
        refine ⟨fun h_near => absurd h_near (not_le.mpr h_far), fun _ => ?_⟩
        split_ifs
        · exact .inl rfl
        · exact .inl rfl
        · obtain ⟨y, h_y, h_y_far⟩ := roundDigits_far (not_le.mp h_length) h
          exact .inr ⟨_, y, rfl, h_y, h_y_far⟩

/-! ## Taking an amount in -/

theorem wholeAmount_finite {r : Number} {x : ℤ} (h : r.value = x) :
    wholeAmount (.finite r)
      = if MAX_AMOUNT_MINOR < |x| then .error (.invalidAmount .outOfRange) else .ok x := by
  show (Except.refuseIf (r.value.den ≠ 1) (MoneyError.invalidAmount .notWhole) >>= fun _ =>
    Except.refuseIf (MAX_AMOUNT_MINOR < |r.value.num|) (.invalidAmount .outOfRange) >>= fun _ =>
    pure r.value.num) = _
  rw [h, Rat.den_intCast, Rat.num_intCast]
  unfold Except.refuseIf
  rw [if_neg (by decide)]
  split_ifs <;> rfl

variable {places n : ℤ}

theorem wholeAmount_scaleb {ambient : Ambient} (h_ambient : ambient.Admits)
    (h : -d.exponent ≤ places) :
    ∃ x : ℤ, d.value * 10 ^ places = x ∧ wholeAmount (ambient.scaleb places d)
      = if MAX_AMOUNT_MINOR < |x| then .error (.invalidAmount .outOfRange) else .ok x := by
  have h_exponent : 0 ≤ (⟨d.negative, d.coefficient, d.exponent + places⟩ : Number).exponent := by
    dsimp only
    omega
  have h_value := value_eq_cast h_exponent
  obtain ⟨h_near, h_far⟩ := finish_cases h_ambient h_exponent h_value
  refine ⟨_, (value_shift d places).trans h_value, ?_⟩
  unfold Ambient.scaleb
  split_ifs with h_range
  · rcases h_far h_range with h_signal | ⟨r, y, h_finite, h_y, h_y_far⟩
    · rw [h_signal]
      rfl
    · rw [h_finite, wholeAmount_finite h_y, if_pos h_y_far]
  · obtain ⟨r, h_finite, h_r⟩ := h_near (not_lt.mp h_range)
    rw [h_finite, wholeAmount_finite h_r, if_neg h_range]

variable {scripts : ScriptDigits} {ambient : Ambient} {text currency : String}

theorem fromMajorString_eq (h_currency : minorUnitExponent currency = .ok places) :
    fromMajorString scripts ambient text currency =
      (readDecimal scripts (strip text) >>= fun major =>
        Except.refuseIf (places < -major.exponent)
          (.invalidAmount (.decimalPlaces (-major.exponent))) >>= fun _ =>
        wholeAmount (ambient.scaleb places major)) := by
  unfold fromMajorString
  rw [h_currency]
  rfl

theorem minorUnitExponent_eq_two (h : minorUnitExponent currency = .ok places) : places = 2 := by
  have h_lookup := Except.ofOption_eq_ok.mp h
  unfold MINOR_UNIT_EXPONENT at h_lookup
  simp only [List.lookup_cons, List.lookup_nil] at h_lookup
  split at h_lookup
  · exact (Option.some.inj h_lookup).symm
  · split at h_lookup
    · exact (Option.some.inj h_lookup).symm
    · cases h_lookup

/-- An admissible amount other than zero is well within the range of `Decimal`. -/
theorem representable_iff_of_near (h_two : places = 2) (h_places : -d.exponent ≤ places)
    (h_value : d.value * 10 ^ places = n) (h_near : |n| ≤ MAX_AMOUNT_MINOR) :
    representable d = true ↔ (d.coefficient = 0 → d.exponent ≤ MAX_EMAX) := by
  have h_low : MIN_ETINY ≤ d.exponent := by
    unfold MIN_ETINY
    omega
  unfold representable
  rw [decide_eq_true h_low, Bool.true_and]
  by_cases h_zero : d.coefficient = 0
  · simp [h_zero]
  · have h_high : d.adjusted ≤ MAX_EMAX := by
      have h_shifted := pow_adjusted_le (d := ⟨d.negative, d.coefficient, d.exponent + places⟩) h_zero
        (by dsimp only; omega)
      rw [value_shift, value_eq_cast (by dsimp only; omega)] at h_value
      rw [show Number.signed _ * 10 ^ _ = n by exact_mod_cast h_value] at h_shifted
      by_contra h_beyond
      have h_pow : (10 : ℤ) ^ 11 ≤ 10 ^
          (⟨d.negative, d.coefficient, d.exponent + places⟩ : Number).adjusted.toNat := by
        refine pow_le_pow_right₀ (by norm_num) ?_
        unfold MAX_EMAX at h_beyond
        unfold Number.adjusted Number.length at h_beyond ⊢
        dsimp only
        omega
      unfold MAX_AMOUNT_MINOR at h_near
      exact absurd ((h_pow.trans h_shifted).trans h_near) (by norm_num)
    simp [h_zero, h_high]

theorem fromMajorString_eq_ok_iff (h_ambient : ambient.Admits)
    (h_currency : minorUnitExponent currency = .ok places) :
    fromMajorString scripts ambient text currency = .ok n ↔
      ∃ s, Denotes scripts text s ∧ s.number.value = n / 10 ^ places ∧
        -s.number.exponent ≤ places ∧ |n| ≤ MAX_AMOUNT_MINOR ∧
        (s.number.coefficient = 0 → s.number.exponent ≤ MAX_EMAX) := by
  have h_two := minorUnitExponent_eq_two h_currency
  have h_pow : (10 : ℚ) ^ places ≠ 0 := zpow_ne_zero _ (by norm_num)
  rw [fromMajorString_eq h_currency, Except.bind_eq_ok]
  constructor
  · rintro ⟨d, h_read, h⟩
    obtain ⟨s, h_denotes, h_range, rfl⟩ := readDecimal_eq_ok.mp h_read
    obtain ⟨passed, h_places, h⟩ := Except.bind_eq_ok.mp h
    rw [Except.refuseIf_eq_ok, not_lt] at h_places
    obtain ⟨x, h_x, h_settled⟩ := wholeAmount_scaleb h_ambient h_places
    rw [h_settled] at h
    split_ifs at h with h_far
    cases h
    have h_near := not_lt.mp h_far
    exact ⟨s, h_denotes, by rw [← h_x, mul_div_cancel_right₀ _ h_pow], h_places, h_near,
      (representable_iff_of_near h_two h_places h_x h_near).mp h_range⟩
  · rintro ⟨s, h_denotes, h_value, h_places, h_near, h_zero⟩
    have h_scaled : s.number.value * 10 ^ places = n := by
      rw [h_value, div_mul_cancel₀ _ h_pow]
    have h_range := (representable_iff_of_near h_two h_places h_scaled h_near).mpr h_zero
    refine ⟨s.number, readDecimal_eq_ok.mpr ⟨s, h_denotes, h_range, rfl⟩, ?_⟩
    obtain ⟨x, h_x, h_settled⟩ := wholeAmount_scaleb h_ambient h_places
    obtain rfl : x = n := by
      rw [h_x] at h_scaled
      exact_mod_cast h_scaled
    rw [h_settled, if_neg (not_lt.mpr h_near)]
    simp [Except.refuseIf, not_lt.mpr h_places, bind, Except.bind]

theorem fromMajorString_eq_error (h_ambient : ambient.Admits)
    (h_currency : minorUnitExponent currency = .ok places) {e : MoneyError}
    (h : fromMajorString scripts ambient text currency = .error e) :
    ∃ refusal, e = .invalidAmount refusal := by
  by_contra h_other
  have h_ne : ∀ refusal, .invalidAmount refusal ≠ e := fun refusal h_eq => h_other ⟨refusal, h_eq.symm⟩
  rw [fromMajorString_eq h_currency] at h
  refine Except.Avoids.bind (avoids_readDecimal h_ne) (fun d _ => ?_) h
  by_cases h_places : places < -d.exponent
  · rw [Except.refuseIf, if_pos h_places]
    exact Except.Avoids.error (h_ne _)
  · rw [Except.refuseIf, if_neg h_places]
    obtain ⟨x, -, h_settled⟩ := wholeAmount_scaleb h_ambient (not_lt.mp h_places)
    show Except.Avoids e (wholeAmount _)
    rw [h_settled]
    split_ifs
    · exact Except.Avoids.error (h_ne _)
    · exact Except.Avoids.ok _

/-! ## Showing an amount -/

def isNotationChar (c : Char) : Bool := c.isDigit || c ∈ ['+', '-', '.', 'e', 'E']

theorem isNotationChar_of_mem_chars {s : Spelling} (h : s.WellFormed) :
    ∀ c ∈ s.chars, isNotationChar c = true := by
  have h_digit : ∀ c : Char, c.isDigit = true → isNotationChar c = true := by
    intro c h_c
    rw [isNotationChar, h_c, Bool.true_or]
  have h_sign : ∀ sign : Option Bool, ∀ c ∈ signChars sign, isNotationChar c = true := by
    intro sign c h_c
    cases sign with
    | none => cases h_c
    | some negative =>
      cases negative with
      | false => rw [List.mem_singleton.mp h_c]; rfl
      | true => rw [List.mem_singleton.mp h_c]; rfl
  unfold Spelling.chars
  refine List.forall_mem_append.mpr ⟨h_sign _, List.forall_mem_append.mpr
    ⟨fun c h_c => h_digit c (h.whole c h_c), List.forall_mem_append.mpr ⟨?_, ?_⟩⟩⟩
  · intro c h_c
    have h_fraction := h.fraction
    cases h_eq : s.fraction with
    | none =>
      rw [h_eq] at h_c
      cases h_c
    | some digits =>
      rw [h_eq] at h_c h_fraction
      rcases List.mem_cons.mp h_c with rfl | h_mem
      · rfl
      · exact h_digit c (h_fraction c h_mem)
  · intro c h_c
    cases h_eq : s.exponent with
    | none =>
      rw [h_eq] at h_c
      cases h_c
    | some part =>
      have h_part := h.exponent part (by rw [h_eq]; rfl)
      rw [h_eq] at h_c
      rcases List.mem_cons.mp h_c with rfl | h_mem
      · rcases h_part.marker with h_marker | h_marker
        · rw [h_marker]
          rfl
        · rw [h_marker]
          rfl
      · rcases List.mem_append.mp h_mem with h_mem | h_mem
        · exact h_sign _ c h_mem
        · exact h_digit c (h_part.digits c h_mem)

theorem isNotationChar_plain {c : Char} (h : isNotationChar c = true) :
    c ≠ '_' ∧ (0 < c.toNat ∧ c.toNat < 128) ∧ isSpace c = false := by
  have h_range : c ≠ '_' ∧ 43 ≤ c.toNat ∧ c.toNat ≤ 101 := by
    unfold isNotationChar at h
    rcases Bool.or_eq_true_iff.mp h with h_digit | h_other
    · have h_val : 48 ≤ c.val ∧ c.val ≤ 57 := by simpa [Char.isDigit] using h_digit
      have h_bounds : 48 ≤ c.toNat ∧ c.toNat ≤ 57 :=
        ⟨UInt32.le_iff_toNat_le.mp h_val.1, UInt32.le_iff_toNat_le.mp h_val.2⟩
      refine ⟨?_, by omega, by omega⟩
      rintro rfl
      exact absurd h_bounds (by decide)
    · simp only [List.mem_cons, List.not_mem_nil, or_false, decide_eq_true_eq] at h_other
      rcases h_other with rfl | rfl | rfl | rfl | rfl <;> decide
  refine ⟨h_range.1, by omega, ?_⟩
  unfold isSpace
  simp
  omega

theorem asciiOf_plain {cs : List Char} (h : ∀ c ∈ cs, isNotationChar c = true) :
    asciiOf scripts cs = some cs := by
  induction cs with
  | nil => rfl
  | cons c rest ih =>
    rw [List.forall_mem_cons] at h
    obtain ⟨h_underscore, h_ascii, -⟩ := isNotationChar_plain h.1
    rw [asciiOf, if_neg h_underscore, if_pos h_ascii, ih h.2]
    rfl

theorem denotes_str (d : Number) : Denotes scripts d.str d.spelling := by
  have h_formed := wellFormed_spelling d
  have h_chars := isNotationChar_of_mem_chars h_formed
  have h_list : d.str.toList = d.spelling.chars := String.toList_ofList
  refine { chars := ?_, formed := h_formed }
  rw [StrategyDag.strip_of_forall, h_list, asciiOf_plain h_chars]
  rw [h_list]
  exact fun c h_c => (isNotationChar_plain (h_chars c h_c)).2.2

theorem scaleb_amount (h_ambient : ambient.Admits) (h_near : |n| ≤ MAX_AMOUNT_MINOR) :
    ambient.scaleb (-2) (.ofInt n)
      = .finite { negative := n < 0, coefficient := n.natAbs, exponent := -2 } := by
  have h_emax := h_ambient.emax
  have h_length : (⟨n < 0, n.natAbs, -2⟩ : Number).length ≤ 11 := by
    refine (Number.length_le_iff (by decide)).mpr ?_
    rw [Int.abs_eq_natAbs] at h_near
    unfold MAX_AMOUNT_MINOR at h_near
    dsimp only
    omega
  unfold Ambient.scaleb
  show ambient.finish ⟨n < 0, n.natAbs, -2⟩ = _
  unfold Ambient.finish
  split_ifs with h_zero h_exponent h_clamped h_high h_digits
  · rfl
  · dsimp only at h_exponent
    omega
  · dsimp only at h_exponent
    omega
  · unfold Number.adjusted at h_high
    dsimp only at h_high
    omega
  · rfl
  all_goals
    unfold CONVERSION_PRECISION at h_digits
    omega

theorem toMajor_eq_ok (h_ambient : ambient.Admits)
    (h_currency : minorUnitExponent currency = .ok places) (h_near : |n| ≤ MAX_AMOUNT_MINOR) :
    toMajor ambient n currency
      = .ok { negative := n < 0, coefficient := n.natAbs, exponent := -places } := by
  obtain rfl := minorUnitExponent_eq_two h_currency
  have h_small : n.natAbs < 10 ^ CONVERSION_PRECISION := by
    rw [Int.abs_eq_natAbs] at h_near
    unfold MAX_AMOUNT_MINOR at h_near
    unfold CONVERSION_PRECISION
    omega
  have h_quantize : quantize (-2) { negative := n < 0, coefficient := n.natAbs, exponent := -2 }
      = some { negative := n < 0, coefficient := n.natAbs, exponent := -2 } := by
    unfold quantize
    simp [h_small]
  unfold toMajor
  rw [h_currency]
  simp only [bind, Except.bind, Except.refuseIf, if_neg (not_lt.mpr h_near),
    scaleb_amount h_ambient h_near, h_quantize]
  rfl

theorem fromMajorString_toMajor (h_ambient : ambient.Admits)
    (h_currency : minorUnitExponent currency = .ok places) (h_near : |n| ≤ MAX_AMOUNT_MINOR) :
    ∃ major, toMajor ambient n currency = .ok major ∧
      fromMajorString scripts ambient major.str currency = .ok n := by
  refine ⟨_, toMajor_eq_ok h_ambient h_currency h_near, ?_⟩
  rw [fromMajorString_eq_ok_iff h_ambient h_currency]
  have h_two := minorUnitExponent_eq_two h_currency
  refine ⟨_, denotes_str _, ?_⟩
  rw [number_spelling]
  refine ⟨?_, le_of_eq (neg_neg _), h_near, fun _ => ?_⟩
  · show ((Number.ofInt n).signed : ℚ) * 10 ^ (-places) = n / 10 ^ places
    rw [Number.signed_ofInt, zpow_neg, div_eq_mul_inv]
  · show -places ≤ MAX_EMAX
    rw [h_two]
    decide

end VyomQuant.Marketplace
