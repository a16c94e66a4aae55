/-
  VyomQuant.Lib.Rounding

  The seven integer rounding modes of decimal arithmetic (General Decimal
  Arithmetic: `ROUND_HALF_EVEN`, `ROUND_HALF_UP`, `ROUND_HALF_DOWN`, `ROUND_UP`,
  `ROUND_DOWN`, `ROUND_CEILING`, `ROUND_FLOOR`), as functions `ℚ → ℤ`.

  Every mode returns one of the two integers around its argument, and that is
  the only fact the users of this module need: `floor_le_toInt` and
  `toInt_le_ceil` carry sign, exactness on integers and the error bound.
-/

import Mathlib.Data.Rat.Floor

namespace Decimal

/-- The rounding modes a decimal `quantize` may be given. -/
inductive RoundingMode where
  | halfEven
  | halfUp
  | halfDown
  | up
  | down
  | ceiling
  | floor

def towardZero (x : ℚ) : ℤ :=
  if 0 ≤ x then ⌊x⌋ else ⌈x⌉

def awayFromZero (x : ℚ) : ℤ :=
  if 0 ≤ x then ⌈x⌉ else ⌊x⌋

/-- Round to the nearest integer, with `tie` deciding exact halves. -/
def nearest (tie : ℤ) (x : ℚ) : ℤ :=
  if x - ⌊x⌋ < 1 / 2 then ⌊x⌋ else if 1 / 2 < x - ⌊x⌋ then ⌈x⌉ else tie

/-- The even one of the two integers around `x`. -/
def evenNeighbour (x : ℚ) : ℤ :=
  if Even ⌊x⌋ then ⌊x⌋ else ⌈x⌉

/-- The integer a mode rounds `x` to. -/
def RoundingMode.toInt (mode : RoundingMode) (x : ℚ) : ℤ :=
  match mode with
  | .halfEven => nearest (evenNeighbour x) x
  | .halfUp => nearest (awayFromZero x) x
  | .halfDown => nearest (towardZero x) x
  | .up => awayFromZero x
  | .down => towardZero x
  | .ceiling => ⌈x⌉
  | .floor => ⌊x⌋

/-! ## Every mode picks one of the two neighbours -/

theorem towardZero_mem (x : ℚ) : towardZero x = ⌊x⌋ ∨ towardZero x = ⌈x⌉ := by
  unfold towardZero
  split
  · exact Or.inl rfl
  · exact Or.inr rfl

theorem awayFromZero_mem (x : ℚ) : awayFromZero x = ⌊x⌋ ∨ awayFromZero x = ⌈x⌉ := by
  unfold awayFromZero
  split
  · exact Or.inr rfl
  · exact Or.inl rfl

theorem evenNeighbour_mem (x : ℚ) : evenNeighbour x = ⌊x⌋ ∨ evenNeighbour x = ⌈x⌉ := by
  unfold evenNeighbour
  split
  · exact Or.inl rfl
  · exact Or.inr rfl

theorem nearest_mem {tie : ℤ} {x : ℚ} (h_tie : tie = ⌊x⌋ ∨ tie = ⌈x⌉) :
    nearest tie x = ⌊x⌋ ∨ nearest tie x = ⌈x⌉ := by
  unfold nearest
  split
  · exact Or.inl rfl
  · split
    · exact Or.inr rfl
    · exact h_tie

theorem RoundingMode.toInt_mem (mode : RoundingMode) (x : ℚ) :
    mode.toInt x = ⌊x⌋ ∨ mode.toInt x = ⌈x⌉ := by
  cases mode with
  | halfEven => exact nearest_mem (evenNeighbour_mem x)
  | halfUp => exact nearest_mem (awayFromZero_mem x)
  | halfDown => exact nearest_mem (towardZero_mem x)
  | up => exact awayFromZero_mem x
  | down => exact towardZero_mem x
  | ceiling => exact Or.inr rfl
  | floor => exact Or.inl rfl

theorem RoundingMode.floor_le_toInt (mode : RoundingMode) (x : ℚ) :
    ⌊x⌋ ≤ mode.toInt x := by
  rcases mode.toInt_mem x with h | h
  · exact h.ge
  · rw [h]
    exact Int.floor_le_ceil x

theorem RoundingMode.toInt_le_ceil (mode : RoundingMode) (x : ℚ) :
    mode.toInt x ≤ ⌈x⌉ := by
  rcases mode.toInt_mem x with h | h
  · rw [h]
    exact Int.floor_le_ceil x
  · exact h.le

@[simp] theorem RoundingMode.toInt_intCast (mode : RoundingMode) (n : ℤ) :
    mode.toInt (n : ℚ) = n := by
  have h_low := mode.floor_le_toInt (n : ℚ)
  have h_high := mode.toInt_le_ceil (n : ℚ)
  rw [Int.floor_intCast] at h_low
  rw [Int.ceil_intCast] at h_high
  exact le_antisymm h_high h_low

@[simp] theorem RoundingMode.toInt_zero (mode : RoundingMode) : mode.toInt 0 = 0 := by
  simpa using mode.toInt_intCast 0

theorem RoundingMode.toInt_nonneg (mode : RoundingMode) {x : ℚ} (h : 0 ≤ x) :
    0 ≤ mode.toInt x :=
  (Int.floor_nonneg.mpr h).trans (mode.floor_le_toInt x)

theorem RoundingMode.le_toInt (mode : RoundingMode) {n : ℤ} {x : ℚ} (h : (n : ℚ) ≤ x) :
    n ≤ mode.toInt x :=
  (Int.le_floor.mpr h).trans (mode.floor_le_toInt x)

theorem RoundingMode.toInt_le (mode : RoundingMode) {n : ℤ} {x : ℚ} (h : x ≤ (n : ℚ)) :
    mode.toInt x ≤ n :=
  (mode.toInt_le_ceil x).trans (Int.ceil_le.mpr h)

theorem toInt_halfEven_mono {x y : ℚ} (h : x ≤ y) :
    RoundingMode.halfEven.toInt x ≤ RoundingMode.halfEven.toInt y := by
  have h_x := RoundingMode.halfEven.toInt_le_ceil x
  have h_y := RoundingMode.halfEven.floor_le_toInt y
  by_cases h_between : ⌈x⌉ ≤ ⌊y⌋
  · omega
  -- No integer lies between them, so they are compared with the same half.
  have h_floor : ⌊x⌋ = ⌊y⌋ := by
    have h_le := Int.floor_le_floor h
    have h_next := Int.ceil_le_floor_add_one x
    omega
  have h_ceil : ⌈x⌉ = ⌈y⌉ := by
    have h_le := Int.ceil_le_ceil h
    have h_next := Int.ceil_le_floor_add_one y
    omega
  have h_order := Int.floor_le_ceil y
  show nearest (evenNeighbour x) x ≤ nearest (evenNeighbour y) y
  unfold nearest evenNeighbour
  rw [h_floor, h_ceil]
  split_ifs <;> first | exact le_rfl | exact h_order | linarith

/-! ## The nearest integer -/

theorem toInt_halfUp_eq {x : ℚ} {n : ℤ} (h : |x - n| < 1 / 2) : RoundingMode.halfUp.toInt x = n := by
  obtain ⟨h_low, h_high⟩ := abs_lt.mp h
  by_cases h_le : (n : ℚ) ≤ x
  · have h_floor : ⌊x⌋ = n := Int.floor_eq_iff.mpr ⟨h_le, by linarith⟩
    show nearest _ x = n
    rw [nearest, h_floor, if_pos h_high]
  · have h_floor : ⌊x⌋ = n - 1 := by
      refine Int.floor_eq_iff.mpr ⟨?_, ?_⟩ <;> push_cast <;> linarith
    have h_ceil : ⌈x⌉ = n := by
      refine Int.ceil_eq_iff.mpr ⟨by linarith, by linarith⟩
    have h_frac : 1 / 2 < x - ((n - 1 : ℤ) : ℚ) := by
      push_cast
      linarith
    show nearest _ x = n
    rw [nearest, h_floor, if_neg (by linarith), if_pos h_frac, h_ceil]

theorem abs_sub_toInt_halfUp_lt {x : ℚ} (h : ∀ n : ℤ, x ≠ n + 1 / 2) :
    |x - RoundingMode.halfUp.toInt x| < 1 / 2 := by
  have h_low := Int.floor_le x
  have h_high := Int.lt_floor_add_one x
  rcases lt_trichotomy (x - ⌊x⌋) (1 / 2) with h_lt | h_eq | h_gt
  · have h_near : |x - ⌊x⌋| < 1 / 2 := abs_lt.mpr ⟨by linarith, h_lt⟩
    rwa [toInt_halfUp_eq h_near]
  · exact absurd (by linarith) (h ⌊x⌋)
  · have h_near : |x - ((⌊x⌋ + 1 : ℤ) : ℚ)| < 1 / 2 := by
      push_cast
      exact abs_lt.mpr ⟨by linarith, by linarith⟩
    rwa [toInt_halfUp_eq h_near]

theorem toInt_halfUp_add_half {n : ℤ} (h : 0 ≤ n) :
    RoundingMode.halfUp.toInt (n + 1 / 2) = n + 1 := by
  have h_floor : ⌊(n + 1 / 2 : ℚ)⌋ = n := Int.floor_eq_iff.mpr ⟨by linarith, by linarith⟩
  have h_ceil : ⌈(n + 1 / 2 : ℚ)⌉ = n + 1 := by
    refine Int.ceil_eq_iff.mpr ⟨?_, ?_⟩ <;> push_cast <;> linarith
  have h_nonneg : (0 : ℚ) ≤ n + 1 / 2 := by
    have h_cast : (0 : ℚ) ≤ n := by exact_mod_cast h
    linarith
  show nearest (awayFromZero _) _ = n + 1
  rw [nearest, h_floor, if_neg (by linarith), if_neg (by linarith), awayFromZero,
    if_pos h_nonneg, h_ceil]

theorem sub_toInt_halfUp_sub_eq_iff {a : ℤ} {x : ℚ} (h_pos : 0 < x) (h_le : x ≤ a) :
    a - RoundingMode.halfUp.toInt (a - x) = RoundingMode.halfUp.toInt x ↔
      ∀ n : ℤ, x ≠ n + 1 / 2 := by
  constructor
  · rintro h_eq n rfl
    have h_half : 0 ≤ n := by
      have h_cast : (-1 : ℚ) < n := by linarith
      have h_int : -1 < n := by exact_mod_cast h_cast
      omega
    have h_rest : 0 ≤ a - n - 1 := by
      have h_cast : (n : ℚ) < a := by linarith
      have h_int : n < a := by exact_mod_cast h_cast
      omega
    have h_sub : (a : ℚ) - (n + 1 / 2) = ((a - n - 1 : ℤ) : ℚ) + 1 / 2 := by
      push_cast
      ring
    rw [h_sub, toInt_halfUp_add_half h_rest, toInt_halfUp_add_half h_half] at h_eq
    omega
  · intro h_half
    have h_near := abs_sub_toInt_halfUp_lt h_half
    generalize RoundingMode.halfUp.toInt x = n at h_near
    have h_sub : |(a - x : ℚ) - ((a - n : ℤ) : ℚ)| < 1 / 2 := by
      rw [← abs_neg]
      push_cast
      convert h_near using 2
      ring
    rw [toInt_halfUp_eq h_sub]
    omega

end Decimal
