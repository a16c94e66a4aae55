/-
  VyomQuant.Lib.DecimalNotation

  Decimal numbers with their exponents, and how they are written: a sign, digits with a point
  among them, and a power of ten.

  `parse` reads a notation back, and accepts nothing else (`parse_eq_some_iff`).  The text of
  a number (`Number.str`) is one of its notations: it is read back to the same digits at the
  same place (`number_spelling`).
-/

import Mathlib.Data.List.TakeWhile
import VyomQuant.Lib.DecimalText

namespace Decimal

/-! ## Numbers -/

/-- A decimal: its digits, and the power of ten that the last of them counts. -/
structure Number where
  negative : Bool
  coefficient : ℕ
  exponent : ℤ
deriving DecidableEq

namespace Number

def signed (d : Number) : ℤ := if d.negative then -d.coefficient else d.coefficient

def value (d : Number) : ℚ := d.signed * 10 ^ d.exponent

def ofInt (n : ℤ) : Number := { negative := n < 0, coefficient := n.natAbs, exponent := 0 }

/-- How many digits are written. -/
def length (d : Number) : ℕ := (toString d.coefficient).toList.length

/-- The power of ten of the first digit. -/
def adjusted (d : Number) : ℤ := d.exponent + d.length - 1

theorem signed_ofInt (n : ℤ) : (ofInt n).signed = n := by
  unfold signed ofInt
  by_cases h : n < 0
  · simp only [h, decide_true, if_true]
    omega
  · simp only [h, decide_false, Bool.false_eq_true, if_false]
    omega

theorem natAbs_signed (d : Number) : d.signed.natAbs = d.coefficient := by
  unfold signed
  split_ifs <;> simp

theorem length_pos (d : Number) : 0 < d.length := by
  rw [length, List.length_pos_iff, Nat.toString_eq_repr, ne_eq, String.toList_eq_nil_iff]
  exact Nat.repr_ne_empty

theorem length_le_iff {d : Number} {k : ℕ} (h : 0 < k) : d.length ≤ k ↔ d.coefficient < 10 ^ k := by
  rw [length, Nat.toString_eq_repr, Nat.toList_repr]
  exact Nat.length_toDigits_le_iff (by decide) h

theorem pow_le_of_length {d : Number} {k : ℕ} (h : k < d.length) (h_pos : 0 < k) :
    10 ^ k ≤ d.coefficient := by
  by_contra h_lt
  exact absurd ((length_le_iff h_pos).mpr (not_le.mp h_lt)) (not_le.mpr h)

end Number

/-! ## Notations -/

/-- `e+10`. -/
structure ExponentPart where
  marker : Char
  /-- `true` for a minus. -/
  sign : Option Bool
  digits : List Char

/-- How a number is written. -/
structure Spelling where
  sign : Option Bool
  whole : List Char
  /-- What stands after the point, where there is one. -/
  fraction : Option (List Char)
  exponent : Option ExponentPart

def signChars : Option Bool → List Char
  | none => []
  | some false => ['+']
  | some true => ['-']

structure ExponentPart.WellFormed (part : ExponentPart) : Prop where
  marker : part.marker = 'e' ∨ part.marker = 'E'
  digits : ∀ c ∈ part.digits, c.isDigit = true
  ne_nil : part.digits ≠ []

def ExponentPart.chars (part : ExponentPart) : List Char :=
  part.marker :: (signChars part.sign ++ part.digits)

def ExponentPart.value (part : ExponentPart) : ℤ :=
  if part.sign = some true then -(Nat.ofDigitChars 10 part.digits 0 : ℤ)
  else Nat.ofDigitChars 10 part.digits 0

namespace Spelling

structure WellFormed (s : Spelling) : Prop where
  whole : ∀ c ∈ s.whole, c.isDigit = true
  fraction : ∀ c ∈ s.fraction.getD [], c.isDigit = true
  ne_nil : s.whole ++ s.fraction.getD [] ≠ []
  exponent : ∀ part ∈ s.exponent, part.WellFormed

def pointChars (fraction : Option (List Char)) : List Char :=
  (fraction.map fun digits => '.' :: digits).getD []

def exponentChars (part : Option ExponentPart) : List Char := (part.map ExponentPart.chars).getD []

def chars (s : Spelling) : List Char :=
  signChars s.sign ++ (s.whole ++ (pointChars s.fraction ++ exponentChars s.exponent))

def number (s : Spelling) : Number :=
  { negative := s.sign = some true
    coefficient := Nat.ofDigitChars 10 (s.whole ++ s.fraction.getD []) 0
    exponent := (s.exponent.map ExponentPart.value).getD 0 - (s.fraction.getD []).length }

end Spelling

/-! ## Reading -/

def readSign : List Char → Option Bool × List Char
  | '+' :: rest => (some false, rest)
  | '-' :: rest => (some true, rest)
  | rest => (none, rest)

def readFraction : List Char → Option (List Char) × List Char
  | '.' :: rest => (some (rest.takeWhile Char.isDigit), rest.dropWhile Char.isDigit)
  | rest => (none, rest)

def readExponent : List Char → Option (Option ExponentPart)
  | [] => some none
  | marker :: rest =>
    let signed := readSign rest
    if (marker = 'e' ∨ marker = 'E') ∧ signed.2 ≠ [] ∧ signed.2.all Char.isDigit then
      some (some { marker := marker, sign := signed.1, digits := signed.2 })
    else none

def parse (cs : List Char) : Option Spelling :=
  let signed := readSign cs
  let whole := signed.2.takeWhile Char.isDigit
  let fraction := readFraction (signed.2.dropWhile Char.isDigit)
  if whole ++ fraction.1.getD [] = [] then none
  else
    (readExponent fraction.2).map fun exponent =>
      { sign := signed.1, whole := whole, fraction := fraction.1, exponent := exponent }

theorem readSign_eq (cs : List Char) : signChars (readSign cs).1 ++ (readSign cs).2 = cs := by
  unfold readSign
  split <;> rfl

theorem readSign_append {sign : Option Bool} {rest : List Char}
    (h : ∀ c ∈ rest.head?, c ≠ '+' ∧ c ≠ '-') : readSign (signChars sign ++ rest) = (sign, rest) := by
  cases sign with
  | some negative => cases negative <;> rfl
  | none =>
    show readSign rest = _
    unfold readSign
    split
    · exact absurd rfl (h '+' rfl).1
    · exact absurd rfl (h '-' rfl).2
    · rfl

theorem takeWhile_digits {digits rest : List Char} (h : ∀ c ∈ digits, c.isDigit = true)
    (h_rest : ∀ c ∈ rest.head?, c.isDigit = false) :
    (digits ++ rest).takeWhile Char.isDigit = digits ∧ (digits ++ rest).dropWhile Char.isDigit = rest := by
  have h_stop : rest.takeWhile Char.isDigit = [] ∧ rest.dropWhile Char.isDigit = rest := by
    cases rest with
    | nil => exact ⟨rfl, rfl⟩
    | cons c tail =>
      have h_c := h_rest c rfl
      exact ⟨List.takeWhile_cons_of_neg (by simp [h_c]), List.dropWhile_cons_of_neg (by simp [h_c])⟩
  rw [List.takeWhile_append_of_pos h, List.dropWhile_append_of_pos h, h_stop.1, h_stop.2,
    List.append_nil]
  exact ⟨rfl, rfl⟩

theorem readFraction_eq (cs : List Char) :
    Spelling.pointChars (readFraction cs).1 ++ (readFraction cs).2 = cs ∧
      ∀ c ∈ (readFraction cs).1.getD [], c.isDigit = true := by
  unfold readFraction
  split
  · rename_i rest
    refine ⟨?_, fun c h_c => List.mem_takeWhile_imp h_c⟩
    show '.' :: (rest.takeWhile Char.isDigit ++ rest.dropWhile Char.isDigit) = _
    rw [List.takeWhile_append_dropWhile]
  · exact ⟨rfl, fun c h_c => absurd h_c List.not_mem_nil⟩

theorem readFraction_append {fraction : Option (List Char)} {rest : List Char}
    (h : ∀ c ∈ fraction.getD [], c.isDigit = true)
    (h_rest : ∀ c ∈ rest.head?, c ≠ '.' ∧ c.isDigit = false) :
    readFraction (Spelling.pointChars fraction ++ rest) = (fraction, rest) := by
  cases fraction with
  | none =>
    show readFraction rest = _
    unfold readFraction
    split
    · exact absurd rfl (h_rest '.' rfl).1
    · rfl
  | some digits =>
    obtain ⟨h_take, h_drop⟩ := takeWhile_digits h fun c h_c => (h_rest c h_c).2
    rw [Option.getD_some] at h_take h_drop
    show (some ((digits ++ rest).takeWhile Char.isDigit), (digits ++ rest).dropWhile Char.isDigit) = _
    rw [h_take, h_drop]

theorem readExponent_eq_some {cs : List Char} {part : Option ExponentPart}
    (h : readExponent cs = some part) :
    Spelling.exponentChars part = cs ∧ ∀ found ∈ part, found.WellFormed := by
  unfold readExponent at h
  split at h
  · cases h
    exact ⟨rfl, fun found h_found => absurd h_found (by simp)⟩
  · rename_i marker rest
    dsimp only at h
    split_ifs at h with h_part
    cases h
    refine ⟨?_, fun found h_found => ?_⟩
    · show marker :: (signChars (readSign rest).1 ++ (readSign rest).2) = _
      rw [readSign_eq]
    · cases h_found
      exact { marker := h_part.1, digits := List.all_eq_true.mp h_part.2.2, ne_nil := h_part.2.1 }

theorem isDigit_ne_sign {c : Char} (h : c.isDigit = true) : c ≠ '+' ∧ c ≠ '-' ∧ c ≠ '.' := by
  refine ⟨?_, ?_, ?_⟩ <;>
  · rintro rfl
    exact absurd h (by decide)

theorem readExponent_chars {part : Option ExponentPart} (h : ∀ found ∈ part, found.WellFormed) :
    readExponent (Spelling.exponentChars part) = some part := by
  cases part with
  | none => rfl
  | some found =>
    obtain ⟨h_marker, h_digits, h_ne⟩ := h found rfl
    have h_sign : readSign (signChars found.sign ++ found.digits) = (found.sign, found.digits) := by
      refine readSign_append fun c h_c => ?_
      have h_digit := isDigit_ne_sign (h_digits c (List.mem_of_mem_head? h_c))
      exact ⟨h_digit.1, h_digit.2.1⟩
    show readExponent (found.marker :: (signChars found.sign ++ found.digits)) = _
    unfold readExponent
    dsimp only
    rw [h_sign, if_pos ⟨h_marker, h_ne, List.all_eq_true.mpr h_digits⟩]

theorem Spelling.WellFormed.first {s : Spelling} (h : s.WellFormed) :
    ∃ c rest, s.whole ++ (pointChars s.fraction ++ exponentChars s.exponent) = c :: rest ∧
      (c.isDigit = true ∨ c = '.') := by
  obtain ⟨sign, whole, fraction, part⟩ := s
  cases whole with
  | cons digit rest => exact ⟨digit, _, rfl, .inl (h.whole digit List.mem_cons_self)⟩
  | nil =>
    cases fraction with
    | none => exact absurd rfl h.ne_nil
    | some digits => exact ⟨'.', _, rfl, .inr rfl⟩

theorem readSign_chars {s : Spelling} (h : s.WellFormed) :
    readSign s.chars
      = (s.sign, s.whole ++ (Spelling.pointChars s.fraction ++ Spelling.exponentChars s.exponent)) := by
  obtain ⟨first, rest, h_first, h_kind⟩ := h.first
  refine readSign_append fun c h_c => ?_
  rw [h_first] at h_c
  obtain rfl : first = c := Option.some.inj h_c
  rcases h_kind with h_digit | rfl
  · have h_ne := isDigit_ne_sign h_digit
    exact ⟨h_ne.1, h_ne.2.1⟩
  · decide

/-- `parse` accepts the notations, and reads them as they are written. -/
theorem parse_eq_some_iff {cs : List Char} {s : Spelling} :
    parse cs = some s ↔ s.WellFormed ∧ s.chars = cs := by
  constructor
  · intro h
    unfold parse at h
    dsimp only at h
    split_ifs at h with h_nil
    obtain ⟨part, h_part, rfl⟩ := Option.map_eq_some_iff.mp h
    obtain ⟨h_exponent, h_formed⟩ := readExponent_eq_some h_part
    obtain ⟨h_fraction, h_digits⟩ := readFraction_eq ((readSign cs).2.dropWhile Char.isDigit)
    refine ⟨{ whole := fun c h_c => List.mem_takeWhile_imp h_c, fraction := h_digits
              ne_nil := h_nil, exponent := h_formed }, ?_⟩
    unfold Spelling.chars
    dsimp only
    rw [h_exponent, h_fraction, List.takeWhile_append_dropWhile, readSign_eq]
  · rintro ⟨h_formed, rfl⟩
    have h_sign := readSign_chars h_formed
    obtain ⟨sign, whole, fraction, part⟩ := s
    obtain ⟨h_whole, h_fraction, h_ne, h_exponent⟩ := h_formed
    dsimp only at h_whole h_fraction h_ne h_exponent h_sign
    -- after the fraction stands the marker of the exponent, or nothing
    have h_end : ∀ c ∈ (Spelling.exponentChars part).head?, c ≠ '.' ∧ c.isDigit = false := by
      intro c h_c
      cases part with
      | none => cases h_c
      | some found =>
        obtain rfl : found.marker = c := Option.some.inj h_c
        rcases (h_exponent found rfl).marker with h_marker | h_marker
        · rw [h_marker]
          decide
        · rw [h_marker]
          decide
    have h_point : ∀ c ∈ (Spelling.pointChars fraction ++ Spelling.exponentChars part).head?,
        c.isDigit = false := by
      intro c h_c
      cases fraction with
      | none => exact (h_end c h_c).2
      | some digits =>
        obtain rfl : '.' = c := Option.some.inj h_c
        decide
    obtain ⟨h_take, h_drop⟩ := takeWhile_digits h_whole h_point
    unfold parse
    dsimp only
    rw [h_sign]
    dsimp only
    rw [h_take, h_drop, readFraction_append h_fraction h_end]
    dsimp only
    rw [if_neg h_ne, readExponent_chars h_exponent]
    rfl

/-! ## The text of a number -/

namespace Number

/-- The digits before the point, were it where it belongs. -/
def leftdigits (d : Number) : ℤ := d.exponent + d.length

/-- Where the point is written: not where more than five zeros would follow it, nor behind
    zeros that are no digits. -/
def dotplace (d : Number) : ℤ :=
  if d.exponent ≤ 0 ∧ -6 < d.leftdigits then d.leftdigits else 1

def spelling (d : Number) : Spelling :=
  let digits := (toString d.coefficient).toList
  { sign := if d.negative then some true else none
    whole :=
      if d.dotplace ≤ 0 then ['0']
      else if d.length ≤ d.dotplace then digits ++ List.replicate (d.dotplace - d.length).toNat '0'
      else digits.take d.dotplace.toNat
    fraction :=
      if d.dotplace ≤ 0 then some (List.replicate (-d.dotplace).toNat '0' ++ digits)
      else if d.length ≤ d.dotplace then none
      else some (digits.drop d.dotplace.toNat)
    exponent :=
      if d.leftdigits = d.dotplace then none
      else some {
        marker := 'E'
        sign := some (d.leftdigits - d.dotplace < 0)
        digits := (toString (d.leftdigits - d.dotplace).natAbs).toList } }

/-- `str`. -/
def str (d : Number) : String := String.ofList d.spelling.chars

theorem dotplace_cases (d : Number) :
    (d.dotplace = d.leftdigits ∧ d.exponent ≤ 0) ∨ d.dotplace = 1 := by
  unfold dotplace
  split_ifs with h_plain
  · exact .inl ⟨rfl, h_plain.1⟩
  · exact .inr rfl

theorem no_padding (d : Number) : (d.dotplace - d.length).toNat = 0 := by
  have h_pos := d.length_pos
  have h_cases := d.dotplace_cases
  unfold leftdigits at h_cases
  omega

end Number

theorem ofDigitChars_toString (n : ℕ) : Nat.ofDigitChars 10 (toString n).toList 0 = n := by
  rw [Nat.toString_eq_repr, Nat.toList_repr, Nat.ofDigitChars_ten_toDigits]

theorem toString_ne_nil (n : ℕ) : (toString n).toList ≠ [] := by
  rw [Nat.toString_eq_repr, ne_eq, String.toList_eq_nil_iff]
  exact Nat.repr_ne_empty

/-- The exponent that `str` writes. -/
theorem value_exponentPart (k : ℤ) :
    ExponentPart.value
      { marker := 'E', sign := some (decide (k < 0)), digits := (toString k.natAbs).toList } = k := by
  unfold ExponentPart.value
  dsimp only
  rw [ofDigitChars_toString]
  by_cases h : k < 0
  · simp only [h, decide_true, if_true]
    omega
  · simp only [h, decide_false, Option.some.injEq, Bool.false_eq_true, if_false]
    omega

theorem isDigit_of_mem_zeros {k : ℕ} : ∀ c ∈ List.replicate k '0', c.isDigit = true := by
  intro c h_c
  rw [(List.mem_replicate.mp h_c).2]
  rfl

theorem wellFormed_spelling (d : Number) : d.spelling.WellFormed := by
  have h_digit : ∀ c ∈ (toString d.coefficient).toList, c.isDigit = true := fun c =>
    isDigit_of_mem_toString
  unfold Number.spelling
  refine { whole := ?_, fraction := ?_, ne_nil := ?_, exponent := ?_ }
  · dsimp only
    split_ifs
    · exact List.forall_mem_singleton.mpr rfl
    · exact List.forall_mem_append.mpr ⟨h_digit, isDigit_of_mem_zeros⟩
    · exact fun c h_c => h_digit c (List.mem_of_mem_take h_c)
  · dsimp only
    split_ifs
    · exact List.forall_mem_append.mpr ⟨isDigit_of_mem_zeros, h_digit⟩
    · exact fun c h_c => absurd h_c List.not_mem_nil
    · exact fun c h_c => h_digit c (List.mem_of_mem_drop h_c)
  · dsimp only
    split_ifs
    · exact List.cons_ne_nil _ _
    · rw [Option.getD_none, List.append_nil]
      exact List.append_ne_nil_of_left_ne_nil (toString_ne_nil _) _
    · rw [Option.getD_some, List.take_append_drop]
      exact toString_ne_nil _
  · intro part h_part
    dsimp only at h_part
    split_ifs at h_part with h_plain
    · cases h_part
    · cases h_part
      exact { marker := .inr rfl, digits := fun c => isDigit_of_mem_toString
              ne_nil := toString_ne_nil _ }

/-- The text of a number is read back to it. -/
theorem number_spelling (d : Number) : d.spelling.number = d := by
  have h_padding := d.no_padding
  have h_digits : Nat.ofDigitChars 10
      (d.spelling.whole ++ d.spelling.fraction.getD []) 0 = d.coefficient := by
    unfold Number.spelling
    dsimp only
    split_ifs with h_zero h_whole
    · rw [Option.getD_some, ← List.append_assoc, Nat.ofDigitChars_append, List.singleton_append,
        ← List.replicate_succ, Nat.ofDigitChars_replicate_zero, mul_zero, ofDigitChars_toString]
    · rw [h_padding, List.replicate_zero, List.append_nil, Option.getD_none, List.append_nil,
        ofDigitChars_toString]
    · rw [Option.getD_some, List.take_append_drop, ofDigitChars_toString]
  have h_fraction : ((d.spelling.fraction.getD []).length : ℤ) = d.length - d.dotplace := by
    have h_pos := d.length_pos
    unfold Number.length at h_pos h_padding
    unfold Number.spelling Number.length
    dsimp only
    split_ifs with h_zero h_whole
    · rw [Option.getD_some, List.length_append, List.length_replicate]
      omega
    · rw [Option.getD_none, List.length_nil]
      omega
    · rw [Option.getD_some, List.length_drop]
      omega
  have h_exponent : (d.spelling.exponent.map ExponentPart.value).getD 0
      = d.leftdigits - d.dotplace := by
    unfold Number.spelling
    dsimp only
    split_ifs with h_plain
    · rw [Option.map_none, Option.getD_none, h_plain, sub_self]
    · rw [Option.map_some, Option.getD_some, value_exponentPart]
  unfold Spelling.number
  rw [h_digits, h_fraction, h_exponent]
  obtain ⟨negative, coefficient, exponent⟩ := d
  rw [Number.mk.injEq]
  refine ⟨by cases negative <;> rfl, rfl, ?_⟩
  unfold Number.leftdigits
  dsimp only
  omega

theorem parse_str (d : Number) : parse d.str.toList = some d.spelling := by
  rw [Number.str, String.toList_ofList, parse_eq_some_iff]
  exact ⟨wellFormed_spelling d, rfl⟩

end Decimal
