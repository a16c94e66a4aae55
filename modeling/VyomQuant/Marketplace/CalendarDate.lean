/-
  VyomQuant.Marketplace.CalendarDate

  `datetime.date`: a day of the Gregorian calendar, its ordinal, and its ISO-8601 text.

  `fromisoformat` reads what Python 3.11 reads: a text of 7, 8 or 10 bytes that starts with a
  calendar date or with a week date, with or without separators.  It reads back what
  `isoformat` writes (`fromisoformat_isoformat`), so no two dates share a text.
-/

import Mathlib.Algebra.GroupWithZero.Nat
import VyomQuant.Marketplace.Period

namespace VyomQuant.Marketplace

@[ext] structure Date where
  year : ℕ
  month : ℕ
  day : ℕ
  year_bounds : 1 ≤ year ∧ year ≤ MAXYEAR
  month_bounds : 1 ≤ month ∧ month ≤ 12
  day_bounds : 1 ≤ day ∧ day ≤ lastDay year month

instance : DecidableEq Date := fun _ _ => decidable_of_iff _ Date.ext_iff.symm

namespace Date

/-- `date(year, month, day)`. -/
def make (year month day : ℕ) : Option Date :=
  if h : (1 ≤ year ∧ year ≤ MAXYEAR) ∧ (1 ≤ month ∧ month ≤ 12) ∧ (1 ≤ day ∧ day ≤ lastDay year month)
  then some ⟨year, month, day, h.1, h.2.1, h.2.2⟩
  else none

theorem make_parts (d : Date) : make d.year d.month d.day = some d := by
  unfold make
  rw [dif_pos ⟨d.year_bounds, d.month_bounds, d.day_bounds⟩]

/-! ## Ordinals -/

def daysBeforeYear (year : ℕ) : ℤ :=
  let y : ℤ := year - 1
  y * 365 + y / 4 - y / 100 + y / 400

def daysBeforeMonth (year month : ℕ) : ℕ :=
  ((List.range (month - 1)).map fun m => lastDay year (m + 1)).sum

/-- `d.toordinal()`. -/
def toordinal (d : Date) : ℤ :=
  daysBeforeYear d.year + daysBeforeMonth d.year d.month + d.day

/-- The month and the day that stand `n` days after the first of the first of the months. -/
def monthAndDay (year : ℕ) : List ℕ → ℕ → Option (ℕ × ℕ)
  | [], _ => none
  | month :: rest, n =>
    if n < lastDay year month then some (month, n + 1) else monthAndDay year rest (n - lastDay year month)

def ofOrdinalIn (ordinal : ℤ) (year : ℕ) : Option Date :=
  let n := ordinal - (daysBeforeYear year + 1)
  if n < 0 then none
  else do
    let (month, day) ← monthAndDay year [1, 2, 3, 4, 5, 6, 7, 8, 9, 10, 11, 12] n.toNat
    make year month day

/-! ## Week dates -/

/-- The weekday of the first of January, counted from Monday. -/
def firstWeekday (year : ℕ) : ℤ := (daysBeforeYear year + 1 + 6) % 7

/-- The ordinal of the Monday of the first week, which is the one with the first Thursday. -/
def isoWeek1Monday (year : ℕ) : ℤ :=
  let monday := daysBeforeYear year + 1 - firstWeekday year
  if 3 < firstWeekday year then monday + 7 else monday

/-- A year of 53 weeks starts on a Thursday, or is a leap year that starts on a Wednesday. -/
def isLongYear (year : ℕ) : Bool :=
  firstWeekday year = 3 || (firstWeekday year = 2 && isLeapYear year)

/-- `iso_to_ymd`.  A week may reach into the year before and the year after. -/
def ofIsoWeek (year week day : ℕ) : Option Date :=
  if week = 0 ∨ 53 < week ∨ (week = 53 ∧ isLongYear year = false) then none
  else if day = 0 ∨ 7 < day then none
  else
    let ordinal := isoWeek1Monday year + (week - 1) * 7 + day - 1
    [year - 1, year, year + 1].findSome? (ofOrdinalIn ordinal)

/-! ## Texts -/

def digitVal (c : Char) : ℕ := c.toNat - 48

/-- `parse_digits`: the number that so many digits write, and what follows them. -/
def parseDigits (count : ℕ) (cs : List Char) : Option (ℕ × List Char) :=
  if count ≤ cs.length ∧ (cs.take count).all Char.isDigit then
    some ((cs.take count).foldl (fun n c => 10 * n + digitVal c) 0, cs.drop count)
  else none

def parseSeparator (used : Bool) : List Char → Option (List Char)
  | '-' :: rest => if used then some rest else some ('-' :: rest)
  | cs => if used then none else some cs

/-- `parse_isoformat_date`.  What stands after the day is not looked at. -/
def parseIsoformatDate (cs : List Char) : Option Date := do
  let (year, rest) ← parseDigits 4 cs
  let usesSeparator := rest.head? = some '-'
  let rest ← parseSeparator usesSeparator rest
  if rest.head? = some 'W' then do
    let (week, rest) ← parseDigits 2 rest.tail
    if rest = [] then ofIsoWeek year week 1
    else do
      let rest ← parseSeparator usesSeparator rest
      let (day, _) ← parseDigits 1 rest
      ofIsoWeek year week day
  else do
    let (month, rest) ← parseDigits 2 rest
    let rest ← parseSeparator usesSeparator rest
    let (day, _) ← parseDigits 2 rest
    make year month day

/-- `date.fromisoformat(text)`: `none` is ValueError. -/
def fromisoformat (text : String) : Option Date :=
  if text.utf8ByteSize = 7 ∨ text.utf8ByteSize = 8 ∨ text.utf8ByteSize = 10 then
    parseIsoformatDate text.toList
  else none

def digit (n : ℕ) : Char := Char.ofNat (48 + n % 10)

/-- `d.isoformat()`. -/
def isoformat (d : Date) : String :=
  String.ofList [digit (d.year / 1000), digit (d.year / 100), digit (d.year / 10), digit d.year, '-',
    digit (d.month / 10), digit d.month, '-', digit (d.day / 10), digit d.day]

theorem isDigit_digit (n : ℕ) : (digit n).isDigit = true := by
  have h_small : ∀ m < 10, (Char.ofNat (48 + m)).isDigit = true := by decide
  exact h_small _ (Nat.mod_lt _ (by decide))

theorem digitVal_digit (n : ℕ) : digitVal (digit n) = n % 10 := by
  have h_small : ∀ m < 10, digitVal (Char.ofNat (48 + m)) = m := by decide
  exact h_small _ (Nat.mod_lt _ (by decide))

theorem digit_ne_mark (n : ℕ) : digit n ≠ '-' ∧ digit n ≠ 'W' := by
  have h_small : ∀ m < 10, Char.ofNat (48 + m) ≠ '-' ∧ Char.ofNat (48 + m) ≠ 'W' := by decide
  exact h_small _ (Nat.mod_lt _ (by decide))

theorem parseDigits_four {a b c d : ℕ} (rest : List Char) :
    parseDigits 4 (digit a :: digit b :: digit c :: digit d :: rest)
      = some (10 * (10 * (10 * (a % 10) + b % 10) + c % 10) + d % 10, rest) := by
  simp [parseDigits, isDigit_digit, digitVal_digit]

theorem parseDigits_two {a b : ℕ} (rest : List Char) :
    parseDigits 2 (digit a :: digit b :: rest) = some (10 * (a % 10) + b % 10, rest) := by
  simp [parseDigits, isDigit_digit, digitVal_digit]

theorem utf8Size_digit (n : ℕ) : (digit n).utf8Size = 1 := by
  have h_small : ∀ m < 10, (Char.ofNat (48 + m)).utf8Size = 1 := by decide
  exact h_small _ (Nat.mod_lt _ (by decide))

theorem utf8ByteSize_isoformat (d : Date) : d.isoformat.utf8ByteSize = 10 := by
  have h_mark : "-".utf8ByteSize = 1 := by decide
  simp [isoformat, utf8Size_digit, h_mark]

theorem fromisoformat_isoformat (d : Date) : fromisoformat d.isoformat = some d := by
  have h_year : 10 * (10 * (10 * (d.year / 1000 % 10) + d.year / 100 % 10) + d.year / 10 % 10)
      + d.year % 10 = d.year := by
    have h_bound := d.year_bounds.2
    unfold MAXYEAR at h_bound
    omega
  have h_month : 10 * (d.month / 10 % 10) + d.month % 10 = d.month := by
    have h_bound := d.month_bounds.2
    omega
  have h_day : 10 * (d.day / 10 % 10) + d.day % 10 = d.day := by
    have h_bound := d.day_bounds.2.trans (lastDay_le d.year d.month)
    omega
  have h_mark := (digit_ne_mark (d.month / 10)).2
  rw [fromisoformat, if_pos (Or.inr (Or.inr (utf8ByteSize_isoformat d))), isoformat,
    String.toList_ofList, parseIsoformatDate, parseDigits_four, h_year]
  simp only [Option.bind_eq_bind, Option.bind_some, List.head?_cons, decide_true, parseSeparator,
    if_true, Option.some.injEq, h_mark, if_false, parseDigits_two, h_month, h_day]
  exact make_parts d

theorem isoformat_injective : Function.Injective isoformat := by
  intro d d' h
  have h_read := fromisoformat_isoformat d
  rw [h, fromisoformat_isoformat] at h_read
  exact (Option.some.inj h_read).symm

end Date

end VyomQuant.Marketplace
