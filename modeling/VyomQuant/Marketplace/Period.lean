/-
  VyomQuant.Marketplace.Period

  The calendar arithmetic of `subscription_period.py`: UTC instants on the Gregorian
  calendar of years 1 to 9999, and the instant one calendar month later, with the day
  clamped to the target month.

  Instants are ordered by `rank`, which counts every month as 31 days.  That keeps
  the order of the calendar and makes `lt_addOneCalendarMonth` a fact of arithmetic.
-/

import Mathlib.Order.MinMax
import VyomQuant.Lib.Fallible

namespace VyomQuant.Marketplace

open Except

/-! ## The calendar -/

def isLeapYear (year : ℕ) : Bool :=
  decide (year % 4 = 0) && (decide (year % 100 ≠ 0) || decide (year % 400 = 0))

/-- `calendar.monthrange(year, month)[1]`. -/
def lastDay (year month : ℕ) : ℕ :=
  if month = 2 then (if isLeapYear year then 29 else 28)
  else if month = 4 ∨ month = 6 ∨ month = 9 ∨ month = 11 then 30
  else 31

theorem lastDay_pos (year month : ℕ) : 1 ≤ lastDay year month := by
  unfold lastDay
  split_ifs <;> omega

theorem lastDay_le (year month : ℕ) : lastDay year month ≤ 31 := by
  unfold lastDay
  split_ifs <;> omega

def MICROSECONDS_PER_DAY : ℕ := 86400000000

def MAXYEAR : ℕ := 9999

/-- A timezone-aware UTC `datetime`; `clock` is the time of day in microseconds. -/
structure Instant where
  year : ℕ
  month : ℕ
  day : ℕ
  clock : ℕ
  year_bounds : 1 ≤ year ∧ year ≤ MAXYEAR
  month_bounds : 1 ≤ month ∧ month ≤ 12
  day_bounds : 1 ≤ day ∧ day ≤ lastDay year month
  clock_lt : clock < MICROSECONDS_PER_DAY
deriving DecidableEq

variable {t t' a b a' b' : Instant}

namespace Instant

/-- A number that grows with the instant. -/
def rank (t : Instant) : ℕ :=
  ((t.year * 12 + (t.month - 1)) * 31 + (t.day - 1)) * MICROSECONDS_PER_DAY + t.clock

theorem day_le (t : Instant) : t.day ≤ 31 := le_trans t.day_bounds.2 (lastDay_le _ _)

theorem rank_injective : Function.Injective rank := by
  intro s t h
  have h_s := s.clock_lt
  have h_t := t.clock_lt
  have h_sd := s.day_le
  have h_td := t.day_le
  have h_sd' := s.day_bounds.1
  have h_td' := t.day_bounds.1
  have h_sm := s.month_bounds
  have h_tm := t.month_bounds
  unfold rank MICROSECONDS_PER_DAY at *
  have h_eq : s.year = t.year ∧ s.month = t.month ∧ s.day = t.day ∧ s.clock = t.clock := by
    omega
  obtain ⟨h_year, h_month, h_day, h_clock⟩ := h_eq
  cases s
  cases t
  simp only at h_year h_month h_day h_clock
  subst h_year h_month h_day h_clock
  rfl

instance : LinearOrder Instant := LinearOrder.lift' rank rank_injective

theorem lt_iff_rank {s : Instant} : s < t ↔ s.rank < t.rank := lt_iff_lt_of_le_iff_le Iff.rfl

end Instant

/-! ## One calendar month later -/

inductive PeriodError where
  | valueError
deriving DecidableEq

def nextMonth (t : Instant) : ℕ × ℕ :=
  if t.month < 12 then (t.year, t.month + 1) else (t.year + 1, 1)

theorem nextMonth_month (t : Instant) : 1 ≤ (nextMonth t).2 ∧ (nextMonth t).2 ≤ 12 := by
  unfold nextMonth
  split <;> simp only <;> omega

theorem nextMonth_year (t : Instant) : 1 ≤ (nextMonth t).1 := by
  have h_year := t.year_bounds
  unfold nextMonth
  split <;> simp only <;> omega

theorem nextMonth_index (t : Instant) :
    (nextMonth t).1 * 12 + ((nextMonth t).2 - 1) = t.year * 12 + (t.month - 1) + 1 := by
  have h_month := t.month_bounds
  unfold nextMonth
  split <;> simp only <;> omega

/-- The instant one calendar month after `t`.  `datetime.replace` refuses the year
    after `MAXYEAR`. -/
def addOneCalendarMonth (t : Instant) : Except PeriodError Instant :=
  if h : (nextMonth t).1 ≤ MAXYEAR then
    .ok {
      year := (nextMonth t).1
      month := (nextMonth t).2
      day := min t.day (lastDay (nextMonth t).1 (nextMonth t).2)
      clock := t.clock
      year_bounds := ⟨nextMonth_year t, h⟩
      month_bounds := nextMonth_month t
      day_bounds := ⟨le_min t.day_bounds.1 (lastDay_pos _ _), min_le_right _ _⟩
      clock_lt := t.clock_lt }
  else .error .valueError

theorem lt_addOneCalendarMonth (h : addOneCalendarMonth t = .ok t') : t < t' := by
  unfold addOneCalendarMonth at h
  split at h
  · cases h
    have h_index := nextMonth_index t
    have h_day := t.day_le
    have h_day' := t.day_bounds.1
    have h_clock := t.clock_lt
    rw [Instant.lt_iff_rank]
    unfold Instant.rank MICROSECONDS_PER_DAY at *
    simp only
    omega
  · cases h

/-! ## Two months later, compared

The clock of `t` is kept and its day is clamped, so two instants in the last days of a
month can meet on the last day of the next one, where their clocks decide. -/

/-- `datetime` has the month after `t`: every instant before December 9999. -/
def HasNextMonth (t : Instant) : Prop := (nextMonth t).1 ≤ MAXYEAR

instance (t : Instant) : Decidable (HasNextMonth t) :=
  inferInstanceAs (Decidable ((nextMonth t).1 ≤ MAXYEAR))

/-- Two instants of one month whose days the next month is too short to tell apart. -/
structure ClampedTogether (a b : Instant) : Prop where
  year : a.year = b.year
  month : a.month = b.month
  day_left : lastDay (nextMonth a).1 (nextMonth a).2 ≤ a.day
  day_right : lastDay (nextMonth a).1 (nextMonth a).2 ≤ b.day

theorem addOneCalendarMonth_isOk : (∃ t', addOneCalendarMonth t = .ok t') ↔ HasNextMonth t := by
  unfold addOneCalendarMonth HasNextMonth
  split <;> simp_all

theorem rank_addOneCalendarMonth (h : addOneCalendarMonth t = .ok t') :
    t'.rank = ((t.year * 12 + (t.month - 1) + 1) * 31 +
      (min t.day (lastDay (nextMonth t).1 (nextMonth t).2) - 1)) * MICROSECONDS_PER_DAY +
      t.clock := by
  unfold addOneCalendarMonth at h
  split at h
  · cases h
    show (((nextMonth t).1 * 12 + ((nextMonth t).2 - 1)) * 31 + _) * _ + _ = _
    rw [nextMonth_index t]
  · cases h

theorem Instant.month_index_le (h : a ≤ b) :
    a.year * 12 + (a.month - 1) ≤ b.year * 12 + (b.month - 1) := by
  have h_rank : a.rank ≤ b.rank := h
  have h_a := a.clock_lt
  have h_b := b.clock_lt
  have h_ad := a.day_le
  have h_bd := b.day_le
  unfold rank MICROSECONDS_PER_DAY at *
  omega

theorem Instant.day_or_clock_lt (h : a < b) (h_y : a.year = b.year) (h_m : a.month = b.month) :
    a.day < b.day ∨ a.day = b.day ∧ a.clock < b.clock := by
  have h_rank := Instant.lt_iff_rank.mp h
  have h_clock := b.clock_lt
  have h_first := a.day_bounds.1
  have h_first' := b.day_bounds.1
  unfold rank MICROSECONDS_PER_DAY at *
  rw [h_y, h_m] at h_rank
  omega

theorem Instant.rank_step {m n c c' : ℕ} (h_clock : c < MICROSECONDS_PER_DAY)
    (h : m < n ∨ m = n ∧ c < c') :
    m * MICROSECONDS_PER_DAY + c < n * MICROSECONDS_PER_DAY + c' := by
  unfold MICROSECONDS_PER_DAY at *
  omega

theorem HasNextMonth.of_le (h : a ≤ b) (h_b : HasNextMonth b) : HasNextMonth a := by
  have h_index := Instant.month_index_le h
  have h_a := a.month_bounds
  have h_b' := b.month_bounds
  unfold HasNextMonth nextMonth at *
  split_ifs at * <;> omega

theorem ClampedTogether.rank_eq (h : ClampedTogether a b) (h_a : addOneCalendarMonth a = .ok a')
    (h_b : addOneCalendarMonth b = .ok b') : a'.rank + b.clock = b'.rank + a.clock := by
  have h_next : nextMonth b = nextMonth a := by unfold nextMonth; rw [h.year, h.month]
  rw [rank_addOneCalendarMonth h_a, rank_addOneCalendarMonth h_b, h_next, h.year, h.month,
    min_eq_right h.day_left, min_eq_right h.day_right]
  exact Nat.add_right_comm _ _ _

theorem addOneCalendarMonth_lt (h : a < b) (h_apart : ¬ ClampedTogether a b)
    (h_a : addOneCalendarMonth a = .ok a') (h_b : addOneCalendarMonth b = .ok b') : a' < b' := by
  have h_index := Instant.month_index_le h.le
  have h_am := a.month_bounds
  have h_bm := b.month_bounds
  have h_first := a.day_bounds.1
  have h_last := lastDay_pos (nextMonth a).1 (nextMonth a).2
  rw [Instant.lt_iff_rank, rank_addOneCalendarMonth h_a, rank_addOneCalendarMonth h_b]
  by_cases h_month : a.year = b.year ∧ a.month = b.month
  · obtain ⟨h_y, h_m⟩ := h_month
    have h_day := Instant.day_or_clock_lt h h_y h_m
    have h_next : nextMonth b = nextMonth a := by unfold nextMonth; rw [h_y, h_m]
    have h_room : ¬ (lastDay (nextMonth a).1 (nextMonth a).2 ≤ a.day ∧
        lastDay (nextMonth a).1 (nextMonth a).2 ≤ b.day) :=
      fun h => h_apart ⟨h_y, h_m, h.1, h.2⟩
    rw [h_next, h_y, h_m]
    apply Instant.rank_step a.clock_lt
    omega
  · have h_before : a.year * 12 + (a.month - 1) < b.year * 12 + (b.month - 1) := by omega
    have h_clamped : min a.day (lastDay (nextMonth a).1 (nextMonth a).2) ≤ 31 :=
      le_trans (min_le_left _ _) a.day_le
    apply Instant.rank_step a.clock_lt
    omega

theorem addOneCalendarMonth_lt_iff (h : a < b) (h_a : addOneCalendarMonth a = .ok a')
    (h_b : addOneCalendarMonth b = .ok b') :
    a' < b' ↔ ¬ (ClampedTogether a b ∧ b.clock ≤ a.clock) := by
  by_cases h_clamped : ClampedTogether a b
  · have h_rank := h_clamped.rank_eq h_a h_b
    rw [Instant.lt_iff_rank]
    simp only [h_clamped, true_and]
    omega
  · have h_lt := addOneCalendarMonth_lt h h_clamped h_a h_b
    simp only [h_lt, h_clamped, false_and, not_false_eq_true]

theorem addOneCalendarMonth_le_iff (h : a ≤ b) (h_a : addOneCalendarMonth a = .ok a')
    (h_b : addOneCalendarMonth b = .ok b') :
    a' ≤ b' ↔ ¬ (ClampedTogether a b ∧ b.clock < a.clock) := by
  by_cases h_clamped : ClampedTogether a b
  · have h_rank := h_clamped.rank_eq h_a h_b
    rw [← not_lt, Instant.lt_iff_rank]
    simp only [h_clamped, true_and]
    omega
  · rcases eq_or_lt_of_le h with rfl | h_lt
    · have h_same : a' = b' := Except.ok.inj (h_a.symm.trans h_b)
      simp only [h_same, le_refl, lt_irrefl, and_false, not_false_eq_true]
    · have h_le := (addOneCalendarMonth_lt h_lt h_clamped h_a h_b).le
      simp only [h_le, h_clamped, false_and, not_false_eq_true]

/-- `period_for_activation`: the start is the confirmation itself. -/
def periodForActivation (confirmationInstant : Instant) :
    Except PeriodError (Instant × Instant) := do
  let expiry ← addOneCalendarMonth confirmationInstant
  return (confirmationInstant, expiry)

/-- `period_for_renewal`: a month after the later of the expiry and the confirmation. -/
def periodForRenewal (currentExpiry confirmationInstant : Instant) : Except PeriodError Instant :=
  addOneCalendarMonth (max currentExpiry confirmationInstant)

theorem periodForActivation_eq_ok {start expiry : Instant}
    (h : periodForActivation t = .ok (start, expiry)) : start = t ∧ t < expiry := by
  obtain ⟨e, h_e, h_pair⟩ := bind_eq_ok.mp h
  cases h_pair
  exact ⟨rfl, lt_addOneCalendarMonth h_e⟩

theorem periodForRenewal_eq_ok {e expiry : Instant} (h : periodForRenewal e t = .ok expiry) :
    e < expiry ∧ t < expiry :=
  max_lt_iff.mp (lt_addOneCalendarMonth h)

/-! ## Renewals in order -/

/-- The months added to two ordered instants are later, and in the same strict order. -/
structure MonthsForward (a b : Instant) : Prop where
  returns : ∃ a' b', addOneCalendarMonth a = .ok a' ∧ addOneCalendarMonth b = .ok b'
  later : ∀ t', addOneCalendarMonth a = .ok t' → a < t'
  strict : ∀ a' b', addOneCalendarMonth a = .ok a' → addOneCalendarMonth b = .ok b' → a' < b'

/-- Two renewals, the second of a later expiry or paid later, each extend the period they
    renew, and the second does not end before the first. -/
structure RenewalsForward (e t e' t' : Instant) : Prop where
  returns : ∃ x x', periodForRenewal e t = .ok x ∧ periodForRenewal e' t' = .ok x'
  later : ∀ x, periodForRenewal e t = .ok x → e < x
  later' : ∀ x', periodForRenewal e' t' = .ok x' → e' < x'
  monotone : ∀ x x', periodForRenewal e t = .ok x → periodForRenewal e' t' = .ok x' → x ≤ x'

theorem monthsForward_iff (h : a < b) :
    MonthsForward a b ↔ HasNextMonth b ∧ ¬ (ClampedTogether a b ∧ b.clock ≤ a.clock) := by
  constructor
  · intro h_forward
    obtain ⟨a', b', h_a, h_b⟩ := h_forward.returns
    exact ⟨addOneCalendarMonth_isOk.mp ⟨b', h_b⟩,
      (addOneCalendarMonth_lt_iff h h_a h_b).mp (h_forward.strict a' b' h_a h_b)⟩
  · rintro ⟨h_next, h_apart⟩
    obtain ⟨a', h_a⟩ := addOneCalendarMonth_isOk.mpr (h_next.of_le h.le)
    obtain ⟨b', h_b⟩ := addOneCalendarMonth_isOk.mpr h_next
    exact
      { returns := ⟨a', b', h_a, h_b⟩
        later := fun _ => lt_addOneCalendarMonth
        strict := fun _ _ h_x h_y => (addOneCalendarMonth_lt_iff h h_x h_y).mpr h_apart }

theorem renewalsForward_iff {e e' : Instant} (h_e : e ≤ e') (h_t : t ≤ t') :
    RenewalsForward e t e' t' ↔ HasNextMonth (max e' t') ∧
      ¬ (ClampedTogether (max e t) (max e' t') ∧ (max e' t').clock < (max e t).clock) := by
  have h_max : max e t ≤ max e' t' := max_le_max h_e h_t
  constructor
  · intro h_forward
    obtain ⟨x, x', h_x, h_x'⟩ := h_forward.returns
    exact ⟨addOneCalendarMonth_isOk.mp ⟨x', h_x'⟩,
      (addOneCalendarMonth_le_iff h_max h_x h_x').mp (h_forward.monotone x x' h_x h_x')⟩
  · rintro ⟨h_next, h_apart⟩
    exact
      { returns := by
          obtain ⟨x, h_x⟩ := addOneCalendarMonth_isOk.mpr (h_next.of_le h_max)
          obtain ⟨x', h_x'⟩ := addOneCalendarMonth_isOk.mpr h_next
          exact ⟨x, x', h_x, h_x'⟩
        later := fun _ h_x => (periodForRenewal_eq_ok h_x).1
        later' := fun _ h_x => (periodForRenewal_eq_ok h_x).1
        monotone := fun _ _ h_x h_x' => (addOneCalendarMonth_le_iff h_max h_x h_x').mpr h_apart }

/-- Renewals move forward exactly where `datetime` has the month after, and no two of the
    instants are clamped onto one day with their clocks the other way round. -/
theorem renewals_move_forward_iff {a b e t e' t' : Instant} (h : a < b) (h_e : e ≤ e')
    (h_t : t ≤ t') :
    (MonthsForward a b ↔ HasNextMonth b ∧ ¬ (ClampedTogether a b ∧ b.clock ≤ a.clock)) ∧
    (RenewalsForward e t e' t' ↔ HasNextMonth (max e' t') ∧
      ¬ (ClampedTogether (max e t) (max e' t') ∧ (max e' t').clock < (max e t).clock)) :=
  ⟨monthsForward_iff h, renewalsForward_iff h_e h_t⟩

def HOUR : ℕ := 3600000000

/-- 30 January 2026, 23:00. -/
def lateOnTheThirtieth : Instant :=
  ⟨2026, 1, 30, 23 * HOUR, by decide, by decide, by decide, by decide⟩

/-- 31 January 2026, 01:00. -/
def earlyOnTheLastDay : Instant :=
  ⟨2026, 1, 31, HOUR, by decide, by decide, by decide, by decide⟩

/-- 5 January 2026, midnight. -/
def currentExpiry : Instant := ⟨2026, 1, 5, 0, by decide, by decide, by decide, by decide⟩

theorem renewals_move_forward_sample :
    MonthsForward currentExpiry earlyOnTheLastDay ∧
      RenewalsForward currentExpiry currentExpiry currentExpiry lateOnTheThirtieth := by
  have h := renewals_move_forward_iff (a := currentExpiry) (b := earlyOnTheLastDay)
    (e := currentExpiry) (by decide) (le_refl currentExpiry)
    (show currentExpiry ≤ lateOnTheThirtieth by decide)
  refine ⟨h.1.mpr ⟨by decide, fun h_clamped => ?_⟩, h.2.mpr ⟨by decide, fun h_clamped => ?_⟩⟩
  · exact absurd h_clamped.1.day_left (by decide)
  · exact absurd h_clamped.1.day_left (by decide)

/-- Paid two hours later, past midnight, the same renewal ends twenty-two hours earlier. -/
theorem later_payment_shortens_renewal :
    ¬ ((∀ a b a' b' : Instant, a < b → addOneCalendarMonth a = .ok a' →
          addOneCalendarMonth b = .ok b' → a' < b') ∧
      (∀ e t t' x x' : Instant, t ≤ t' → periodForRenewal e t = .ok x →
          periodForRenewal e t' = .ok x' → x ≤ x')) := by
  rintro ⟨-, h_monotone⟩
  have h_clamped : ClampedTogether (max currentExpiry lateOnTheThirtieth)
      (max currentExpiry earlyOnTheLastDay) :=
    ⟨by decide, by decide, by decide, by decide⟩
  obtain ⟨x, h_x⟩ := (addOneCalendarMonth_isOk (t := max currentExpiry lateOnTheThirtieth)).mpr
    (by decide)
  obtain ⟨x', h_x'⟩ := (addOneCalendarMonth_isOk (t := max currentExpiry earlyOnTheLastDay)).mpr
    (by decide)
  have h_le := h_monotone currentExpiry lateOnTheThirtieth earlyOnTheLastDay x x'
    (by decide) h_x h_x'
  exact (addOneCalendarMonth_le_iff (by decide) h_x h_x').mp h_le ⟨h_clamped, by decide⟩

end VyomQuant.Marketplace
