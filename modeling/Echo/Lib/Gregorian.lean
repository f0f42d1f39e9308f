import Mathlib.Data.Int.ConditionallyCompleteOrder
import Mathlib.Order.Monotone.Basic
import Mathlib.Data.Int.Order.Basic
import Mathlib.Tactic.IntervalCases

/-!
The proleptic Gregorian calendar. `Date.ordinal` numbers the days, from 0 at the first
of January 1970; `Date.next` is the day after, by the rule of the months and of the leap
years alone, and its number is one more. A day's number is its own, and `civil` finds the
date of a number: it counts years from March, in eras of 400 years that are all of one
length.
-/

namespace Echo.Lib

def leap (y : Int) : Bool := y % 4 == 0 && (y % 100 != 0 || y % 400 == 0)

/-- The days of a month. -/
def daysIn (y : Int) (m : Nat) : Nat :=
  if m = 2 then if leap y then 29 else 28
  else if m = 4 ∨ m = 6 ∨ m = 9 ∨ m = 11 then 30
  else 31

@[ext] structure Date where
  year : Int
  month : Nat
  day : Nat
  month_pos : 1 ≤ month := by decide
  month_le : month ≤ 12 := by decide
  day_pos : 1 ≤ day := by decide
  day_le : day ≤ daysIn year month := by decide

/-- The days before the first of January, from that of the year 1. -/
def yearStart (y : Int) : Int := 365 * (y - 1) + (y - 1) / 4 - (y - 1) / 100 + (y - 1) / 400

/-- The days of a year before one of its months. -/
def monthStart (y : Int) : Nat → Nat
  | 0 | 1 => 0
  | m + 2 => monthStart y (m + 1) + daysIn y (m + 1)

namespace Date

/-- The days since the first of January 1970. -/
def ordinal (d : Date) : Int :=
  yearStart d.year + monthStart d.year d.month + (d.day - 1) - yearStart 1970

end Date

/-! ### Years and months -/

theorem daysIn_pos (y : Int) (m : Nat) : 1 ≤ daysIn y m := by
  unfold daysIn
  split <;> split <;> omega

theorem daysIn_december (y : Int) : daysIn y 12 = 31 := rfl

theorem leap_iff {y : Int} : leap y = true ↔ y % 4 = 0 ∧ (y % 100 ≠ 0 ∨ y % 400 = 0) := by
  simp [leap]

/-- A year has 365 days, or 366. -/
theorem yearStart_succ (y : Int) : yearStart (y + 1) = yearStart y + 365 + if leap y then 1 else 0 := by
  unfold yearStart
  by_cases longer : leap y
  · rw [if_pos longer]
    rw [leap_iff] at longer
    omega
  · rw [if_neg longer]
    rw [leap_iff] at longer
    omega

theorem monthStart_december (y : Int) : monthStart y 12 + 31 = 365 + if leap y then 1 else 0 := by
  cases longer : leap y <;> simp [monthStart, daysIn, longer]

theorem monthStart_succ {y : Int} {m : Nat} (pos : 1 ≤ m) :
    monthStart y (m + 1) = monthStart y m + daysIn y m := by
  obtain ⟨m, rfl⟩ := Nat.exists_eq_add_of_le' pos
  rfl

theorem monthStart_mono (y : Int) : Monotone (monthStart y) := by
  refine monotone_nat_of_le_succ fun m => ?_
  cases m with
  | zero => exact le_refl 0
  | succ m => exact Nat.le_add_right _ _

theorem yearStart_mono : Monotone yearStart := by
  refine monotone_int_of_le_succ fun y => ?_
  rw [yearStart_succ]
  split <;> omega

namespace Date

variable (d : Date)

/-! ### The day after -/

def next : Date :=
  if within : d.day < daysIn d.year d.month then
    { d with day := d.day + 1, day_pos := Nat.succ_pos _, day_le := within }
  else if early : d.month < 12 then
    { d with
      month := d.month + 1
      day := 1
      month_pos := Nat.succ_pos _
      month_le := early
      day_pos := le_refl 1
      day_le := daysIn_pos _ _ }
  else
    { year := d.year + 1
      month := 1
      day := 1
      day_le := daysIn_pos _ _ }

theorem ordinal_next : d.next.ordinal = d.ordinal + 1 := by
  have last := d.day_le
  unfold next ordinal
  split
  · push_cast
    omega
  · split
    · rename_i past early
      dsimp only
      rw [monthStart_succ d.month_pos]
      push_cast
      omega
    · rename_i past late
      have december : d.month = 12 := by
        have := d.month_le
        omega
      have whole := monthStart_december d.year
      rw [december, daysIn_december] at past last
      dsimp only
      rw [yearStart_succ, december]
      have none : monthStart (d.year + 1) 1 = 0 := rfl
      rw [none]
      cases longer : leap d.year
      · rw [longer, if_neg Bool.false_ne_true] at whole
        rw [if_neg Bool.false_ne_true]
        omega
      · rw [longer, if_pos rfl] at whole
        rw [if_pos rfl]
        omega

/-! ### A number for each day -/

/-- The days of a year before this one. -/
def dayOfYear : Nat := monthStart d.year d.month + (d.day - 1)

theorem ordinal_eq : d.ordinal = yearStart d.year + d.dayOfYear - yearStart 1970 := by
  have first := d.day_pos
  unfold ordinal dayOfYear
  omega

theorem dayOfYear_lt_monthStart : d.dayOfYear < monthStart d.year (d.month + 1) := by
  have first := d.day_pos
  have last := d.day_le
  rw [monthStart_succ d.month_pos]
  unfold dayOfYear
  omega

theorem dayOfYear_lt : (d.dayOfYear : Int) < 365 + if leap d.year then 1 else 0 := by
  have before := d.dayOfYear_lt_monthStart
  have within := monthStart_mono d.year (Nat.succ_le_succ d.month_le)
  have whole := monthStart_december d.year
  have december : monthStart d.year 13 = monthStart d.year 12 + 31 := rfl
  rw [december, whole] at within
  cases longer : leap d.year
  · rw [longer] at within
    exact_mod_cast before.trans_le within
  · rw [longer] at within
    exact_mod_cast before.trans_le within

theorem year_le_of_ordinal_le {d d' : Date} (le : d.ordinal ≤ d'.ordinal) : d.year ≤ d'.year := by
  by_contra earlier
  have start := yearStart_mono (show d'.year + 1 ≤ d.year by omega)
  have before := d'.dayOfYear_lt
  rw [yearStart_succ] at start
  rw [ordinal_eq, ordinal_eq] at le
  omega

theorem month_le_of_dayOfYear_le {d d' : Date} (same : d.year = d'.year)
    (le : d.dayOfYear ≤ d'.dayOfYear) : d.month ≤ d'.month := by
  by_contra earlier
  have start := monthStart_mono d.year (show d'.month + 1 ≤ d.month by omega)
  have before := d'.dayOfYear_lt_monthStart
  rw [← same] at before
  have after : monthStart d.year d.month ≤ d.dayOfYear := Nat.le_add_right _ _
  omega

/-- The first of January 1970. -/
def epoch : Date where
  year := 1970
  month := 1
  day := 1

theorem ordinal_epoch : epoch.ordinal = 0 := by decide

/-- The number of a day is its own. -/
theorem ordinal_injective : Function.Injective ordinal := by
  intro d d' same
  have year : d.year = d'.year :=
    le_antisymm (year_le_of_ordinal_le same.le) (year_le_of_ordinal_le same.ge)
  have inYear : d.dayOfYear = d'.dayOfYear := by
    rw [ordinal_eq, ordinal_eq, year] at same
    omega
  have month : d.month = d'.month :=
    le_antisymm (month_le_of_dayOfYear_le year inYear.le)
      (month_le_of_dayOfYear_le year.symm inYear.ge)
  have day : d.day = d'.day := by
    have first := d.day_pos
    have first' := d'.day_pos
    unfold dayOfYear at inYear
    rw [year, month] at inYear
    omega
  exact Date.ext year month day

end Date

/-! ### The date of a number

Years are counted from March, so that the day a leap year has more is its last. An era
is 400 of them. -/

section Civil

variable {doe doy : Int}

/-- The year within its era of a day of that era. -/
def yearOfEra (doe : Int) : Int := (doe - doe / 1460 + doe / 36524 - doe / 146096) / 365

/-- The day within its year, from the first of March. -/
def marchDay (doe : Int) : Int :=
  doe - (365 * yearOfEra doe + yearOfEra doe / 4 - yearOfEra doe / 100)

/-- The month of a day of the year; March is 0. -/
def marchMonth (doy : Int) : Int := (5 * doy + 2) / 153

def civilMonth (doy : Int) : Int :=
  if marchMonth doy < 10 then marchMonth doy + 3 else marchMonth doy - 9

def civilDay (doy : Int) : Int := doy - (153 * marchMonth doy + 2) / 5 + 1

/-- An era is centuries, of fours of years, of years; only the last year of a four is
longer, and only the last four of the last century has such a year at its end. -/
theorem exists_cycle (low : 0 ≤ doe) (high : doe < 146097) : ∃ c k j d : Int,
    doe = 36524 * c + 1461 * k + 365 * j + d ∧ (0 ≤ c ∧ c ≤ 3) ∧ (0 ≤ k ∧ k ≤ 24) ∧
      (0 ≤ j ∧ j ≤ 3) ∧ 0 ≤ d ∧ (d ≤ 364 ∨ d = 365 ∧ j = 3 ∧ (k < 24 ∨ c = 3)) := by
  obtain ⟨c, century⟩ : ∃ c, c = min (doe / 36524) 3 := ⟨_, rfl⟩
  obtain ⟨r, inCentury⟩ : ∃ r, r = doe - 36524 * c := ⟨_, rfl⟩
  obtain ⟨k, four⟩ : ∃ k, k = min (r / 1461) 24 := ⟨_, rfl⟩
  obtain ⟨q, inFour⟩ : ∃ q, q = r - 1461 * k := ⟨_, rfl⟩
  obtain ⟨j, year⟩ : ∃ j, j = min (q / 365) 3 := ⟨_, rfl⟩
  have boundC : 0 ≤ r ∧ (r < 36524 ∨ r = 36524 ∧ c = 3) := by omega
  have boundK : 0 ≤ q ∧ q ≤ 1460 ∧ (q = 1460 → k < 24 ∨ c = 3) := by omega
  refine ⟨c, k, j, q - 365 * j, ?_, ?_, ?_, ?_, ?_, ?_⟩ <;> omega

theorem yearOfEra_cycle {c k j d : Int} (parts : doe = 36524 * c + 1461 * k + 365 * j + d)
    (boundC : 0 ≤ c ∧ c ≤ 3) (boundK : 0 ≤ k ∧ k ≤ 24) (boundJ : 0 ≤ j ∧ j ≤ 3) (pos : 0 ≤ d)
    (last : d ≤ 364 ∨ d = 365 ∧ j = 3 ∧ (k < 24 ∨ c = 3)) :
    yearOfEra doe = 100 * c + 4 * k + j := by
  obtain ⟨e, extra⟩ : ∃ e, e = (24 * c + k + 365 * j + d) / 1460 := ⟨_, rfl⟩
  have fours : doe / 1460 = 25 * c + k + e := by omega
  have centuries : doe / 36524 - doe / 146096 = c := by
    have inside : 1461 * k + 365 * j + d < 36524 ∨ doe = 146096 ∧ c = 3 := by omega
    rcases inside with inside | ⟨rfl, rfl⟩
    · have whole : doe / 36524 = c := by omega
      have short : doe / 146096 = 0 := by omega
      omega
    · rfl
  unfold yearOfEra
  rw [fours]
  omega

theorem marchDay_cycle {c k j d : Int} (parts : doe = 36524 * c + 1461 * k + 365 * j + d)
    (boundC : 0 ≤ c ∧ c ≤ 3) (boundK : 0 ≤ k ∧ k ≤ 24) (boundJ : 0 ≤ j ∧ j ≤ 3) (pos : 0 ≤ d)
    (last : d ≤ 364 ∨ d = 365 ∧ j = 3 ∧ (k < 24 ∨ c = 3)) : marchDay doe = d := by
  unfold marchDay
  rw [yearOfEra_cycle parts boundC boundK boundJ pos last]
  omega

/-- The day of its era that a number is, and the year counted from March. -/
def dayOfEra (n : Int) : Int := (n + 719468) % 146097

def marchYear (n : Int) : Int := yearOfEra (dayOfEra n) + (n + 719468) / 146097 * 400

theorem monthStart_march (y : Int) {m : Nat} (early : m < 10) :
    monthStart y (m + 3) = 59 + (153 * m + 2) / 5 + if leap y then 1 else 0 := by
  cases longer : leap y <;> interval_cases m <;> simp [monthStart, daysIn, longer]

theorem yearStart_cycle (era : Int) {c k j : Int} (boundC : 0 ≤ c ∧ c ≤ 3) (boundK : 0 ≤ k ∧ k ≤ 24)
    (boundJ : 0 ≤ j ∧ j ≤ 3) :
    yearStart (400 * era + 100 * c + 4 * k + j + 1) =
      146097 * era + 36524 * c + 1461 * k + 365 * j := by
  unfold yearStart
  omega

/-- The last year of a four has a leap day after it, unless a century ends there that is
not the last of its era. -/
theorem leap_cycle (era : Int) {c k : Int} (boundK : 0 ≤ k ∧ k ≤ 24) (centurial : k < 24 ∨ c = 3) :
    leap (400 * era + 100 * c + 4 * k + 3 + 1) = true := by
  rw [leap_iff]
  refine ⟨by omega, ?_⟩
  by_cases inside : k < 24
  · exact .inl (by omega)
  · obtain rfl : k = 24 := by omega
    obtain rfl : c = 3 := centurial.resolve_left inside
    exact .inr (by omega)

theorem yearStart_epoch : yearStart 1970 = 719162 := by decide

/-- A number is as many days after the first of March of its year as it counts. -/
theorem march_spec (n : Int) : 0 ≤ marchDay (dayOfEra n) ∧
    (marchDay (dayOfEra n) ≤ 364 ∨
      marchDay (dayOfEra n) = 365 ∧ leap (marchYear n + 1) = true) ∧
    n = yearStart (marchYear n + 1) + marchDay (dayOfEra n) - 306 - yearStart 1970 := by
  have low : 0 ≤ dayOfEra n := Int.emod_nonneg _ (by decide)
  have high : dayOfEra n < 146097 := Int.emod_lt_of_pos _ (by decide)
  obtain ⟨c, k, j, d, parts, boundC, boundK, boundJ, pos, last⟩ := exists_cycle low high
  obtain ⟨era, isEra⟩ : ∃ era, era = (n + 719468) / 146097 := ⟨_, rfl⟩
  have number : n = 146097 * era + dayOfEra n - 719468 := by
    unfold dayOfEra
    omega
  have march : marchYear n = 400 * era + 100 * c + 4 * k + j := by
    unfold marchYear
    rw [yearOfEra_cycle parts boundC boundK boundJ pos last, ← isEra]
    omega
  have start := yearStart_cycle era boundC boundK boundJ
  rw [← march] at start
  rw [marchDay_cycle parts boundC boundK boundJ pos last]
  refine ⟨pos, ?_, ?_⟩
  · rcases last with short | ⟨long, rfl, centurial⟩
    · exact .inl short
    · refine .inr ⟨long, ?_⟩
      rw [march]
      exact leap_cycle era boundK centurial
  · rw [start, yearStart_epoch]
    omega

/-- A day from March to December. -/
theorem exists_date_march (y : Int) {d : Int} {m : Nat} (early : m < 10) (isMonth : marchMonth d = m) :
    ∃ date : Date, date.ordinal = yearStart (y + 1) + d - 306 - yearStart 1970 ∧
      date.year = y ∧ date.month = m + 3 ∧ (date.day : Int) = d - (153 * m + 2) / 5 + 1 := by
  have within : 153 * (m : Int) ≤ 5 * d + 2 ∧ 5 * d + 2 < 153 * m + 153 := by
    unfold marchMonth at isMonth
    omega
  have first : 1 ≤ d - (153 * (m : Int) + 2) / 5 + 1 := by omega
  have days : ((daysIn y (m + 3) : Nat) : Int) = (153 * (m + 1) + 2) / 5 - (153 * m + 2) / 5 := by
    interval_cases m <;> rfl
  refine ⟨⟨y, m + 3, (d - (153 * m + 2) / 5 + 1).toNat, ?_, ?_, ?_, ?_⟩, ?_, rfl, rfl, ?_⟩
  · omega
  · omega
  · omega
  · omega
  · unfold Date.ordinal
    dsimp only
    rw [yearStart_succ, monthStart_march y early]
    push_cast
    omega
  · dsimp only
    omega

/-- A day in January or February, which belong to the year after. -/
theorem exists_date_winter (y : Int) {d : Int} {m : Nat} (isMonth : marchMonth d = m) (late : 10 ≤ m)
    (last : d ≤ 364 ∨ d = 365 ∧ leap (y + 1) = true) :
    ∃ date : Date, date.ordinal = yearStart (y + 1) + d - 306 - yearStart 1970 ∧
      date.year = y + 1 ∧ date.month + 9 = m ∧ (date.day : Int) = d - (153 * m + 2) / 5 + 1 := by
  have within : 153 * (m : Int) ≤ 5 * d + 2 ∧ 5 * d + 2 < 153 * m + 153 := by
    unfold marchMonth at isMonth
    omega
  have months : m = 10 ∨ m = 11 := by omega
  rcases months with rfl | rfl
  · have days : daysIn (y + 1) 1 = 31 := rfl
    refine ⟨⟨y + 1, 1, (d - 305).toNat, ?_, ?_, ?_, ?_⟩, ?_, rfl, rfl, ?_⟩
    · omega
    · omega
    · omega
    · omega
    · unfold Date.ordinal
      have none : monthStart (y + 1) 1 = 0 := rfl
      dsimp only
      omega
    · dsimp only
      omega
  · have days : daysIn (y + 1) 2 = if leap (y + 1) then 29 else 28 := rfl
    refine ⟨⟨y + 1, 2, (d - 336).toNat, ?_, ?_, ?_, ?_⟩, ?_, rfl, rfl, ?_⟩
    · omega
    · omega
    · omega
    · rcases last with short | ⟨long, longer⟩
      · split at days <;> omega
      · rw [longer, if_pos rfl] at days
        omega
    · unfold Date.ordinal
      have january : monthStart (y + 1) 2 = 31 := rfl
      dsimp only
      omega
    · dsimp only
      omega

/-- Every number is that of a day, and these are its year, month and day. -/
theorem exists_civil (n : Int) : ∃ date : Date, date.ordinal = n ∧
    date.year = marchYear n + (if date.month ≤ 2 then 1 else 0) ∧
    date.month = civilMonth (marchDay (dayOfEra n)) ∧
    date.day = civilDay (marchDay (dayOfEra n)) := by
  obtain ⟨pos, last, number⟩ := march_spec n
  generalize marchDay (dayOfEra n) = d at *
  obtain ⟨m, isMonth⟩ : ∃ m : Nat, marchMonth d = m :=
    Int.eq_ofNat_of_zero_le (Int.ediv_nonneg (by omega) (by decide))
  unfold civilMonth civilDay
  rw [isMonth]
  by_cases early : m < 10
  · obtain ⟨date, same, year, month, day⟩ := exists_date_march (marchYear n) early isMonth
    refine ⟨date, same.trans number.symm, ?_, ?_, day⟩
    · rw [if_neg (by omega), year, add_zero]
    · rw [if_pos (by omega), month]
      push_cast
      rfl
  · obtain ⟨date, same, year, month, day⟩ :=
      exists_date_winter (marchYear n) isMonth (not_lt.mp early) last
    refine ⟨date, same.trans number.symm, ?_, ?_, day⟩
    · have bound : m ≤ 11 := by
        unfold marchMonth at isMonth
        omega
      rw [if_pos (by omega), year]
    · rw [if_neg (by omega)]
      omega

end Civil

/-! ### Instants -/

/-- A second of a day. -/
structure Instant extends Date where
  hour : Nat
  minute : Nat
  second : Nat
  hour_lt : hour < 24
  minute_lt : minute < 60
  second_lt : second < 60

namespace Instant

/-- The seconds since the first second of January 1970. -/
def seconds (t : Instant) : Int := t.ordinal * 86400 + t.hour * 3600 + t.minute * 60 + t.second

/-- The date of an instant and its time are its own. -/
theorem eq_of_seconds {t t' : Instant} (same : t.seconds = t'.seconds) : t = t' := by
  obtain ⟨date, hour, minute, second, boundH, boundM, boundS⟩ := t
  obtain ⟨date', hour', minute', second', boundH', boundM', boundS'⟩ := t'
  unfold seconds at same
  dsimp only at same
  have days : date.ordinal = date'.ordinal := by omega
  obtain rfl := Date.ordinal_injective days
  obtain rfl : hour = hour' := by omega
  obtain rfl : minute = minute' := by omega
  obtain rfl : second = second' := by omega
  rfl

end Instant

end Echo.Lib
