import Echo.Lib.Gregorian

/-!
Timestamps as text: `human_time` (`api/src/lib.rs`), which the services show, and the
panel's `fmt_dt` and `fmt_date` (`panel/tmpl.rs`). All three find the date of a day by the
same arithmetic, on years that begin in March; only `human_time` goes on to count January
and February to the next year.
-/

namespace Echo

open Echo.Lib

/-- The result of an operation on `i64`, or none where it overflows. -/
def i64 (n : Int) : Option Int := if -2 ^ 63 ≤ n ∧ n < 2 ^ 63 then some n else none

/-- A number with zeroes in front, `w` wide with its sign. -/
def padded (w : Nat) (n : Int) : String :=
  let sign := if n < 0 then ['-'] else []
  let digits := Nat.toDigits 10 n.natAbs
  String.ofList (sign ++ List.replicate (w - (sign.length + digits.length)) '0' ++ digits)

/-- The era of a day and the day within it. -/
def eraDay (days : Int) : Option (Int × Int) := do
  let z ← i64 (days + 719468)
  let top ← if z ≥ 0 then some z else i64 (z - 146096)
  let era := top.tdiv 146097
  let doe ← i64 (z - (← i64 (era * 146097)))
  some (era, doe)

/-- The year of a day within its era and the day within that. -/
def yearDay (doe : Int) : Option (Int × Int) := do
  let less ← i64 (doe - doe.tdiv 1460)
  let more ← i64 (less + doe.tdiv 36524)
  let whole ← i64 (more - doe.tdiv 146096)
  let yoe := whole.tdiv 365
  let years ← i64 ((← i64 (365 * yoe)) + yoe.tdiv 4)
  let doy ← i64 (doe - (← i64 (years - yoe.tdiv 100)))
  some (yoe, doy)

/-- The month of a day within its year and the day within that. -/
def monthDay (doy : Int) : Option (Int × Int) := do
  let mp := (← i64 ((← i64 (5 * doy)) + 2)).tdiv 153
  let start := (← i64 ((← i64 (153 * mp)) + 2)).tdiv 5
  let day ← i64 ((← i64 (doy - start)) + 1)
  let month ← if mp < 10 then i64 (mp + 3) else i64 (mp - 9)
  some (month, day)

/-- The arithmetic that stands in each of the three: the year from March, the month and
the day of the month. -/
def civil (days : Int) : Option (Int × Int × Int) := do
  let (era, doe) ← eraDay days
  let (yoe, doy) ← yearDay doe
  let y ← i64 (yoe + (← i64 (era * 400)))
  let (month, day) ← monthDay doy
  some (y, month, day)

def humanTime (ts : UInt64) : Option String := do
  let days := ts / 86400
  let rem := ts % 86400
  let (y, month, day) ← civil days.toNat
  let year ← i64 (y + if month ≤ 2 then 1 else 0)
  some (padded 4 year ++ "-" ++ padded 2 month ++ "-" ++ padded 2 day ++ " " ++
    padded 2 (rem / 3600).toNat ++ ":" ++ padded 2 (rem % 3600 / 60).toNat ++ ":" ++
    padded 2 (rem % 60).toNat ++ " UTC")

def fmtDt (ts : UInt64) : Option String :=
  if ts = 0 then some "—"
  else do
    let days := ts / 86400
    let secs := ts % 86400
    let (_, m, d) ← civil days.toNat
    some (padded 2 d ++ "/" ++ padded 2 m ++ " " ++ padded 2 (secs / 3600).toNat ++ ":" ++
      padded 2 (secs % 3600 / 60).toNat)

def fmtDate (ts : UInt64) : Option String :=
  if ts = 0 then some "—"
  else do
    let days := ts / 86400
    let secs := ts % 86400
    let (y, m, d) ← civil days.toNat
    some (padded 2 d ++ "/" ++ padded 2 m ++ "/" ++ toString y ++ " " ++
      padded 2 (secs / 3600).toNat ++ ":" ++ padded 2 (secs % 3600 / 60).toNat)

/-! ### The texts of an instant -/

namespace Lib.Instant

variable (t : Instant)

/-- As `human_time` is to print it. -/
def iso : String :=
  padded 4 t.year ++ "-" ++ padded 2 t.month ++ "-" ++ padded 2 t.day ++ " " ++
    padded 2 t.hour ++ ":" ++ padded 2 t.minute ++ ":" ++ padded 2 t.second ++ " UTC"

/-- As `fmt_dt` is to print it, without its year. -/
def short : String :=
  padded 2 t.day ++ "/" ++ padded 2 t.month ++ " " ++ padded 2 t.hour ++ ":" ++ padded 2 t.minute

/-- As `fmt_date` is to print it, with the year `y`. -/
def panel (y : Int) : String :=
  padded 2 t.day ++ "/" ++ padded 2 t.month ++ "/" ++ toString y ++ " " ++
    padded 2 t.hour ++ ":" ++ padded 2 t.minute

end Lib.Instant

/-! ### The arithmetic -/

theorem i64_eq {n : Int} (low : -2 ^ 63 ≤ n) (high : n < 2 ^ 63) : i64 n = some n :=
  if_pos ⟨low, high⟩

/-- Division towards zero is division where nothing is negative. -/
theorem tdiv_eq {a b q : Int} (pos : 0 ≤ a) (quot : a / b = q) : a.tdiv b = q := by
  rw [Int.tdiv_eq_ediv_of_nonneg pos, quot]

theorem eraDay_eq {n : Int} (low : 0 ≤ n) (high : n < 2 ^ 58) :
    eraDay n = some ((n + 719468) / 146097, dayOfEra n) := by
  have rest : n + 719468 - (n + 719468) / 146097 * 146097 = dayOfEra n := by
    unfold dayOfEra
    omega
  have pos : 0 ≤ dayOfEra n := Int.emod_nonneg _ (by decide)
  have less : dayOfEra n < 146097 := Int.emod_lt_of_pos _ (by decide)
  unfold eraDay
  simp only [bind]
  rw [i64_eq (by omega) (by omega), Option.bind_some, if_pos (by omega), Option.bind_some]
  rw [tdiv_eq (by omega) rfl, i64_eq (by omega) (by omega), Option.bind_some]
  rw [rest, i64_eq (by omega) (by omega), Option.bind_some]

theorem yearDay_eq {doe : Int} (low : 0 ≤ doe) (high : doe < 146097) :
    yearDay doe = some (yearOfEra doe, marchDay doe) := by
  have bounds : 0 ≤ yearOfEra doe ∧ yearOfEra doe < 400 := by
    unfold yearOfEra
    omega
  unfold yearDay
  simp only [bind]
  rw [tdiv_eq low rfl, i64_eq (by omega) (by omega), Option.bind_some]
  rw [tdiv_eq low rfl, i64_eq (by omega) (by omega), Option.bind_some]
  rw [tdiv_eq low rfl, i64_eq (by omega) (by omega), Option.bind_some]
  rw [tdiv_eq (q := yearOfEra doe) (by omega) rfl, i64_eq (by omega) (by omega), Option.bind_some]
  rw [tdiv_eq bounds.1 rfl, i64_eq (by omega) (by omega), Option.bind_some]
  rw [tdiv_eq bounds.1 rfl, i64_eq (by omega) (by omega), Option.bind_some]
  rw [i64_eq (by omega) (by omega), Option.bind_some]
  rfl

theorem monthDay_eq {doy : Int} (low : 0 ≤ doy) (high : doy ≤ 365) :
    monthDay doy = some (civilMonth doy, civilDay doy) := by
  have bounds : 0 ≤ marchMonth doy ∧ marchMonth doy < 12 := by
    unfold marchMonth
    omega
  unfold monthDay civilMonth civilDay
  simp only [bind]
  rw [i64_eq (by omega) (by omega), Option.bind_some]
  rw [i64_eq (by omega) (by omega), Option.bind_some]
  rw [tdiv_eq (q := marchMonth doy) (by omega) rfl, i64_eq (by omega) (by omega), Option.bind_some]
  rw [i64_eq (by omega) (by omega), Option.bind_some]
  rw [tdiv_eq (by omega) rfl, i64_eq (by omega) (by omega), Option.bind_some]
  rw [i64_eq (by omega) (by omega), Option.bind_some]
  split
  · rw [i64_eq (by omega) (by omega), Option.bind_some]
  · rw [i64_eq (by omega) (by omega), Option.bind_some]

/-- Nothing overflows within 2^58 days, and what comes out is the date, its year counted
from March. -/
theorem civil_eq {n : Int} (low : 0 ≤ n) (high : n < 2 ^ 58) :
    civil n = some (marchYear n, civilMonth (marchDay (dayOfEra n)),
      civilDay (marchDay (dayOfEra n))) := by
  have pos : 0 ≤ dayOfEra n := Int.emod_nonneg _ (by decide)
  have less : dayOfEra n < 146097 := Int.emod_lt_of_pos _ (by decide)
  have year : 0 ≤ yearOfEra (dayOfEra n) ∧ yearOfEra (dayOfEra n) < 400 := by
    unfold yearOfEra
    omega
  obtain ⟨first, last, -⟩ := march_spec n
  unfold civil
  simp only [bind]
  rw [eraDay_eq low high, Option.bind_some]
  dsimp only
  rw [yearDay_eq pos less, Option.bind_some]
  dsimp only
  rw [i64_eq (by omega) (by omega), Option.bind_some]
  rw [i64_eq (by omega) (by omega), Option.bind_some]
  rw [monthDay_eq first (by omega), Option.bind_some]
  rfl

theorem marchYear_lt {n : Int} (high : n < 2 ^ 58) : marchYear n < 2 ^ 60 := by
  have pos : 0 ≤ dayOfEra n := Int.emod_nonneg _ (by decide)
  have less : dayOfEra n < 146097 := Int.emod_lt_of_pos _ (by decide)
  unfold marchYear yearOfEra
  omega

/-! ### The texts -/

theorem toString_injective {a b : Int} (low : 0 ≤ a) (low' : 0 ≤ b)
    (same : toString a = toString b) : a = b := by
  lift a to Nat using low
  lift b to Nat using low'
  have digits : Nat.toDigits 10 a = Nat.toDigits 10 b := by
    have texts : a.repr = b.repr := same
    rw [← Nat.toList_repr, ← Nat.toList_repr, texts]
  have back := congrArg (Nat.ofDigitChars 10 · 0) digits
  simp only [Nat.ofDigitChars_ten_toDigits] at back
  rw [back]

namespace Lib.Instant

variable {t : Instant}

theorem panel_inj {y y' : Int} (low : 0 ≤ y) (low' : 0 ≤ y') : t.panel y = t.panel y' ↔ y = y' := by
  constructor
  · unfold panel
    intro same
    simp only [String.append_left_inj, String.append_right_inj] at same
    exact toString_injective low low' same
  · rintro rfl
    rfl

end Lib.Instant

/-- The instant of a timestamp on the date of its day. -/
def Lib.Date.withTime (date : Date) (ts : UInt64) : Instant where
  toDate := date
  hour := (ts % 86400 / 3600).toNat
  minute := (ts % 86400 % 3600 / 60).toNat
  second := (ts % 86400 % 60).toNat
  hour_lt := by
    rw [UInt64.toNat_div, UInt64.toNat_mod]
    exact Nat.div_lt_of_lt_mul (Nat.mod_lt _ (by decide))
  minute_lt := by
    rw [UInt64.toNat_div, UInt64.toNat_mod]
    exact Nat.div_lt_of_lt_mul (Nat.mod_lt _ (by decide))
  second_lt := by
    rw [UInt64.toNat_mod]
    exact Nat.mod_lt _ (by decide)

theorem seconds_withTime {date : Date} {ts : UInt64} (number : date.ordinal = (ts / 86400).toNat) :
    (date.withTime ts).seconds = ts.toNat := by
  unfold Instant.seconds Date.withTime
  dsimp only
  rw [number]
  simp only [UInt64.toNat_div, UInt64.toNat_mod, UInt64.reduceToNat]
  omega

/-- What the three functions print of a timestamp: where the year is taken from is all
they differ in. -/
theorem exists_instant (ts : UInt64) (nonzero : ts ≠ 0) :
    ∃ t : Instant, t.seconds = ts.toNat ∧ 1970 ≤ t.year ∧
      humanTime ts = some t.iso ∧ fmtDt ts = some t.short ∧
      fmtDate ts = some (t.panel (t.year - if t.month ≤ 2 then 1 else 0)) := by
  have range : (ts / 86400).toNat < 2 ^ 58 := by
    rw [UInt64.toNat_div]
    exact Nat.div_lt_of_lt_mul (ts.toNat_lt.trans (by decide))
  obtain ⟨date, number, year, month, day⟩ := exists_civil (ts / 86400).toNat
  have read := civil_eq (n := (ts / 86400).toNat) (by omega) (by omega)
  rw [← month, ← day] at read
  have late : 1970 ≤ date.year := by
    have after : Date.epoch.ordinal ≤ date.ordinal := by
      rw [Date.ordinal_epoch, number]
      omega
    exact Date.year_le_of_ordinal_le after
  have early : marchYear (ts / 86400).toNat = date.year - if date.month ≤ 2 then 1 else 0 := by
    rw [year]
    omega
  have bound := marchYear_lt (n := (ts / 86400).toNat) (by omega)
  rw [early] at read bound
  refine ⟨date.withTime ts, seconds_withTime number, late, ?_, ?_, ?_⟩
  · unfold humanTime
    simp only [bind]
    rw [read, Option.bind_some]
    dsimp only
    have back : (date.year - if date.month ≤ 2 then 1 else 0) +
        (if (date.month : Int) ≤ 2 then 1 else 0) = date.year := by
      split <;> split <;> omega
    rw [back, i64_eq (by omega) (by split at bound <;> omega)]
    rfl
  · unfold fmtDt
    rw [if_neg nonzero]
    simp only [bind]
    rw [read, Option.bind_some]
    rfl
  · unfold fmtDate
    rw [if_neg nonzero]
    simp only [bind]
    rw [read, Option.bind_some]
    rfl

/-- `human_time` prints every instant as it is, and `fmt_dt` as far as it goes; nothing
overflows. `fmt_date` agrees with them from March to December and at no other time. -/
theorem fmtDate_exact_iff (ts : UInt64) (nonzero : ts ≠ 0) :
    ∃ t : Instant, t.seconds = ts.toNat ∧ humanTime ts = some t.iso ∧ fmtDt ts = some t.short ∧
      (fmtDate ts = some (t.panel t.year) ↔ 3 ≤ t.month) := by
  obtain ⟨t, seconds, late, human, short, panel⟩ := exists_instant ts nonzero
  refine ⟨t, seconds, human, short, ?_⟩
  rw [panel, Option.some.injEq]
  by_cases winter : t.month ≤ 2
  · rw [if_pos winter, Instant.panel_inj (by omega) (by omega)]
    omega
  · rw [if_neg winter, sub_zero]
    exact iff_of_true rfl (by omega)

/-- The first of January 2026 is put in the year 2025. -/
theorem fmtDate_january : humanTime 1767225600 = some "2026-01-01 00:00:00 UTC" ∧
    fmtDate 1767225600 = some "01/01/2025 00:00" := by
  decide +kernel

theorem fmtDate_exact_iff_january : (1767225600 : UInt64) ≠ 0 ∧
    ∃ t : Instant, t.seconds = (1767225600 : UInt64).toNat ∧
      humanTime 1767225600 = some t.iso ∧ fmtDt 1767225600 = some t.short ∧
      (fmtDate 1767225600 = some (t.panel t.year) ↔ 3 ≤ t.month) :=
  ⟨by decide, fmtDate_exact_iff 1767225600 (by decide)⟩

end Echo
