import PeekLock.Time.Calendar

/-! # Days and dates

Every day has a date of the calendar, and the date leads back to the day
(`toDays_ofDays`, `isValid_ofDays`).  What is not obvious is that the year within an era
can be told by one division: the days of an era are first counted as if no year had a
leap day.  The count never goes back, so it is enough to know it on the first and the
last day of each year (`count_yearStart`).
-/

namespace PeekLock.Date

/-! ## Years of an era

An era has four hundred years that begin in March, and 146097 days. -/

/-- The days of an era before the beginning of a year. -/
def yearStart (y : Int) : Int := y * 365 + y / 4 - y / 100 + y / 400

/-- The day of an era, counted without leap days. -/
def dayCount (n : Int) : Int := n - n / 1460 + n / 36524 - n / 146096

theorem dayCount_mono {m n : Int} (le : m ≤ n) : dayCount m ≤ dayCount n := by
  have fours (k : Int) : k / 146096 = k / 36524 / 4 := by omega
  have front : m - m / 1460 ≤ n - n / 1460 := by omega
  have centuries : m / 36524 ≤ n / 36524 := by omega
  simp only [dayCount, fours]
  omega

/-- The first day of a year is counted in the year. -/
theorem le_dayCount_yearStart {y : Nat} (inside : y ≤ 400) :
    (y : Int) * 365 ≤ dayCount (yearStart y) := by
  have all : ∀ y < 401, ((y : Nat) : Int) * 365 ≤ dayCount (yearStart (y : Nat)) := by
    decide +kernel
  exact all y (by omega)

/-- The last day of a year is not counted in the next one. -/
theorem dayCount_before_yearStart {y : Nat} (inside : y < 400) :
    dayCount (yearStart (y + 1 : Nat) - 1) < (y + 1 : Nat) * 365 := by
  have all : ∀ y < 400, dayCount (yearStart (y + 1 : Nat) - 1) < ((y + 1 : Nat) : Int) * 365 := by
    decide +kernel
  exact all y inside

/-- The year within the era that a day of the era lies in. -/
theorem year_of_day {n : Int} (low : 0 ≤ n) (high : n < 146097) :
    0 ≤ dayCount n / 365 ∧ dayCount n / 365 < 400 ∧ yearStart (dayCount n / 365) ≤ n ∧
      n < yearStart (dayCount n / 365 + 1) := by
  have first := dayCount_mono low
  have last := dayCount_mono (m := n) (n := 146096) (by omega)
  have count₀ : dayCount 0 = 0 := rfl
  have countLast : dayCount 146096 = 145999 := by decide
  obtain ⟨y, year⟩ := Int.eq_ofNat_of_zero_le (a := dayCount n / 365) (by omega)
  rw [year]
  refine ⟨by omega, by omega, ?_, ?_⟩
  · refine Int.not_lt.1 fun before => ?_
    -- A day before the year would be counted in an earlier one.
    cases y with
    | zero => exact absurd before (Int.not_lt.2 low)
    | succ y =>
      have := dayCount_mono (m := n) (n := yearStart (y + 1 : Nat) - 1) (by omega)
      have := dayCount_before_yearStart (y := y) (by omega)
      omega
  · refine Int.not_le.1 fun behind => ?_
    have := dayCount_mono (m := yearStart (y + 1 : Nat)) (n := n) behind
    have := le_dayCount_yearStart (y := y + 1) (by omega)
    omega

/-- A year has 366 days if the February at its end is long. -/
theorem length_year (y : Int) :
    yearStart (y + 1) - yearStart y = if isLeapYear (y + 1) then 366 else 365 := by
  simp only [yearStart, isLeapYear, Bool.and_eq_true, Bool.or_eq_true, decide_eq_true_eq]
  split <;> omega

theorem isLeapYear_add_era (y era : Int) : isLeapYear (y + era * 400) = isLeapYear y := by
  have fours : (y + era * 400) % 4 = y % 4 := by omega
  have centuries : (y + era * 400) % 100 = y % 100 := by omega
  have eras : (y + era * 400) % 400 = y % 400 := by omega
  simp only [isLeapYear, fours, centuries, eras]

/-! ## Months of a year -/

/-- The days of a year before the beginning of a month, counted from March on. -/
def monthStart (m : Int) : Int := (153 * m + 2) / 5

theorem month_of_day {d : Int} (low : 0 ≤ d) (high : d ≤ 365) :
    0 ≤ (5 * d + 2) / 153 ∧ (5 * d + 2) / 153 < 12 ∧ monthStart ((5 * d + 2) / 153) ≤ d ∧
      d < monthStart ((5 * d + 2) / 153 + 1) := by
  simp only [monthStart]
  omega

/-- A month counted from March on, as the calendar counts it. -/
def civilMonth (m : Int) : Nat := (if m < 10 then m + 3 else m - 9).toNat

/-- All months but the last have lengths of their own. -/
theorem monthLength_civilMonth (year : Int) {m : Int} (low : 0 ≤ m) (high : m < 11) :
    (monthLength year (civilMonth m) : Int) = monthStart (m + 1) - monthStart m := by
  have months : m = 0 ∨ m = 1 ∨ m = 2 ∨ m = 3 ∨ m = 4 ∨ m = 5 ∨ m = 6 ∨ m = 7 ∨ m = 8 ∨ m = 9 ∨
      m = 10 := by
    omega
  rcases months with rfl | rfl | rfl | rfl | rfl | rfl | rfl | rfl | rfl | rfl | rfl <;> rfl

/-! ## Parts of a day -/

/-- The parts of a day: the era, the year in it, the month from March on, and the day of the
    month. -/
structure Parts where
  era : Int
  year : Int
  month : Int
  day : Int

/-- The parts fit the calendar. -/
structure Parts.Fit (p : Parts) : Prop where
  year_nonneg : 0 ≤ p.year
  year_lt : p.year < 400
  month_nonneg : 0 ≤ p.month
  month_lt : p.month < 12
  day_pos : 1 ≤ p.day
  in_month : p.day ≤ monthStart (p.month + 1) - monthStart p.month
  /-- The last month ends with the year. -/
  in_year : monthStart p.month + p.day ≤ if isLeapYear (p.year + 1) then 366 else 365

namespace Parts

variable {p : Parts}

/-- The date of the parts.  The last two months belong to the next year. -/
def toDate (p : Parts) : Date :=
  ⟨p.year + p.era * 400 + (if p.month < 10 then 0 else 1), civilMonth p.month, p.day.toNat⟩

theorem Fit.toDays_toDate (fit : p.Fit) :
    p.toDate.toDays = p.era * 146097 + yearStart p.year + monthStart p.month + p.day - 1 -
      epochOffset := by
  obtain ⟨low, high, first, last, pos, -, -⟩ := fit
  have start : p.year * 365 + p.year / 4 - p.year / 100 = yearStart p.year := by
    simp only [yearStart]
    omega
  have month : ((p.toDate.month : Int) + 9) % 12 = p.month := by
    simp only [toDate, civilMonth]
    split <;> omega
  have year : (if p.toDate.month ≤ 2 then p.toDate.year - 1 else p.toDate.year) =
      p.year + p.era * 400 := by
    simp only [toDate, civilMonth]
    split <;> split <;> omega
  have era : (p.year + p.era * 400) / 400 = p.era := by omega
  have yearOfEra : (p.year + p.era * 400) % 400 = p.year := by omega
  have days : (p.toDate.day : Int) = p.day := by
    simp only [toDate]
    omega
  simp only [toDays, year, era, yearOfEra, month, start, days, monthStart]
  omega

theorem Fit.isValid_toDate (fit : p.Fit) : p.toDate.IsValid := by
  obtain ⟨-, -, first, last, pos, within, inYear⟩ := fit
  have dayPos : 1 ≤ p.day.toNat := by omega
  have months : 1 ≤ civilMonth p.month ∧ civilMonth p.month ≤ 12 := by
    simp only [civilMonth]
    split <;> omega
  refine ⟨months.1, months.2, dayPos, ?_⟩
  by_cases february : p.month = 11
  · -- Only the last month depends on the year.
    have leap := isLeapYear_add_era (p.year + 1) p.era
    have year : p.year + 1 + p.era * 400 = p.year + p.era * 400 + 1 := by omega
    have start : monthStart 11 = 337 := rfl
    simp only [toDate, february]
    show p.day.toNat ≤ if isLeapYear (p.year + p.era * 400 + 1) then 29 else 28
    rw [← year, leap]
    rw [february, start] at inYear
    split
    · rename_i long
      rw [if_pos long] at inYear
      omega
    · rename_i short
      rw [if_neg short] at inYear
      omega
  · have length := monthLength_civilMonth p.toDate.year first (by omega : p.month < 11)
    rw [← length] at within
    exact Int.toNat_le.2 within

end Parts

/-- The date of a day is that of parts that fit. -/
theorem exists_parts (n : Int) : ∃ p : Parts, p.Fit ∧ ofDays n = p.toDate ∧
    n + epochOffset = p.era * 146097 + yearStart p.year + monthStart p.month + p.day - 1 := by
  generalize shifted : n + epochOffset = k
  obtain ⟨yearLow, yearHigh, started, ended⟩ :=
    year_of_day (n := k % 146097) (by omega) (by omega)
  generalize year : dayCount (k % 146097) / 365 = y at yearLow yearHigh started ended
  have length := length_year y
  have start : 365 * y + y / 4 - y / 100 = yearStart y := by
    simp only [yearStart]
    omega
  generalize dayOfYear : k % 146097 - yearStart y = d at started ended
  have inYear : d < if isLeapYear (y + 1) then 366 else 365 := by omega
  have short : d ≤ 365 := by
    split at inYear <;> omega
  obtain ⟨monthLow, monthHigh, monthBegun, monthEnded⟩ := month_of_day (d := d) (by omega) short
  generalize month : (5 * d + 2) / 153 = m at monthLow monthHigh monthBegun monthEnded
  refine ⟨⟨k / 146097, y, m, d - monthStart m + 1⟩, ?fit, ?date, ?days⟩
  case fit =>
    constructor <;> dsimp only <;> omega
  case date =>
    have ofYear : (k % 146097 - k % 146097 / 1460 + k % 146097 / 36524 - k % 146097 / 146096) / 365 =
        y := year
    have ofDay : d - (153 * m + 2) / 5 + 1 = d - monthStart m + 1 := rfl
    simp only [ofDays, shifted, ofYear, start, dayOfYear, month, ofDay, Parts.toDate, civilMonth]
    by_cases late : m < 10
    · have notEarly : ¬ m + 3 ≤ 2 := by omega
      simp only [late, notEarly, ↓reduceIte, Int.add_zero]
    · have early : m - 9 ≤ 2 := by omega
      simp only [late, early, ↓reduceIte]
  case days =>
    dsimp only
    omega

/-- The date of a day leads back to it. -/
theorem toDays_ofDays (n : Int) : (ofDays n).toDays = n := by
  obtain ⟨p, fit, date, days⟩ := exists_parts n
  rw [date, fit.toDays_toDate]
  omega

theorem isValid_ofDays (n : Int) : (ofDays n).IsValid := by
  obtain ⟨p, fit, date, -⟩ := exists_parts n
  exact date ▸ fit.isValid_toDate

/-- The calendar from the first day of the year -262143 to the last one of 262142 shows no other
    years. -/
theorem year_ofDays {n : Int} (low : -96465292 ≤ n) (high : n ≤ 95026236) :
    -262143 ≤ (ofDays n).year ∧ (ofDays n).year ≤ 262142 := by
  obtain ⟨p, fit, date, days⟩ := exists_parts n
  obtain ⟨yearLow, yearHigh, first, last, pos, within, -⟩ := fit
  simp only [epochOffset, yearStart] at days
  simp only [monthStart] at days within
  rw [date]
  simp only [Parts.toDate]
  constructor
  · -- The first day is in the tenth month of a year that begins in March.
    refine Int.not_lt.1 fun before => ?_
    have era : p.era ≤ -656 := by split at before <;> omega
    have year : p.era < -656 ∨ p.year < 256 ∨ p.year = 256 := by split at before <;> omega
    rcases year with year | year | year
    · omega
    · omega
    · rw [year] at days before
      split at before <;> omega
  · refine Int.not_lt.1 fun behind => ?_
    have era : 655 ≤ p.era := by split at behind <;> omega
    have year : 655 < p.era ∨ 142 < p.year ∨ p.year = 142 := by split at behind <;> omega
    rcases year with year | year | year
    · omega
    · omega
    · rw [year] at days behind
      split at behind <;> omega

end PeekLock.Date
