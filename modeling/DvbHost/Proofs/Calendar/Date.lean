import DvbHost.Calendar.Date
import DvbHost.Proofs.Cursor

/-!
# Day counts of Gregorian dates

`IsGregorian` says what a date of the Gregorian calendar is, by the rule for leap years and the
lengths of the months; `ordinal` counts its days. From 1900-03-01 to 2038-04-22 the formulas of
the broadcasting standard give that count, less the ordinal of the day they count from, and take
it back to the date.
-/

namespace DvbHost.Date

set_option autoImplicit false

/-- The year of a date. -/
def fullYear (d : Date) : Nat := 1900 + d.year.toNat

/-- The days that a year has beyond 365. -/
def leapDays (y : Nat) : Nat := if y % 4 = 0 ∧ (y % 100 ≠ 0 ∨ y % 400 = 0) then 1 else 0

/-- The lengths of the months of a year, January first. -/
def monthLengths (y : Nat) : List Nat :=
  [31, 28 + leapDays y, 31, 30, 31, 30, 31, 31, 30, 31, 30, 31]

/-- The days before a year, the first year being 1. -/
def daysBefore (y : Nat) : Nat := 365 * (y - 1) + (y - 1) / 4 - (y - 1) / 100 + (y - 1) / 400

/-- The days of the calendar up to a date, 0001-01-01 being the first. -/
def ordinal (d : Date) : Nat :=
  daysBefore d.fullYear + ((monthLengths d.fullYear).take (d.month.toNat - 1)).sum
    + d.dayOfMonth.toNat

/-- A date of the Gregorian calendar with its day of the week; 0001-01-01 is a Monday. -/
structure IsGregorian (d : Date) : Prop where
  month : 1 ≤ d.month.toNat ∧ d.month.toNat ≤ 12
  dayOfMonth : 1 ≤ d.dayOfMonth.toNat ∧
    d.dayOfMonth.toNat ≤ (monthLengths d.fullYear).getD (d.month.toNat - 1) 0
  weekday : d.weekday.toNat = (d.ordinal - 1) % 7 + 1

/-- 1900-03-01, from which on the formulas agree with the calendar. -/
def first : Date := ⟨0, 3, 1, 4⟩

/-- 2038-04-22, the last day that 16 bits count. -/
def last : Date := ⟨138, 4, 22, 4⟩

/-- A date whose day count can be written. -/
structure InRange (d : Date) : Prop where
  gregorian : d.IsGregorian
  first_le : first.ordinal ≤ d.ordinal
  le_last : d.ordinal ≤ last.ordinal

theorem ordinal_first : first.ordinal = 693655 := by decide

theorem ordinal_last : last.ordinal = 744111 := by decide

/-! ## Years from March on -/

variable {d : Date}

/-- The year of a date if years began in March. -/
def marchYear (d : Date) : Nat := if d.month.toNat ≤ 2 then d.year.toNat - 1 else d.year.toNat

/-- The days from the first of March to the first of a month. -/
def sinceMarch (month : Nat) : Nat :=
  [306, 337, 0, 31, 61, 92, 122, 153, 184, 214, 245, 275].getD (month - 1) 0

/-- The days of such a year up to a date. -/
def marchDay (d : Date) : Nat := sinceMarch d.month.toNat + d.dayOfMonth.toNat

theorem year_le (hd : d.InRange) : d.year.toNat ≤ 138 := by
  have hlast := hd.le_last
  rw [ordinal_last, ordinal, daysBefore, fullYear] at hlast
  omega

/-- Every fourth year of the range but the first has a leap day. -/
theorem year_cases {y : Nat} (hy : y ≤ 138) :
    (y = 0 ∨ y % 4 ≠ 0) ∧ leapDays (1900 + y) = 0 ∧
        daysBefore (1900 + y) = 693595 + 365 * y + y / 4 ∨
      (y ≠ 0 ∧ y % 4 = 0) ∧ leapDays (1900 + y) = 1 ∧
        daysBefore (1900 + y) = 693594 + 365 * y + y / 4 := by
  unfold daysBefore leapDays
  by_cases h0 : y = 0
  · subst h0
    exact .inl ⟨.inl rfl, rfl, rfl⟩
  · have hcenturies : (1900 + y - 1) / 100 = 15 + (1900 + y - 1) / 400 := by omega
    have hbefore : 365 * (1900 + y - 1) + (1900 + y - 1) / 4 - (1900 + y - 1) / 100
        + (1900 + y - 1) / 400 = 693594 + 365 * y + (y + 3) / 4 := by omega
    rw [hbefore]
    split
    · right
      omega
    · left
      omega

/-- The calendar from 1900-03-01 on: a year has 365 days and a leap day at the end of each fourth. -/
theorem InRange.ordinal_eq (hd : d.InRange) :
    d.ordinal = 693654 + 365 * d.marchYear + d.marchYear / 4 + d.marchDay ∧ 1 ≤ d.marchDay ∧
      (d.marchDay ≤ 365 ∨ d.marchDay = 366 ∧ d.marchYear % 4 = 3) ∧
      (if d.month.toNat ≤ 2 then d.marchYear + 1 else d.marchYear) = d.year.toNat := by
  have hyear := year_le hd
  have hcases := year_cases hyear
  obtain ⟨⟨⟨hm1, hm12⟩, ⟨hd1, hdmax⟩, -⟩, hfirst, -⟩ := hd
  rw [ordinal_first] at hfirst
  unfold ordinal fullYear at *
  unfold marchDay marchYear
  unfold monthLengths at *
  generalize leapDays (1900 + d.year.toNat) = leap at *
  generalize daysBefore (1900 + d.year.toNat) = before at *
  generalize d.month.toNat = m at *
  generalize d.year.toNat = y at *
  generalize d.dayOfMonth.toNat = k at *
  interval_cases m
  all_goals
    simp [sinceMarch] at *
    omega

/-! ## The formulas -/

/-- The month that the formulas count, January and February with the year before. -/
def marchMonth (d : Date) : Nat :=
  if d.month.toNat ≤ 2 then d.month.toNat + 13 else d.month.toNat + 1

theorem daysOfYears_ofNat (y : Nat) : daysOfYears y = 365 * y + (y / 4 : Nat) := by
  rw [daysOfYears, Int.tdiv_eq_ediv_of_nonneg (by omega)]
  omega

/-- The mean months meet the first of every month. -/
theorem daysOfMonths_marchMonth (hd : d.InRange) :
    daysOfMonths d.marchMonth = 122 + sinceMarch d.month.toNat := by
  obtain ⟨hm1, hm12⟩ := hd.gregorian.month
  unfold marchMonth
  generalize d.month.toNat = m at *
  interval_cases m <;> rfl

/-- The day count is the ordinal, counted from another day. -/
theorem day_eq (hd : d.InRange) : d.day + 678576 = d.ordinal := by
  obtain ⟨hordinal, -, -, hyear⟩ := hd.ordinal_eq
  have hlast := hd.le_last
  rw [ordinal_last, hordinal] at hlast
  have hmonths := daysOfMonths_marchMonth hd
  have hyears := daysOfYears_ofNat d.marchYear
  rw [hordinal, day, clamp]
  unfold marchMonth at hmonths
  unfold marchDay at *
  by_cases hm : d.month.toNat ≤ 2
  · rw [if_pos hm] at hyear hmonths ⊢
    have hy : (d.year.toNat : Int) - 1 = d.marchYear := by omega
    have hm' : (d.month.toNat : Int) + 1 + 1 * 12 = (d.month.toNat + 13 : Nat) := by omega
    rw [hy, hm', hyears, hmonths]
    omega
  · rw [if_neg hm] at hyear hmonths ⊢
    have hy : (d.year.toNat : Int) - 0 = d.marchYear := by omega
    have hm' : (d.month.toNat : Int) + 1 + 0 * 12 = (d.month.toNat + 1 : Nat) := by omega
    rw [hy, hm', hyears, hmonths]
    omega

/-- The mean years meet every first of March. -/
theorem yearsBefore_day (hd : d.InRange) : yearsBefore d.day = d.marchYear := by
  obtain ⟨hordinal, hfirst, hlast, -⟩ := hd.ordinal_eq
  have hday := day_eq hd
  rw [yearsBefore, Int.tdiv_eq_ediv_of_nonneg (by omega)]
  omega

theorem monthsBefore_day (hd : d.InRange) :
    monthsBefore d.day d.marchYear = d.marchMonth := by
  obtain ⟨hordinal, hfirst, hlast, -⟩ := hd.ordinal_eq
  have hday := day_eq hd
  rw [monthsBefore, daysOfYears_ofNat, Int.tdiv_eq_ediv_of_nonneg (by omega)]
  have hposition : (d.day : Int) * 10 - 149561
      - (365 * (d.marchYear : Int) + (d.marchYear / 4 : Nat)) * 10 = 1219 + 10 * d.marchDay := by
    omega
  rw [hposition]
  obtain ⟨hm1, hm12⟩ := hd.gregorian.month
  obtain ⟨hd1, hdmax⟩ := hd.gregorian.dayOfMonth
  have hleap := year_cases (year_le hd)
  unfold marchMonth marchDay
  unfold monthLengths fullYear at hdmax
  generalize d.month.toNat = m at *
  interval_cases m
  all_goals
    simp [sinceMarch] at *
    omega

theorem IsGregorian.dayOfMonth_le (hd : d.IsGregorian) : d.dayOfMonth.toNat ≤ 31 := by
  obtain ⟨hm1, hm12⟩ := hd.month
  have hdmax := hd.dayOfMonth.2
  have hleap : leapDays d.fullYear ≤ 1 := by
    unfold leapDays
    split <;> omega
  unfold monthLengths at hdmax
  generalize d.month.toNat = m at *
  interval_cases m
  all_goals
    simp at hdmax
    omega

/-- A date of the range is the date of its day count. -/
theorem ofDay_day (hd : d.InRange) : ofDay d.day = d := by
  obtain ⟨hordinal, -, -, hyear⟩ := hd.ordinal_eq
  have hday := day_eq hd
  have hmonth := hd.gregorian.month
  have hlength := hd.gregorian.dayOfMonth_le
  have hyearLt := d.year.toNat_lt
  -- the formulas count on from March, so only January and February are put into the next year
  have hnext : (if (d.marchMonth : Int) = 14 ∨ (d.marchMonth : Int) = 15 then (1 : Int) else 0) =
      if d.month.toNat ≤ 2 then 1 else 0 := by
    unfold marchMonth
    split <;> split <;> omega
  have hshift : (d.marchYear : Int) + (if d.month.toNat ≤ 2 then 1 else 0) = d.year.toNat := by
    rw [← hyear]
    split <;> omega
  have hback : (d.marchMonth : Int) - 1 - (if d.month.toNat ≤ 2 then 1 else 0) * 12 =
      d.month.toNat := by
    unfold marchMonth
    split <;> omega
  have hrest : (d.day : Int) - 14956 - daysOfYears d.marchYear - daysOfMonths d.marchMonth =
      d.dayOfMonth.toNat := by
    rw [daysOfMonths_marchMonth hd, daysOfYears_ofNat]
    unfold marchDay at hordinal
    omega
  have hweekday : (d.day + 2) % 7 + 1 = d.weekday.toNat := by
    rw [hd.gregorian.weekday]
    omega
  rw [ofDay, yearsBefore_day hd, monthsBefore_day hd, hnext, hshift, hback, hrest, hweekday]
  simp only [clamp, Int.toNat_natCast, Nat.min_eq_left hmonth.2, Nat.min_eq_left hlength,
    Nat.min_eq_left (show d.year.toNat ≤ 0xFFFF by omega), UInt16.ofNat_toNat, UInt8.ofNat_toNat]

example : ofDay 65535 = last := by decide

theorem day_lt (d : Date) : d.day < 0x10000 := by
  rw [day, clamp]
  omega

/-- A date as it comes back when its octets are read. -/
def rewritten (d : Date) : Date := ofDay d.day

theorem reads (d : Date) : Cursor.Reads read d.toBytes d.rewritten := by
  have h := (Cursor.reads_u16_number d.day_lt).map fun w => ofDay w.toNat
  rwa [UInt16.toNat_ofNat', Nat.mod_eq_of_lt d.day_lt] at h

theorem InRange.rewritten_eq (hd : d.InRange) : d.rewritten = d := ofDay_day hd

end DvbHost.Date
