import DvbHost.Proofs.Calendar.DateTime

/-!
# Which times come back

A time that was read is written and read again. From 1900-03-01 on the formulas give every day its
own date, and that date its day (`Date.day_ofDay`). An earlier day is read as a date of the first two
months of 1900 or of a month 0, and what such a date is written as is read as another date
(`Date.Early.rewritten_ne`).
-/

namespace DvbHost

set_option autoImplicit false

namespace Date

variable {n : Nat} {d : Date}

/-- The date is 1900-03-01 or later. -/
def FromMarch (d : Date) : Prop := 0 < d.year.toNat ∨ 2 < d.month.toNat

/-! ## From the first of March on -/

/-- The place of a day in years that begin in March, the months counted as the formulas do. -/
structure MarchPlace (n y m k : Nat) : Prop where
  month : 4 ≤ m ∧ m ≤ 15
  dayOfMonth : 1 ≤ k ∧ k ≤ 31
  day : n = 14956 + (365 * y + y / 4) + m * 306001 / 10000 + k
  years : yearsBefore n = y
  months : monthsBefore n y = m

theorem daysOfMonths_ofNat (m : Nat) : daysOfMonths m = (m * 306001 / 10000 : Nat) := by
  rw [daysOfMonths, Int.tdiv_eq_ediv_of_nonneg (by omega)]
  omega

/-- The mean years meet every first of March, and the mean months the first of every month. -/
theorem exists_marchPlace (h : 15079 ≤ n) : ∃ y m k, MarchPlace n y m k := by
  obtain ⟨y, hy⟩ : ∃ y, (n * 100 - 1507820) / 36525 = y := ⟨_, rfl⟩
  obtain ⟨q, hq⟩ : ∃ q, n = 14956 + (365 * y + y / 4) + q := ⟨n - 14956 - (365 * y + y / 4), by omega⟩
  obtain ⟨m, hm⟩ : ∃ m, (10 * q - 1) * 1000 / 306001 = m := ⟨_, rfl⟩
  -- the formulas count the days of a year from 123 on, which is the first of March
  have hlow : 123 ≤ q := by omega
  have hhigh : q ≤ 488 := by omega
  have hm4 : 4 ≤ m := by omega
  have hm15 : m ≤ 15 := by omega
  have hk : m * 306001 / 10000 + 1 ≤ q ∧ q ≤ m * 306001 / 10000 + 31 := by
    interval_cases m <;> omega
  refine ⟨y, m, q - m * 306001 / 10000, ⟨hm4, hm15⟩, by omega, by omega, ?_, ?_⟩
  · rw [yearsBefore, Int.tdiv_eq_ediv_of_nonneg (by omega)]
    omega
  · rw [monthsBefore, daysOfYears_ofNat, Int.tdiv_eq_ediv_of_nonneg (by omega)]
    omega

/-- The date of a day, given its place. -/
theorem MarchPlace.ofDay_eq {y m k : Nat} (h : MarchPlace n y m k) (hn : n < 0x10000) :
    (ofDay n).year.toNat = (if 14 ≤ m then y + 1 else y) ∧
      (ofDay n).month.toNat = (if 14 ≤ m then m - 13 else m - 1) ∧
      (ofDay n).dayOfMonth.toNat = k := by
  obtain ⟨⟨hm4, hm15⟩, ⟨hk1, hk31⟩, hday, hyears, hmonths⟩ := h
  have hy : y < 0xFFFF := by omega
  have hnext : ((m : Int) = 14 ∨ (m : Int) = 15) ↔ 14 ≤ m := by omega
  rw [ofDay, hyears, hmonths, daysOfYears_ofNat, daysOfMonths_ofNat]
  simp only [hnext, clamp, UInt16.toNat_ofNat', UInt8.toNat_ofNat']
  split <;> omega

/-- From 1900-03-01 on no day is lost. -/
theorem day_ofDay (h : 15079 ≤ n) (hn : n < 0x10000) : day (ofDay n) = n := by
  obtain ⟨y, m, k, hplace⟩ := exists_marchPlace h
  obtain ⟨hyear, hmonth, hk⟩ := hplace.ofDay_eq hn
  obtain ⟨⟨hm4, hm15⟩, -, hday, -, -⟩ := hplace
  have hsum : (14956 : Int) + k + daysOfYears y + daysOfMonths m = n := by
    rw [daysOfYears_ofNat, daysOfMonths_ofNat, hday]
    omega
  have hclamp : clamp 0xFFFF n = n := by
    rw [clamp, Int.toNat_natCast]
    omega
  rw [day, hyear, hmonth, hk]
  by_cases hnext : 14 ≤ m
  · have hm : m - 13 ≤ 2 := by omega
    have hy' : ((y + 1 : Nat) : Int) - 1 = y := by omega
    have hm' : ((m - 13 : Nat) : Int) + 1 + 1 * 12 = m := by omega
    rw [if_pos hnext, if_pos hnext, if_pos hm, hy', hm', hsum, hclamp]
  · have hm : ¬ m - 1 ≤ 2 := by omega
    have hy' : (y : Int) - 0 = y := by omega
    have hm' : ((m - 1 : Nat) : Int) + 1 + 0 * 12 = m := by omega
    rw [if_neg hnext, if_neg hnext, if_neg hm, hy', hm', hsum, hclamp]

theorem fromMarch_ofDay (h : 15079 ≤ n) (hn : n < 0x10000) : (ofDay n).FromMarch := by
  obtain ⟨y, m, k, hplace⟩ := exists_marchPlace h
  obtain ⟨hyear, hmonth, -⟩ := hplace.ofDay_eq hn
  have hm := hplace.month
  rw [FromMarch, hyear, hmonth]
  split <;> omega

/-! ## Before -/

/-- A date that an earlier day is read as: in the first two months of 1900, or in a month 0. -/
structure Early (d : Date) : Prop where
  year : d.year.toNat = 0
  month : d.month.toNat ≤ 2
  dayOfMonth : d.dayOfMonth.toNat ≤ 31

theorem early_ofDay (h : n < 15079) : (ofDay n).Early := by
  -- quotients are cut toward zero, so the years before are counted back from the first of March
  obtain ⟨z, hz⟩ : ∃ z, (1507820 - 100 * n) / 36525 = z := ⟨_, rfl⟩
  have hyears : yearsBefore n = -z := by
    have hneg : (n : Int) * 100 - 1507820 = -((1507820 - 100 * n : Nat) : Int) := by omega
    rw [yearsBefore, hneg, Int.neg_tdiv, Int.tdiv_eq_ediv_of_nonneg (by omega)]
    omega
  have hdays : daysOfYears (-z) = -(z * 1461 / 4 : Nat) := by
    rw [daysOfYears, Int.neg_mul, Int.neg_tdiv, Int.tdiv_eq_ediv_of_nonneg (by omega)]
    omega
  have hmonths : monthsBefore n (-z) ≤ 3 := by
    rw [monthsBefore, hdays]
    by_cases hnonneg : 0 ≤ ((n : Int) * 10 - 149561 - -(z * 1461 / 4 : Nat) * 10) * 1000
    · rw [Int.tdiv_eq_ediv_of_nonneg hnonneg]
      omega
    · have hnonpos : 0 ≤ (-(((n : Int) * 10 - 149561 - -(z * 1461 / 4 : Nat) * 10) * 1000)).tdiv
          306001 := Int.tdiv_nonneg (by omega) (by decide)
      rw [Int.neg_tdiv] at hnonpos
      omega
  have hlong : ¬(monthsBefore n (-z) = 14 ∨ monthsBefore n (-z) = 15) := by omega
  refine ⟨?_, ?_, ?_⟩
  · rw [ofDay, hyears, UInt16.toNat_ofNat', if_neg hlong, clamp]
    omega
  · rw [ofDay, hyears, UInt8.toNat_ofNat', if_neg hlong, clamp]
    omega
  · rw [ofDay, UInt8.toNat_ofNat', clamp]
    omega

theorem Early.day_eq (h : d.Early) :
    d.day = 14988 + 31 * d.month.toNat + d.dayOfMonth.toNat := by
  obtain ⟨hyear, hmonth, hk⟩ := h
  have hyears : daysOfYears (0 - 1) = -365 := by decide
  rw [day, if_pos hmonth, hyear, Int.natCast_zero, hyears]
  generalize d.month.toNat = m at *
  interval_cases m
  · have hmonths : daysOfMonths ((0 : Nat) + 1 + 1 * 12) = 397 := by decide
    rw [hmonths, clamp]
    omega
  · have hmonths : daysOfMonths ((1 : Nat) + 1 + 1 * 12) = 428 := by decide
    rw [hmonths, clamp]
    omega
  · have hmonths : daysOfMonths ((2 : Nat) + 1 + 1 * 12) = 459 := by decide
    rw [hmonths, clamp]
    omega

theorem Early.not_fromMarch (h : d.Early) : ¬d.FromMarch := by
  rintro (hyear | hmonth)
  · exact absurd h.year (Nat.ne_of_gt hyear)
  · exact absurd h.month (Nat.not_le_of_gt hmonth)

/-- The year before the first of March, as far as its days are written. -/
theorem eq_of_ofDay_early (hlow : 14988 ≤ n) (hhigh : n < 15079) :
    n = 14956 + ((ofDay n).month.toNat + 1) * 306001 / 10000 + (ofDay n).dayOfMonth.toNat := by
  obtain ⟨q, rfl⟩ : ∃ q, n = 14956 + q := ⟨n - 14956, by omega⟩
  obtain ⟨m, hm⟩ : ∃ m, (10 * q - 1) * 1000 / 306001 = m := ⟨_, rfl⟩
  have hyears : yearsBefore (14956 + q : Nat) = 0 := by
    have hneg : ((14956 + q : Nat) : Int) * 100 - 1507820 = -((12220 - 100 * q : Nat) : Int) := by
      omega
    rw [yearsBefore, hneg, Int.neg_tdiv, Int.tdiv_eq_ediv_of_nonneg (by omega)]
    omega
  have hdays : daysOfYears 0 = 0 := by decide
  have hmonths : monthsBefore (14956 + q : Nat) 0 = m := by
    rw [monthsBefore, hdays, Int.tdiv_eq_ediv_of_nonneg (by omega)]
    omega
  have hm1 : 1 ≤ m := by omega
  have hm3 : m ≤ 3 := by omega
  have hlong : ¬((m : Int) = 14 ∨ (m : Int) = 15) := by omega
  have hmonth : (ofDay (14956 + q)).month.toNat = m - 1 := by
    rw [ofDay, hyears, hmonths, if_neg hlong, UInt8.toNat_ofNat', clamp]
    omega
  have hk : (ofDay (14956 + q)).dayOfMonth.toNat = q - m * 306001 / 10000 := by
    rw [ofDay, hyears, hmonths, hdays, daysOfMonths_ofNat, UInt8.toNat_ofNat', clamp]
    omega
  rw [hmonth, hk]
  omega

/-- A date before 1900-03-01 is written as another day, which is read as another date. -/
theorem Early.rewritten_ne (h : d.Early) : d.rewritten ≠ d := by
  intro heq
  have hday := h.day_eq
  have hmonth := h.month
  by_cases hearly : d.day < 15079
  · have hagain := eq_of_ofDay_early (by omega) hearly
    rw [← rewritten, heq] at hagain
    omega
  · have hlate := fromMarch_ofDay (Nat.not_lt.mp hearly) d.day_lt
    rw [← rewritten, heq] at hlate
    exact h.not_fromMarch hlate

/-- The dates that come back are those from 1900-03-01 on. -/
theorem rewritten_eq_iff (hn : n < 0x10000) :
    (ofDay n).rewritten = ofDay n ↔ (ofDay n).FromMarch := by
  by_cases h : 15079 ≤ n
  · refine iff_of_true ?_ (fromMarch_ofDay h hn)
    rw [rewritten, day_ofDay h hn]
  · have hearly := early_ofDay (Nat.not_le.mp h)
    exact iff_of_false hearly.rewritten_ne hearly.not_fromMarch

end Date

namespace DateTime

variable {t : DateTime}

/-- A time whose octets say it: from 1900-03-01 on, no part of the day with more tens than four bits
hold. -/
structure Tellable (t : DateTime) : Prop where
  date : t.date.FromMarch
  hour : t.hour.toNat < 160
  minute : t.minute.toNat < 160
  second : t.second.toNat < 160

/-- The times that come back, among those that are read. -/
theorem rewritten_eq_iff (hdate : t.date.rewritten = t.date ↔ t.date.FromMarch) :
    t.rewritten = t ↔ t.Tellable := by
  obtain ⟨date, hour, minute, second⟩ := t
  rw [rewritten, mk.injEq, mod_eq_iff, mod_eq_iff, mod_eq_iff, hdate]
  exact ⟨fun h => ⟨h.1, h.2.1, h.2.2.1, h.2.2.2⟩, fun h => ⟨h.date, h.hour, h.minute, h.second⟩⟩

end DateTime

end DvbHost
