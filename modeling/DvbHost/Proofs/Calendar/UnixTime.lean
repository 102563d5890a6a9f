import DvbHost.Proofs.Calendar.Rounding

/-!
# Seconds since 1970 and the calendar

`IsTimeOf` says which date of the Gregorian calendar and which time of day a count of seconds since
1970 is, by counting days of 86400 seconds from 1970-01-01. From 1900-03-01 00:00:00 to 2038-04-22
23:59:59 the conversion gives that time and no other; the time is converted back to the count, and
read back from its octets.
-/

namespace DvbHost

set_option autoImplicit false

namespace Date

variable {n : Nat} {d : Date}

/-! ## The days of the range -/

theorem MarchPlace.first_le {y m k : Nat} (h : MarchPlace n y m k) : 15079 ≤ n := by
  obtain ⟨⟨hm4, -⟩, ⟨hk1, -⟩, hday, -, -⟩ := h
  have hmonths : 122 ≤ m * 306001 / 10000 := by omega
  omega

/-- The place of a day is in a month of the calendar, and the days before it are counted. -/
theorem MarchPlace.calendar {y m k year month : Nat} (h : MarchPlace n y m k) (hn : n < 0x10000)
    (hyear : year = if 14 ≤ m then y + 1 else y)
    (hmonth : month = if 14 ≤ m then m - 13 else m - 1) :
    k ≤ (monthLengths (1900 + year)).getD (month - 1) 0 ∧
      daysBefore (1900 + year) + ((monthLengths (1900 + year)).take (month - 1)).sum + k =
        n + 678576 := by
  have hfirst := h.first_le
  obtain ⟨⟨hm4, hm15⟩, ⟨hk1, hk31⟩, hday, hyears, hmonths⟩ := h
  rw [yearsBefore, Int.tdiv_eq_ediv_of_nonneg (by omega)] at hyears
  rw [monthsBefore, daysOfYears_ofNat, Int.tdiv_eq_ediv_of_nonneg (by omega)] at hmonths
  have hle : year ≤ 138 := by
    rw [hyear]
    split <;> omega
  have hcases := year_cases hle
  -- only behind the third of four years does February have a leap day
  have hquarter : (y + 1) / 4 = y / 4 ∧ y % 4 ≤ 2 ∨ (y + 1) / 4 = y / 4 + 1 ∧ y % 4 = 3 := by
    omega
  unfold monthLengths
  generalize leapDays (1900 + year) = leap at *
  generalize daysBefore (1900 + year) = before at *
  interval_cases m
  all_goals
    simp at hmonth hyear
    subst hmonth hyear
    simp
    omega

theorem weekday_ofDay (n : Nat) : (ofDay n).weekday.toNat = (n + 2) % 7 + 1 := by
  rw [ofDay, UInt8.toNat_ofNat']
  omega

/-- From 1900-03-01 on, every day is read as the date of the calendar with its ordinal. -/
theorem gregorian_ofDay (h : 15079 ≤ n) (hn : n < 0x10000) :
    (ofDay n).IsGregorian ∧ (ofDay n).ordinal = n + 678576 := by
  obtain ⟨y, m, k, hplace⟩ := exists_marchPlace h
  obtain ⟨hyear, hmonth, hk⟩ := hplace.ofDay_eq hn
  obtain ⟨hlength, hcount⟩ := hplace.calendar hn hyear hmonth
  have hordinal : (ofDay n).ordinal = n + 678576 := by
    rw [ordinal, fullYear, hk, hcount]
  have hmonths := hplace.month
  refine ⟨⟨?_, ?_, ?_⟩, hordinal⟩
  · rw [hmonth]
    split <;> omega
  · rw [hk, fullYear]
    exact ⟨hplace.dayOfMonth.1, hlength⟩
  · rw [hordinal, weekday_ofDay]
    omega

/-- The date of a day is the only one of the calendar with its ordinal. -/
theorem eq_ofDay_iff (h : 15079 ≤ n) (hn : n < 0x10000) :
    d.IsGregorian ∧ d.ordinal = n + 678576 ↔ d = ofDay n := by
  constructor
  · rintro ⟨hd, hordinal⟩
    have hrange : d.InRange := by
      refine ⟨hd, ?_, ?_⟩
      · rw [ordinal_first]
        omega
      · rw [ordinal_last]
        omega
    have hday : d.day = n := by
      have hcount := day_eq hrange
      omega
    rw [← hday, ofDay_day hrange]
  · rintro rfl
    exact gregorian_ofDay h hn

/-! ## The first second of a date -/

/-- 1970-01-01, a Thursday. -/
def epoch : Date := ⟨70, 1, 1, 4⟩

/-- The seconds from the beginning of 1970-01-01 to the beginning of a date. -/
def start (d : Date) : Int := ((d.ordinal : Int) - epoch.ordinal) * 86400

theorem start_eq (d : Date) : d.start = ((d.ordinal : Int) - 719163) * 86400 := rfl

example : first.start = -2203891200 ∧ last.start + 86399 = 2155593599 := by decide

end Date

namespace DateTime

variable {t : DateTime} {secs : Int}

/-- The date of the calendar and the time of day that a count of seconds since 1970 is. -/
structure IsTimeOf (t : DateTime) (secs : Int) : Prop where
  date : t.date.IsGregorian
  hour : t.hour.toNat ≤ 23
  minute : t.minute.toNat ≤ 59
  second : t.second.toNat ≤ 59
  seconds : t.date.start + t.hour.toNat * 3600 + t.minute.toNat * 60 + t.second.toNat = secs

/-- The day of a count of seconds, as far as 16 bits count days. -/
theorem exists_day (hfirst : Date.first.start ≤ secs) (hlast : secs < Date.last.start + 86400) :
    ∃ n : Nat, 15079 ≤ n ∧ n < 0x10000 ∧ secs / 86400 + unixEpochDay = n := by
  rw [Date.start_eq, Date.ordinal_first] at hfirst
  rw [Date.start_eq, Date.ordinal_last] at hlast
  rw [unixEpochDay]
  exact ⟨(secs / 86400 + 40587).toNat, by omega, by omega, by omega⟩

variable {n : Nat}

theorem clamp_day (hn : n < 0x10000) (hday : secs / 86400 + unixEpochDay = n) :
    Date.clamp 0xFFFF (secs / 86400 + unixEpochDay) = n := by
  rw [hday, Date.clamp, Int.toNat_natCast]
  omega

/-- The parts of the conversion, its day being in the range. -/
theorem ofUnix_eq (hn : n < 0x10000) (hday : secs / 86400 + unixEpochDay = n) :
    (ofUnix secs).date = .ofDay n ∧
      (ofUnix secs).hour.toNat = (secs % 86400).toNat / 3600 ∧
      (ofUnix secs).minute.toNat = (secs % 86400).toNat / 60 % 60 ∧
      (ofUnix secs).second.toNat = (secs % 86400).toNat % 60 := by
  have hofDay : secs.emod 86400 = secs % 86400 := rfl
  refine ⟨congrArg Date.ofDay (clamp_day hn hday), ?_, ?_, ?_⟩
  all_goals
    rw [ofUnix, UInt8.toNat_ofNat', hofDay]
    omega

/-- The conversion gives the time of the count, and no other time is that of the count. -/
theorem isTimeOf_iff (hfirst : Date.first.start ≤ secs) (hlast : secs < Date.last.start + 86400) :
    t.IsTimeOf secs ↔ t = ofUnix secs := by
  obtain ⟨n, hlow, hhigh, hday⟩ := exists_day hfirst hlast
  obtain ⟨hdate, hhour, hminute, hsecond⟩ := ofUnix_eq hhigh hday
  have hdates := fun d => Date.eq_ofDay_iff (d := d) hlow hhigh
  rw [unixEpochDay] at hday
  constructor
  · rintro ⟨hgregorian, hh, hm, hs, hseconds⟩
    rw [Date.start_eq] at hseconds
    have hdate' : t.date = (ofUnix secs).date := by
      rw [hdate]
      exact (hdates t.date).mp ⟨hgregorian, by omega⟩
    have hhour' : t.hour = (ofUnix secs).hour := UInt8.toNat_inj.mp (by omega)
    have hminute' : t.minute = (ofUnix secs).minute := UInt8.toNat_inj.mp (by omega)
    have hsecond' : t.second = (ofUnix secs).second := UInt8.toNat_inj.mp (by omega)
    obtain ⟨date, hour, minute, second⟩ := t
    exact mk.injEq .. ▸ ⟨hdate', hhour', hminute', hsecond'⟩
  · rintro rfl
    obtain ⟨hgregorian, hordinal⟩ := (hdates _).mpr hdate
    refine ⟨hgregorian, by omega, by omega, by omega, ?_⟩
    rw [Date.start_eq]
    omega

theorem toUnix_ofUnix (hfirst : Date.first.start ≤ secs)
    (hlast : secs < Date.last.start + 86400) : (ofUnix secs).toUnix = secs := by
  obtain ⟨n, hlow, hhigh, hday⟩ := exists_day hfirst hlast
  obtain ⟨hdate, hhour, hminute, hsecond⟩ := ofUnix_eq hhigh hday
  rw [toUnix, hdate, Date.day_ofDay hlow hhigh, hhour, hminute, hsecond]
  omega

/-- A time of the calendar in the range can be written. -/
theorem IsTimeOf.inRange (ht : t.IsTimeOf secs) (hfirst : Date.first.start ≤ secs)
    (hlast : secs < Date.last.start + 86400) : t.InRange := by
  obtain ⟨hgregorian, hh, hm, hs, hseconds⟩ := ht
  rw [Date.start_eq] at hfirst hlast hseconds
  exact ⟨⟨hgregorian, by omega, by omega⟩, by omega, by omega, by omega⟩

/-- From 1900-03-01 00:00:00 to 2038-04-22 23:59:59 the conversion gives the time that a count of
seconds is, and no other time is that of the count. Its date is the same with rounded numbers. It is
converted back to the count and read back from its octets. -/
theorem calendar_times (hfirst : Date.first.start ≤ secs) (hlast : secs < Date.last.start + 86400) :
    (∀ t : DateTime, t.IsTimeOf secs ↔ t = ofUnix secs) ∧
      (ofUnix secs).date =
        .ofDayRounded (Date.clamp 0xFFFF (secs / 86400 + unixEpochDay)) ∧
      (ofUnix secs).toUnix = secs ∧ read.run (ofUnix secs).toBytes = .ok (ofUnix secs) := by
  have htime : (ofUnix secs).IsTimeOf secs := (isTimeOf_iff hfirst hlast).mpr rfl
  refine ⟨fun t => isTimeOf_iff hfirst hlast, ?_, toUnix_ofUnix hfirst hlast, ?_⟩
  · obtain ⟨n, hlow, hhigh, hday⟩ := exists_day hfirst hlast
    rw [clamp_day hhigh hday, Date.ofDayRounded_eq hlow hhigh]
    exact (ofUnix_eq hhigh hday).1
  · have hread := (reads (ofUnix secs)).all.run
    rwa [(htime.inRange hfirst hlast).rewritten_eq] at hread

/-- The last second of 2000-02-29, a Tuesday. -/
theorem calendar_times_leapDay :
    Date.first.start ≤ 951868799 ∧ 951868799 < Date.last.start + 86400 ∧
      IsTimeOf ⟨⟨100, 2, 29, 2⟩, 23, 59, 59⟩ 951868799 ∧
      ofUnix 951868799 = ⟨⟨100, 2, 29, 2⟩, 23, 59, 59⟩ ∧
      Date.ofDayRounded 51603 = ⟨100, 2, 29, 2⟩ ∧
      toUnix ⟨⟨100, 2, 29, 2⟩, 23, 59, 59⟩ = 951868799 ∧
      read.run [0xC9, 0x93, 0x23, 0x59, 0x59] = .ok ⟨⟨100, 2, 29, 2⟩, 23, 59, 59⟩ := by
  have hfirst : Date.first.start ≤ 951868799 := by decide
  have hlast : 951868799 < Date.last.start + 86400 := by decide
  obtain ⟨htime, hdate, hback, hread⟩ := calendar_times hfirst hlast
  have hofUnix : ofUnix 951868799 = ⟨⟨100, 2, 29, 2⟩, 23, 59, 59⟩ := by decide
  rw [hofUnix] at hdate hback hread
  exact ⟨hfirst, hlast, (htime _).mpr hofUnix.symm, hofUnix, hdate.symm, hback, hread⟩

end DateTime

end DvbHost
