import DvbHost.Calendar.DateTime
import DvbHost.Proofs.Checked.Cursor
import DvbHost.Proofs.Checked.Number

/-!
# Dates and times with faults

The conversions of dates and times in words of 8 to 64 bits. The day count has 16 bits and the
parts of a date have 8 or 16, so nothing comes near the bounds of a word.
-/

namespace DvbHost.Checked

set_option autoImplicit false

open Checked

theorem signed64_eq {n : Int} (h : -9223372036854775808 ≤ n ∧ n < 9223372036854775808) :
    signed 64 n = .ok n :=
  signed_eq h.1 h.2

/-! ## Durations -/

/-- Minutes of hours and minutes, in 16 bits. -/
def minutes (h m : UInt8) : Checked Nat := do
  let hours ← word 16 ((← digits h) * 60)
  word 16 (hours + (← digits m))

theorem minutes_eq (h m : UInt8) : minutes h m = .ok (Bcd.minutes h m) := by
  have hh := value_le h
  have hm := value_le m
  rw [minutes, digits_eq, digits_eq, ok_bind, word_eq (by omega), ok_bind, ok_bind]
  exact word_eq (by omega)

theorem minutes_lt (h m : UInt8) : Bcd.minutes h m < 2 ^ 16 := by
  have hh := value_le h
  have hm := value_le m
  rw [Bcd.minutes]
  omega

/-- Seconds of hours, minutes and seconds, in 32 bits. -/
def duration (h m s : UInt8) : Checked Nat := do
  let hours ← word 32 ((← digits h) * 3600)
  let minutes ← word 32 ((← digits m) * 60)
  let both ← word 32 (hours + minutes)
  word 32 (both + (← digits s))

theorem duration_eq (h m s : UInt8) : duration h m s = .ok (Bcd.duration h m s) := by
  have hh := value_le h
  have hm := value_le m
  have hs := value_le s
  rw [duration, digits_eq, digits_eq, digits_eq, ok_bind, word_eq (by omega), ok_bind, ok_bind,
    word_eq (by omega), ok_bind, word_eq (by omega), ok_bind, ok_bind]
  exact word_eq (by omega)

/-! ## Dates -/

/-- The date of a day count. The mean years and months are found with floating point numbers, which
do not fault. -/
def ofDay (mjd : Nat) : Checked Date := do
  let y := Date.yearsBefore mjd
  let m := Date.monthsBefore mjd y
  let fromEpoch ← signed 64 (mjd - 14956)
  let fromYear ← signed 64 (fromEpoch - Date.daysOfYears y)
  let day ← signed 64 (fromYear - Date.daysOfMonths m)
  let k : Int := if m = 14 ∨ m = 15 then 1 else 0
  let year ← signed 64 (y + k)
  let before ← signed 64 (m - 1)
  let shift ← signed 64 (k * 12)
  let month ← signed 64 (before - shift)
  let weekday ← word 32 ((← word 32 (mjd + 2)) % 7 + 1)
  return {
    year := UInt16.ofNat (Date.clamp 0xFFFF year)
    month := UInt8.ofNat (Date.clamp 12 month)
    dayOfMonth := UInt8.ofNat (Date.clamp 31 day)
    weekday := UInt8.ofNat weekday }

/-- The day count of a date. -/
def day (d : Date) : Checked Nat := do
  let l : Int := if d.month.toNat ≤ 2 then 1 else 0
  let y ← signed 64 (d.year.toNat - l)
  let next ← signed 64 (d.month.toNat + 1)
  let shift ← signed 64 (l * 12)
  let m ← signed 64 (next + shift)
  let base ← signed 64 (14956 + d.dayOfMonth.toNat)
  let years ← signed 64 (y * 1461)
  let months ← signed 64 (m * 306001)
  let toYear ← signed 64 (base + years.tdiv 4)
  let total ← signed 64 (toYear + months.tdiv 10000)
  return Date.clamp 0xFFFF total

/-- A quotient that is cut toward zero lies between the quotients of the bounds. -/
theorem tdiv_bounds {n d bound : Int} (hd : 0 < d) (hlow : -(bound * d) ≤ n)
    (hhigh : n ≤ bound * d) : -bound ≤ n.tdiv d ∧ n.tdiv d ≤ bound := by
  obtain ⟨b, rfl⟩ : ∃ b : Nat, (b : Int) = bound :=
    ⟨bound.toNat, Int.toNat_of_nonneg (by nlinarith)⟩
  have habs : n.natAbs ≤ b * d.natAbs := by
    zify
    rw [abs_of_pos hd]
    exact abs_le.mpr ⟨hlow, hhigh⟩
  have hquotient : (n.tdiv d).natAbs ≤ b := by
    rw [Int.natAbs_tdiv]
    exact Nat.div_le_of_le_mul (by rwa [Nat.mul_comm])
  omega

theorem daysOfYears_bounds {y : Int} (hlow : -70000 ≤ y) (hhigh : y ≤ 70000) :
    -25567500 ≤ Date.daysOfYears y ∧ Date.daysOfYears y ≤ 25567500 :=
  tdiv_bounds (by decide) (by omega) (by omega)

theorem daysOfMonths_bounds {m : Int} (hlow : -840000 ≤ m) (hhigh : m ≤ 840000) :
    -25704084 ≤ Date.daysOfMonths m ∧ Date.daysOfMonths m ≤ 25704084 :=
  tdiv_bounds (by decide) (by omega) (by omega)

/-- The years and months of a day count of 16 bits, far inside of every word. -/
theorem monthsBefore_bounds {mjd : Nat} (h : mjd < 0x10000) :
    (-70000 ≤ Date.yearsBefore mjd ∧ Date.yearsBefore mjd ≤ 70000) ∧
      -840000 ≤ Date.monthsBefore mjd (Date.yearsBefore mjd) ∧
      Date.monthsBefore mjd (Date.yearsBefore mjd) ≤ 840000 := by
  have hy : -70000 ≤ Date.yearsBefore mjd ∧ Date.yearsBefore mjd ≤ 70000 :=
    tdiv_bounds (by decide) (by omega) (by omega)
  obtain ⟨hlow, hhigh⟩ := daysOfYears_bounds hy.1 hy.2
  exact ⟨hy, tdiv_bounds (by decide) (by omega) (by omega)⟩

theorem ofDay_eq {mjd : Nat} (h : mjd < 0x10000) : ofDay mjd = .ok (Date.ofDay mjd) := by
  obtain ⟨⟨hy, hy'⟩, hm, hm'⟩ := monthsBefore_bounds h
  obtain ⟨hyears, hyears'⟩ := daysOfYears_bounds hy hy'
  obtain ⟨hmonths, hmonths'⟩ := daysOfMonths_bounds hm hm'
  rw [ofDay, Date.ofDay]
  generalize Date.monthsBefore mjd (Date.yearsBefore mjd) = m at *
  generalize Date.yearsBefore mjd = y at *
  have hk : (if m = 14 ∨ m = 15 then (1 : Int) else 0) = 0 ∨
      (if m = 14 ∨ m = 15 then (1 : Int) else 0) = 1 := by split <;> simp
  generalize (if m = 14 ∨ m = 15 then (1 : Int) else 0) = k at *
  dsimp only
  rw [signed64_eq (by omega), ok_bind, signed64_eq (by omega), ok_bind, signed64_eq (by omega),
    ok_bind, signed64_eq (by omega), ok_bind, signed64_eq (by omega), ok_bind,
    signed64_eq (by omega), ok_bind, signed64_eq (by omega), ok_bind, word_eq (by omega), ok_bind,
    word_eq (by omega), ok_bind]
  rfl

theorem day_eq (d : Date) : day d = .ok d.day := by
  have hyear := d.year.toNat_lt
  have hmonth := d.month.toNat_lt
  have hday := d.dayOfMonth.toNat_lt
  rw [day, Date.day]
  have hl : (if d.month.toNat ≤ 2 then (1 : Int) else 0) = 0 ∨
      (if d.month.toNat ≤ 2 then (1 : Int) else 0) = 1 := by split <;> simp
  generalize (if d.month.toNat ≤ 2 then (1 : Int) else 0) = l at *
  obtain ⟨hyears, hyears'⟩ := daysOfYears_bounds (y := d.year.toNat - l) (by omega) (by omega)
  obtain ⟨hmonths, hmonths'⟩ := daysOfMonths_bounds (m := d.month.toNat + 1 + l * 12) (by omega)
    (by omega)
  rw [Date.daysOfYears] at *
  rw [Date.daysOfMonths] at *
  rw [signed64_eq (by omega), ok_bind, signed64_eq (by omega), ok_bind, signed64_eq (by omega),
    ok_bind, signed64_eq (by omega), ok_bind, signed64_eq (by omega), ok_bind,
    signed64_eq (by omega), ok_bind, signed64_eq (by omega), ok_bind, signed64_eq (by omega),
    ok_bind, signed64_eq (by omega), ok_bind]
  rfl

/-- A number of two places, each computed in an octet. -/
def twoPlaces (n : UInt8) : Checked String := do
  let tens ← word 8 (48 + n.toNat / 10)
  let units ← word 8 (48 + n.toNat % 10)
  return String.ofList [Char.ofNat tens, Char.ofNat units]

theorem twoPlaces_eq (n : UInt8) : twoPlaces n = .ok (Numeral.twoPlaces n) := by
  have hn := n.toNat_lt
  rw [twoPlaces, word_eq (by omega), ok_bind, word_eq (by omega), ok_bind]
  rfl

/-- The text of a date. -/
def dateText (d : Date) : Checked String := do
  let year ← word 32 (1900 + d.year.toNat)
  let month ← twoPlaces d.month
  let dayOfMonth ← twoPlaces d.dayOfMonth
  return toString year ++ "-" ++ month ++ "-" ++ dayOfMonth

theorem dateText_eq (d : Date) : dateText d = .ok d.text := by
  have hyear := d.year.toNat_lt
  rw [dateText, word_eq (by omega), twoPlaces_eq, twoPlaces_eq]
  rfl

/-! ## Times -/

/-- A date with a time of day, from five octets. -/
def dateTime (bs : Bytes) : Checked DateTime := do
  let mjd ← number 2 [← octet bs 0, ← octet bs 1]
  let date ← ofDay (UInt16.ofNat mjd).toNat
  let hour ← digits (← octet bs 2)
  let minute ← digits (← octet bs 3)
  let second ← digits (← octet bs 4)
  return ⟨date, UInt8.ofNat hour, UInt8.ofNat minute, UInt8.ofNat second⟩

theorem dateTime_eq (a b h m s : UInt8) :
    dateTime [a, b, h, m, s] = .ok ⟨Date.ofDay (UInt16.ofNat (Bytes.number [a, b])).toNat,
      UInt8.ofNat (Bcd.value h), UInt8.ofNat (Bcd.value m), UInt8.ofNat (Bcd.value s)⟩ := by
  change (number 2 [a, b] >>= fun mjd => ofDay (UInt16.ofNat mjd).toNat >>= fun date =>
    digits h >>= fun hour => digits m >>= fun minute => digits s >>= fun second =>
      pure (⟨date, UInt8.ofNat hour, UInt8.ofNat minute, UInt8.ofNat second⟩ : DateTime)) = _
  rw [number_eq (show [a, b].length = 2 from rfl), ok_bind, ofDay_eq (UInt16.toNat_lt _),
    digits_eq, digits_eq, digits_eq]
  rfl

/-- Seconds since 1970. -/
def unixTime (t : DateTime) : Checked Int := do
  let days ← signed 64 ((← day t.date) - DateTime.unixEpochDay)
  let ofDays ← signed 64 (days * 86400)
  let ofHours ← signed 64 (t.hour.toNat * 3600)
  let toHours ← signed 64 (ofDays + ofHours)
  let ofMinutes ← signed 64 (t.minute.toNat * 60)
  let toMinutes ← signed 64 (toHours + ofMinutes)
  signed 64 (toMinutes + t.second.toNat)

theorem unixTime_eq (t : DateTime) : unixTime t = .ok t.toUnix := by
  have hdate : t.date.day ≤ 0xFFFF := Nat.min_le_right _ _
  have hhour := t.hour.toNat_lt
  have hminute := t.minute.toNat_lt
  have hsecond := t.second.toNat_lt
  rw [unixTime, DateTime.toUnix, DateTime.unixEpochDay, day_eq, ok_bind, signed64_eq (by omega),
    ok_bind, signed64_eq (by omega), ok_bind, signed64_eq (by omega), ok_bind,
    signed64_eq (by omega), ok_bind, signed64_eq (by omega), ok_bind, signed64_eq (by omega),
    ok_bind]
  exact signed64_eq (by omega)

/-- The text of a time. -/
def timeText (t : DateTime) : Checked String := do
  let date ← dateText t.date
  let hour ← twoPlaces t.hour
  let minute ← twoPlaces t.minute
  let second ← twoPlaces t.second
  return date ++ " " ++ hour ++ ":" ++ minute ++ ":" ++ second

theorem timeText_eq (t : DateTime) : timeText t = .ok t.text := by
  rw [timeText, dateText_eq, twoPlaces_eq, twoPlaces_eq, twoPlaces_eq]
  rfl

/-- Seconds since 1970, of a clock without leap seconds. -/
def gpsTime (t : GpsTime) (leap : UInt8) : Checked Int := do
  signed 64 ((← signed 64 (t.seconds.toNat + 315964800)) - leap.toNat)

theorem gpsTime_eq (t : GpsTime) (leap : UInt8) : gpsTime t leap = .ok (t.toUnix leap) := by
  have hseconds := t.seconds.toNat_lt
  have hleap := leap.toNat_lt
  rw [gpsTime, signed64_eq (by omega), ok_bind]
  exact signed64_eq (by omega)

end DvbHost.Checked
