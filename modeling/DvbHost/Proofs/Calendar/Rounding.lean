import DvbHost.Proofs.Calendar.Rewriting

/-!
# Dates found with rounded numbers

The conversion of a day count may be done with numbers of 53 bits, each result rounded to the
nearest of them. From 1900-03-01 on the quotients, and the days of whole months, keep a distance
from whole numbers that is far beyond the errors, so they are cut to the same whole numbers as the
exact ones and the date is the same. The range of the exponents is left out: every number here is
below 2¹⁷.
-/

namespace DvbHost

set_option autoImplicit false

namespace Rounding

/-- The nearest whole number, the even one of two that are as near. -/
def whole (x : ℚ) : ℤ :=
  if Int.fract x < 1 / 2 ∨ Int.fract x = 1 / 2 ∧ Even ⌊x⌋ then ⌊x⌋ else ⌊x⌋ + 1

/-- The weight of the last of 53 bits. -/
def lastPlace (x : ℚ) : ℚ := 2 ^ (Int.log 2 |x| - 52)

/-- The nearest number of 53 bits. -/
def rounded (x : ℚ) : ℚ := whole (x / lastPlace x) * lastPlace x

/-- A number cut toward zero. -/
def cut (x : ℚ) : ℤ := if 0 ≤ x then ⌊x⌋ else ⌈x⌉

theorem lastPlace_pos (x : ℚ) : 0 < lastPlace x := zpow_pos (by norm_num) _

theorem whole_near (x : ℚ) : |(whole x : ℚ) - x| ≤ 1 / 2 := by
  have hfract := Int.floor_add_fract x
  have hnonneg := Int.fract_nonneg x
  have hlt := Int.fract_lt_one x
  rw [whole, abs_le]
  split
  · next h =>
    have hhalf : Int.fract x ≤ 1 / 2 := h.elim le_of_lt fun h => le_of_eq h.1
    constructor <;> linarith
  · next h =>
    have hhalf : 1 / 2 ≤ Int.fract x := not_lt.mp fun hlow => h (.inl hlow)
    push_cast
    constructor <;> linarith

theorem whole_intCast (z : ℤ) : whole z = z := by
  rw [whole, if_pos (.inl (by rw [Int.fract_intCast]; norm_num)), Int.floor_intCast]

theorem rounded_near (x : ℚ) : |rounded x - x| ≤ lastPlace x / 2 := by
  have hpos := lastPlace_pos x
  have hsplit : rounded x - x = (whole (x / lastPlace x) - x / lastPlace x) * lastPlace x := by
    rw [rounded, sub_mul, div_mul_cancel₀ _ hpos.ne']
  rw [hsplit, abs_mul, abs_of_pos hpos]
  have h := mul_le_mul_of_nonneg_right (whole_near (x / lastPlace x)) hpos.le
  linarith

theorem log_lt {x : ℚ} {e : ℕ} (he : 0 < e) (hx : |x| < 2 ^ e) : Int.log 2 |x| < e := by
  by_cases hzero : x = 0
  · rw [hzero, abs_zero, Int.log_zero_right]
    exact_mod_cast he
  · rw [← Int.lt_zpow_iff_log_lt Nat.one_lt_two (abs_pos.mpr hzero)]
    exact_mod_cast hx

/-- The bounds of a rounded number, the number being below 2¹⁷. -/
theorem rounded_bounds {x : ℚ} (hlow : -2 ^ 17 < x) (hhigh : x < 2 ^ 17) :
    x - 1 / 2 ^ 37 ≤ rounded x ∧ rounded x ≤ x + 1 / 2 ^ 37 := by
  have hlog := log_lt (by decide) (abs_lt.mpr ⟨hlow, hhigh⟩)
  have hplace : lastPlace x ≤ 1 / 2 ^ 36 :=
    calc lastPlace x ≤ (2 : ℚ) ^ (-36 : ℤ) := zpow_le_zpow_right₀ (by norm_num) (by omega)
      _ = 1 / 2 ^ 36 := by norm_num
  have hnear := abs_le.mp (rounded_near x)
  constructor <;> linarith

/-- A whole number of quarters is a number of 53 bits. -/
theorem rounded_quarters {k : ℤ} (hk : |(k : ℚ) / 4| < 2 ^ 51) : rounded (k / 4) = k / 4 := by
  have hlog := log_lt (by decide) hk
  obtain ⟨e, he⟩ : ∃ e : ℕ, Int.log 2 |(k : ℚ) / 4| = 50 - e :=
    ⟨(50 - Int.log 2 |(k : ℚ) / 4|).toNat, by omega⟩
  have hplace : lastPlace (k / 4) = 1 / (4 * 2 ^ e) := by
    rw [lastPlace, he, show (50 - e - 52 : ℤ) = -2 - e by ring, zpow_sub₀ two_ne_zero,
      zpow_natCast]
    norm_num
    ring
  have hwhole : (k : ℚ) / 4 / lastPlace (k / 4) = (k * 2 ^ e : ℤ) := by
    rw [hplace]
    push_cast
    field_simp
  rw [rounded, hwhole, whole_intCast, ← hwhole, div_mul_cancel₀ _ (lastPlace_pos _).ne']

theorem cut_eq {x : ℚ} {n : ℕ} (hlow : n ≤ x) (hhigh : x < n + 1) : cut x = n := by
  have hnonneg : 0 ≤ x := (Nat.cast_nonneg n).trans hlow
  rw [cut, if_pos hnonneg, Int.floor_eq_iff]
  exact ⟨by exact_mod_cast hlow, by exact_mod_cast hhigh⟩

end Rounding

namespace Date

open Rounding

variable {n : Nat}

/-- The date of a day count, with quotients and products of 53 bits. -/
def ofDayRounded (mjd : Nat) : Date :=
  let y := cut (rounded (rounded (mjd - rounded 15078.2) / 365.25))
  let days := cut (rounded (y * 365.25))
  let m := cut (rounded (rounded (rounded (mjd - rounded 14956.1) - days) / rounded 30.6001))
  let k := if m = 14 ∨ m = 15 then 1 else 0
  { year := UInt16.ofNat (clamp 0xFFFF (y + k))
    month := UInt8.ofNat (clamp 12 (m - 1 - k * 12))
    dayOfMonth := UInt8.ofNat (clamp 31 (mjd - 14956 - days - cut (rounded (m * rounded 30.6001))))
    weekday := UInt8.ofNat ((mjd + 2) % 7 + 1) }

/-- The quotient of the years is never near a whole number. -/
theorem cut_years {y : Nat} (h : 15079 ≤ n) (hn : n < 0x10000)
    (hy : (n * 100 - 1507820) / 36525 = y) :
    cut (rounded (rounded (n - rounded 15078.2) / 365.25)) = y := by
  have hlow : (36525 * y + 1507820 + 5 : ℚ) ≤ n * 100 := by
    exact_mod_cast (by omega : 36525 * y + 1507820 + 5 ≤ n * 100)
  have hhigh : (n * 100 + 5 : ℚ) ≤ 36525 * (y + 1) + 1507820 := by
    exact_mod_cast (by omega : n * 100 + 5 ≤ 36525 * (y + 1) + 1507820)
  have hn1 : (15079 : ℚ) ≤ n := by exact_mod_cast h
  have hn2 : (n : ℚ) < 65536 := by exact_mod_cast hn
  rw [show (15078.2 : ℚ) = 75391 / 5 by norm_num, show (365.25 : ℚ) = 1461 / 4 by norm_num]
  obtain ⟨hbase, hbase'⟩ := rounded_bounds (x := 75391 / 5) (by norm_num) (by norm_num)
  generalize rounded (75391 / 5) = base at *
  obtain ⟨hdays, hdays'⟩ := rounded_bounds (x := n - base) (by linarith) (by linarith)
  generalize rounded (n - base) = days at *
  obtain ⟨hyears, hyears'⟩ := rounded_bounds (x := days / (1461 / 4)) (by linarith) (by linarith)
  apply cut_eq <;> linarith

/-- The days of whole years are whole quarters of days. -/
theorem cut_daysOfYears {y : Nat} (hy : y ≤ 138) :
    cut (rounded (y * 365.25)) = (365 * y + y / 4 : Nat) := by
  have hquarters : (y * 365.25 : ℚ) = ((1461 * y : ℤ) : ℚ) / 4 := by
    push_cast
    ring
  have hy' : (y : ℚ) ≤ 138 := by exact_mod_cast hy
  have hlow : (4 * (365 * y + y / 4 : Nat) : ℚ) ≤ 1461 * y := by
    exact_mod_cast (by omega : 4 * (365 * y + y / 4) ≤ 1461 * y)
  have hhigh : (1461 * y + 1 : ℚ) ≤ 4 * ((365 * y + y / 4 : Nat) + 1) := by
    exact_mod_cast (by omega : 1461 * y + 1 ≤ 4 * ((365 * y + y / 4) + 1))
  have hnonneg : (0 : ℚ) ≤ y := Nat.cast_nonneg y
  rw [hquarters, rounded_quarters (by push_cast; rw [abs_lt]; constructor <;> linarith)]
  push_cast at hlow hhigh ⊢
  apply cut_eq <;> push_cast <;> linarith

/-- Some mean months, the length of one being near 30.6001 days. -/
theorem months_near {m month : ℚ} (hm : 0 ≤ m) (hm' : m ≤ 16)
    (hlow : 306001 / 10000 - 1 / 2 ^ 37 ≤ month) (hhigh : month ≤ 306001 / 10000 + 1 / 2 ^ 37) :
    m * 306001 / 10000 - 1 / 2 ^ 33 ≤ m * month ∧ m * month ≤ m * 306001 / 10000 + 1 / 2 ^ 33 := by
  have h1 := mul_le_mul_of_nonneg_left hlow hm
  have h2 := mul_le_mul_of_nonneg_left hhigh hm
  constructor <;> linarith

/-- The quotient of the months is never near a whole number. -/
theorem cut_months {y q m : Nat} (hday : n = 14956 + (365 * y + y / 4) + q) (hn : n < 0x10000)
    (hq : 123 ≤ q) (hq' : q ≤ 488) (hm : (10 * q - 1) * 1000 / 306001 = m) :
    cut (rounded (rounded (rounded (n - rounded 14956.1) - (365 * y + y / 4 : Nat)) /
      rounded 30.6001)) = m := by
  have hm4 : 4 ≤ m := by omega
  have hm15 : m ≤ 15 := by omega
  have hlow : (306001 * m + 1001 : ℚ) ≤ 10000 * q := by
    exact_mod_cast (by interval_cases m <;> omega : 306001 * m + 1001 ≤ 10000 * q)
  have hhigh : (10000 * q + 1 : ℚ) ≤ 306001 * (m + 1) + 1000 := by
    exact_mod_cast (by interval_cases m <;> omega : 10000 * q + 1 ≤ 306001 * (m + 1) + 1000)
  have hnq : (n : ℚ) = 14956 + (365 * y + y / 4 : Nat) + q := by exact_mod_cast hday
  have hn2 : (n : ℚ) < 65536 := by exact_mod_cast hn
  have hq1 : (123 : ℚ) ≤ q := by exact_mod_cast hq
  have hq2 : (q : ℚ) ≤ 488 := by exact_mod_cast hq'
  have hm1 : (4 : ℚ) ≤ m := by exact_mod_cast hm4
  have hm2 : (m : ℚ) ≤ 15 := by exact_mod_cast hm15
  have hyears : (0 : ℚ) ≤ (365 * y + y / 4 : Nat) := Nat.cast_nonneg _
  generalize ((365 * y + y / 4 : Nat) : ℚ) = years at *
  rw [show (14956.1 : ℚ) = 149561 / 10 by norm_num, show (30.6001 : ℚ) = 306001 / 10000 by norm_num]
  obtain ⟨hbase, hbase'⟩ := rounded_bounds (x := 149561 / 10) (by norm_num) (by norm_num)
  generalize rounded (149561 / 10) = base at *
  obtain ⟨hmonth, hmonth'⟩ := rounded_bounds (x := 306001 / 10000) (by norm_num) (by norm_num)
  generalize rounded (306001 / 10000) = month at *
  obtain ⟨hdays, hdays'⟩ := rounded_bounds (x := n - base) (by linarith) (by linarith)
  generalize rounded (n - base) = days at *
  obtain ⟨hrest, hrest'⟩ := rounded_bounds (x := days - years) (by linarith) (by linarith)
  generalize rounded (days - years) = rest at *
  have hpos : 0 < month := by linarith
  have hbelow := months_near (m := m + 1 / 2 ^ 37) (by linarith) (by linarith) hmonth hmonth'
  have habove := months_near (m := m + 1 - 1 / 2 ^ 37) (by linarith) (by linarith) hmonth hmonth'
  have hge : m + 1 / 2 ^ 37 ≤ rest / month := by
    rw [le_div_iff₀ hpos]
    linarith
  have hlt : rest / month < m + 1 - 1 / 2 ^ 37 := by
    rw [div_lt_iff₀ hpos]
    linarith
  obtain ⟨hmonths, hmonths'⟩ := rounded_bounds (x := rest / month) (by linarith) (by linarith)
  apply cut_eq <;> linarith

/-- Nor are the days of whole months. -/
theorem cut_daysOfMonths {m : Nat} (hm4 : 4 ≤ m) (hm15 : m ≤ 15) :
    cut (rounded (m * rounded 30.6001)) = (m * 306001 / 10000 : Nat) := by
  have hlow : (10000 * (m * 306001 / 10000 : Nat) + 1 : ℚ) ≤ 306001 * m := by
    exact_mod_cast (by interval_cases m <;> decide :
      10000 * (m * 306001 / 10000) + 1 ≤ 306001 * m)
  have hhigh : (306001 * m + 1 : ℚ) ≤ 10000 * ((m * 306001 / 10000 : Nat) + 1) := by
    exact_mod_cast (by omega : 306001 * m + 1 ≤ 10000 * ((m * 306001 / 10000) + 1))
  have hm1 : (4 : ℚ) ≤ m := by exact_mod_cast hm4
  have hm2 : (m : ℚ) ≤ 15 := by exact_mod_cast hm15
  rw [show (30.6001 : ℚ) = 306001 / 10000 by norm_num]
  obtain ⟨hmonth, hmonth'⟩ := rounded_bounds (x := 306001 / 10000) (by norm_num) (by norm_num)
  generalize rounded (306001 / 10000) = month at *
  obtain ⟨hbelow, habove⟩ := months_near (m := m) (by linarith) (by linarith) hmonth hmonth'
  obtain ⟨hdays, hdays'⟩ := rounded_bounds (x := m * month) (by linarith) (by linarith)
  apply cut_eq <;> linarith

/-- Rounding changes no date from 1900-03-01 on. -/
theorem ofDayRounded_eq (h : 15079 ≤ n) (hn : n < 0x10000) : ofDayRounded n = ofDay n := by
  obtain ⟨y, m, k, hplace⟩ := exists_marchPlace h
  obtain ⟨⟨hm4, hm15⟩, ⟨hk1, hk31⟩, hday, hyears, hmonths⟩ := hplace
  have hlow : 122 ≤ m * 306001 / 10000 := by omega
  have hy138 : y ≤ 138 := by omega
  have hyear : (n * 100 - 1507820) / 36525 = y := by
    rw [yearsBefore, Int.tdiv_eq_ediv_of_nonneg (by omega)] at hyears
    omega
  have hmonth : (10 * (m * 306001 / 10000 + k) - 1) * 1000 / 306001 = m := by
    rw [monthsBefore, daysOfYears_ofNat, Int.tdiv_eq_ediv_of_nonneg (by omega)] at hmonths
    omega
  have hq : m * 306001 / 10000 + k ≤ 488 := by omega
  have hdaysOfYears : daysOfYears y = (365 * y + y / 4 : Nat) := by
    rw [daysOfYears_ofNat, Nat.cast_add, Nat.cast_mul, Nat.cast_ofNat]
  have hm := cut_months (y := y) (hday.trans (Nat.add_assoc ..)) hn
    (Nat.add_le_add hlow hk1) hq hmonth
  rw [ofDayRounded, ofDay, hyears, hmonths, hdaysOfYears, daysOfMonths_ofNat]
  simp only [cut_years h hn hyear, Int.cast_natCast, cut_daysOfYears hy138, hm,
    cut_daysOfMonths hm4 hm15]

end Date

end DvbHost
