import DvbHost.Bytes.Cursor

/-!
# Dates as modified Julian days

A date of service information is a count of days. `ofDay` and `day` are the conversion formulas of
the broadcasting standard, in exact integer arithmetic with quotients cut toward zero.
-/

namespace DvbHost

set_option autoImplicit false

structure Date where
  /-- Years after 1900. -/
  year : UInt16
  month : UInt8
  dayOfMonth : UInt8
  /-- 1 for Monday to 7 for Sunday. -/
  weekday : UInt8
  deriving DecidableEq

namespace Date

/-- The nearest number of `0..most`. -/
def clamp (most : Nat) (n : Int) : Nat := min n.toNat most

/-- The years before a day, by the mean year of 365.25 days. -/
def yearsBefore (mjd : Int) : Int := (mjd * 100 - 1507820).tdiv 36525

/-- The days of that many mean years. -/
def daysOfYears (y : Int) : Int := (y * 1461).tdiv 4

/-- The months before a day, by the mean month of 30.6001 days, counted from March. -/
def monthsBefore (mjd y : Int) : Int :=
  ((mjd * 10 - 149561 - daysOfYears y * 10) * 1000).tdiv 306001

/-- The days of that many mean months. -/
def daysOfMonths (m : Int) : Int := (m * 306001).tdiv 10000

/-- The date of a day count. -/
def ofDay (mjd : Nat) : Date :=
  let y := yearsBefore mjd
  let m := monthsBefore mjd y
  let k := if m = 14 ∨ m = 15 then 1 else 0
  { year := UInt16.ofNat (clamp 0xFFFF (y + k))
    month := UInt8.ofNat (clamp 12 (m - 1 - k * 12))
    dayOfMonth := UInt8.ofNat (clamp 31 (mjd - 14956 - daysOfYears y - daysOfMonths m))
    weekday := UInt8.ofNat ((mjd + 2) % 7 + 1) }

/-- The day count of a date, cut to 16 bits' range. -/
def day (d : Date) : Nat :=
  let l : Int := if d.month.toNat ≤ 2 then 1 else 0
  let y : Int := d.year.toNat - l
  let m : Int := d.month.toNat + 1 + l * 12
  clamp 0xFFFF (14956 + d.dayOfMonth.toNat + daysOfYears y + daysOfMonths m)

def toBytes (d : Date) : Bytes := Bytes.ofNumber 2 d.day

def read : Cursor Date := do return ofDay (← Cursor.u16).toNat

def text (d : Date) : String :=
  toString (1900 + d.year.toNat) ++ "-" ++ Numeral.twoPlaces d.month ++ "-"
    ++ Numeral.twoPlaces d.dayOfMonth

end Date

end DvbHost
