import DvbHost.Text.Numeral

/-!
# The Gregorian calendar

Dates of the Gregorian calendar, extended to all days, as counts of days since 1970-01-01. A year
is taken to begin in March, so that its leap day is its last.
-/

namespace DvbHost.Gregorian

set_option autoImplicit false

structure Day where
  year : Int
  month : Nat
  day : Nat
  deriving DecidableEq

/-- Days of an era of 400 years. -/
def eraDays : Int := 146097

/-- The day count of 1970-01-01 from 0000-03-01. -/
def epoch : Int := 719468

/-- The date of a day count. -/
def ofDays (days : Int) : Day :=
  let era := (days + epoch).fdiv eraDays
  let dayOfEra := ((days + epoch).fmod eraDays).toNat
  let yearOfEra := (dayOfEra - dayOfEra / 1460 + dayOfEra / 36524 - dayOfEra / 146096) / 365
  let dayOfYear := dayOfEra - (365 * yearOfEra + yearOfEra / 4 - yearOfEra / 100)
  let shifted := (5 * dayOfYear + 2) / 153
  let month := if shifted < 10 then shifted + 3 else shifted - 9
  { year := yearOfEra + era * 400 + if month ≤ 2 then 1 else 0
    month := month
    day := dayOfYear - (153 * shifted + 2) / 5 + 1 }

/-- A decimal number with at least `width` digits. -/
def padded (width n : Nat) : String :=
  let digits := toString n
  String.ofList (List.replicate (width - digits.length) '0') ++ digits

/-- The date and time of a count of seconds since 1970, in universal time. Years before the first
are not meant to be shown. -/
def timestamp (secs : Int) : String :=
  let d := ofDays (secs.fdiv 86400)
  let s := (secs.fmod 86400).toNat
  padded 4 d.year.toNat ++ "-" ++ padded 2 d.month ++ "-" ++ padded 2 d.day ++ " "
    ++ padded 2 (s / 3600) ++ ":" ++ padded 2 (s / 60 % 60) ++ ":" ++ padded 2 (s % 60) ++ " UTC"

end DvbHost.Gregorian
