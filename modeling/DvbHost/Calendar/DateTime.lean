import DvbHost.Calendar.Date
import DvbHost.Calendar.Bcd

/-!
# Dates with a time of day

Five octets: the day count, then hours, minutes and seconds in decimal digits. Seconds since 1970
and the seconds of the GPS clock convert to and from them.
-/

namespace DvbHost

set_option autoImplicit false

structure DateTime where
  date : Date
  hour : UInt8
  minute : UInt8
  second : UInt8
  deriving DecidableEq

namespace DateTime

/-- The day count of 1970-01-01. -/
def unixEpochDay : Int := 40587

def read : Cursor DateTime := do
  let date ← Date.read
  let h ← Cursor.u8
  let m ← Cursor.u8
  let s ← Cursor.u8
  return ⟨date, UInt8.ofNat (Bcd.value h), UInt8.ofNat (Bcd.value m), UInt8.ofNat (Bcd.value s)⟩

def toBytes (t : DateTime) : Bytes :=
  t.date.toBytes ++ [t.hour, t.minute, t.second].map fun n => Bcd.ofNat n.toNat

/-- The date and time of a count of seconds since 1970; days outside the range are cut. -/
def ofUnix (secs : Int) : DateTime :=
  let ofDay := (secs.emod 86400).toNat
  { date := Date.ofDay (Date.clamp 0xFFFF (secs.ediv 86400 + unixEpochDay))
    hour := UInt8.ofNat (ofDay / 3600)
    minute := UInt8.ofNat (ofDay / 60 % 60)
    second := UInt8.ofNat (ofDay % 60) }

def toUnix (t : DateTime) : Int :=
  (t.date.day - unixEpochDay) * 86400 + t.hour.toNat * 3600 + t.minute.toNat * 60 + t.second.toNat

def text (t : DateTime) : String :=
  t.date.text ++ " " ++ Numeral.twoPlaces t.hour ++ ":" ++ Numeral.twoPlaces t.minute ++ ":"
    ++ Numeral.twoPlaces t.second

end DateTime

/-- Seconds since 1980-01-06 on a clock without leap seconds. -/
structure GpsTime where
  seconds : UInt32
  deriving DecidableEq

/-- Seconds since 1970, given how far the leap seconds have put the clocks apart. -/
def GpsTime.toUnix (t : GpsTime) (leap : UInt8) : Int :=
  t.seconds.toNat + 315964800 - leap.toNat

end DvbHost
