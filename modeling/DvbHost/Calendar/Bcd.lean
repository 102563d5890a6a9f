import DvbHost.Bytes

/-!
# Decimal digits in octets

Two decimal digits to an octet. A half octet above 9 is not refused; it counts as its value.
-/

namespace DvbHost.Bcd

set_option autoImplicit false

/-- The number an octet writes, its halves as digits. -/
def value (b : UInt8) : Nat := b.toNat / 16 * 10 + b.toNat % 16

/-- The octet that writes `n`; of a tens place past 15 only the low four bits are kept. -/
def ofNat (n : Nat) : UInt8 := UInt8.ofNat (n / 10 % 16 * 16 + n % 10)

/-- The half octets of a byte string, the upper half of each first. -/
def halves (bs : Bytes) : List Nat := bs.flatMap fun b => [b.toNat / 16, b.toNat % 16]

/-- The number that the first `count` half octets write in base ten. -/
def number (count : Nat) (bs : Bytes) : Nat :=
  ((halves bs).take count).foldl (fun acc d => acc * 10 + d) 0

/-- Seconds of a duration written as hours, minutes and seconds. -/
def duration (h m s : UInt8) : Nat := value h * 3600 + value m * 60 + value s

/-- The longest duration that three octets of two digits write: 99:59:59. -/
def maxDuration : Nat := 99 * 3600 + 59 * 60 + 59

/-- Hours, minutes and seconds of a duration; a longer one than can be written is cut. -/
def ofDuration (secs : Nat) : Bytes :=
  let secs := min secs maxDuration
  [ofNat (secs / 3600), ofNat (secs / 60 % 60), ofNat (secs % 60)]

/-- Minutes of a time written as hours and minutes. -/
def minutes (h m : UInt8) : Nat := value h * 60 + value m

end DvbHost.Bcd
