import DvbHost.Bytes

/-!
# Numerals

Hexadecimal numbers with upper-case digits and leading zeros, and two-place decimal fields.
-/

namespace DvbHost.Numeral

set_option autoImplicit false

/-- A digit of base 16, upper case. -/
def hexDigit (n : Nat) : Char :=
  if n % 16 < 10 then Char.ofNat (48 + n % 16) else Char.ofNat (55 + n % 16)

/-- The digits of `n` in base 16, at least `width` of them. -/
def hex (width n : Nat) : String :=
  let digits := Nat.toDigits 16 n
  String.ofList (List.replicate (width - digits.length) '0' ++ digits.map Char.toUpper)

/-- `hex` after the mark `0x`. -/
def hexMarked (width n : Nat) : String := "0x" ++ hex width n

/-- Two places of a decimal number. The tens place is not cut to one digit: from 100 on it is the
character that many code points after `'0'`. -/
def twoPlaces (n : UInt8) : String :=
  String.ofList [Char.ofNat (48 + n.toNat / 10), Char.ofNat (48 + n.toNat % 10)]

end DvbHost.Numeral
