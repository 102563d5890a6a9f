import DvbHost.Bytes
import DvbHost.Text.Scalar

/-!
# UTF-16 with replacement

A surrogate that is not part of a pair becomes one replacement character.
-/

namespace DvbHost.Text.Utf16

set_option autoImplicit false

def isHigh (u : Nat) : Bool := 0xD800 ≤ u && u < 0xDC00

def isLow (u : Nat) : Bool := 0xDC00 ≤ u && u < 0xE000

/-- The character that a high and a low surrogate stand for together. -/
def pair (high low : Nat) : Char :=
  Char.ofNat (0x10000 + (high - 0xD800) * 0x400 + (low - 0xDC00))

def decode : List Nat → List Char
  | [] => []
  | [u] => [scalar u]
  | u :: v :: rest =>
    if isHigh u && isLow v then pair u v :: decode rest
    else scalar u :: decode (v :: rest)

/-- The 16-bit units of a byte string; an odd octet at the end is left out. -/
def units : Bytes → List Nat
  | h :: l :: rest => (h.toNat * 256 + l.toNat) :: units rest
  | _ => []

end DvbHost.Text.Utf16
