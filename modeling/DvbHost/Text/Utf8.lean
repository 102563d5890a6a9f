import DvbHost.Bytes
import DvbHost.Text.Scalar

/-!
# UTF-8 with replacement

A decoder that never fails: each maximal beginning of a character that is not continued as a
character must be becomes one replacement character, and so does each octet that begins none.
-/

namespace DvbHost.Text.Utf8

set_option autoImplicit false

/-- A character under way: the bits so far, how many octets are owed, and the range of the next. -/
structure Pending where
  value : Nat
  owed : Nat
  low : Nat
  high : Nat

/-- What an octet between two characters gives: characters at once, or one under way. -/
def start (b : Nat) : List Char × Option Pending :=
  if b < 0x80 then ([Char.ofNat b], none)
  else if 0xC2 ≤ b ∧ b ≤ 0xDF then ([], some ⟨b % 32, 1, 0x80, 0xBF⟩)
  else if b = 0xE0 then ([], some ⟨0, 2, 0xA0, 0xBF⟩)
  else if b = 0xED then ([], some ⟨0xD, 2, 0x80, 0x9F⟩)
  else if 0xE1 ≤ b ∧ b ≤ 0xEF then ([], some ⟨b % 16, 2, 0x80, 0xBF⟩)
  else if b = 0xF0 then ([], some ⟨0, 3, 0x90, 0xBF⟩)
  else if 0xF1 ≤ b ∧ b ≤ 0xF3 then ([], some ⟨b % 8, 3, 0x80, 0xBF⟩)
  else if b = 0xF4 then ([], some ⟨4, 3, 0x80, 0x8F⟩)
  else ([replacement], none)

/-- What an octet gives while a character is under way: it continues the character, or the
character is broken and the octet counts as one between characters. -/
def advance (p : Pending) (b : Nat) : List Char × Option Pending :=
  if p.low ≤ b ∧ b ≤ p.high then
    let value := p.value * 64 + b % 64
    if p.owed ≤ 1 then ([Char.ofNat value], none)
    else ([], some ⟨value, p.owed - 1, 0x80, 0xBF⟩)
  else
    (replacement :: (start b).1, (start b).2)

def decodeFrom : Option Pending → Bytes → List Char
  | none, [] => []
  | some _, [] => [replacement]
  | none, b :: bs => (start b.toNat).1 ++ decodeFrom (start b.toNat).2 bs
  | some p, b :: bs => (advance p b.toNat).1 ++ decodeFrom (advance p b.toNat).2 bs

def decode (bs : Bytes) : List Char := decodeFrom none bs

end DvbHost.Text.Utf8
