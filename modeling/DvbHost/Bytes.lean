/-!
# Byte strings, numbers and bit fields

A byte string is a list of octets. The numbers of every format in this library are written most
significant octet first: `number` reads such a field and `ofNumber` writes one of a given width.
Bit fields are cut out of numbers arithmetically, so that their laws are laws of quotients.
-/

namespace DvbHost

set_option autoImplicit false

abbrev Bytes := List UInt8

namespace Bytes

/-- The number a byte string writes, most significant octet first. -/
def number (bs : Bytes) : Nat :=
  bs.foldl (fun acc b => acc * 256 + b.toNat) 0

/-- The low `width` octets of `n`, most significant first. -/
def ofNumber : (width : Nat) → (n : Nat) → Bytes
  | 0, _ => []
  | width + 1, n => ofNumber width (n / 256) ++ [UInt8.ofNat n]

@[simp] theorem length_ofNumber (width n : Nat) : (ofNumber width n).length = width := by
  induction width generalizing n with
  | zero => rfl
  | succ width ih => simp [ofNumber, ih]

def ofUInt16 (w : UInt16) : Bytes := ofNumber 2 w.toNat

def ofUInt32 (w : UInt32) : Bytes := ofNumber 4 w.toNat

/-- The first `n` octets and what follows them, if there are that many. -/
def split? (n : Nat) (bs : Bytes) : Option (Bytes × Bytes) :=
  if n ≤ bs.length then some (bs.take n, bs.drop n) else none

/-- Cuts off `n` octets `count` times. -/
def cut (n : Nat) : (count : Nat) → Bytes → List Bytes
  | 0, _ => []
  | count + 1, bs => bs.take n :: cut n count (bs.drop n)

/-- A byte string in parts of `n` octets, if it is a whole number of them. -/
def parts? (n : Nat) (bs : Bytes) : Option (List Bytes) :=
  if bs.length % n = 0 then some (cut n (bs.length / n) bs) else none

end Bytes

/-- The `width` bits of `n` from bit `low` upwards, as a number. -/
def bits (low width n : Nat) : Nat := n / Nat.pow 2 low % Nat.pow 2 width

namespace Octet

/-- The `width` bits of an octet from bit `low` upwards; bit 0 is the least significant. -/
def field (low width : Nat) (b : UInt8) : UInt8 := UInt8.ofNat (bits low width b.toNat)

def flag (i : Nat) (b : UInt8) : Bool := b.toNat.testBit i

end Octet

/-- The weight of bit `i` if the flag is set. -/
def flagWeight (i : Nat) (b : Bool) : Nat := if b then Nat.pow 2 i else 0

end DvbHost
