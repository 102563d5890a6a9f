import DvbHost.Bytes
import DvbHost.Ci.Error

/-!
# Length fields

The units of the transport and application layers state the length of their body in a field of
one to five octets. A length below 128 is its own octet; a larger one is the count of its octets,
marked by the top bit, and then those octets. Writing uses the fewest octets; reading accepts any
number from one to four.
-/

namespace DvbHost.Ci.Length

set_option autoImplicit false

/-- The fewest octets that hold a number below `2 ^ 32`. -/
def width (n : Nat) : Nat :=
  if n < 0x100 then 1 else if n < 0x10000 then 2 else if n < 0x1000000 then 3 else 4

def encode (n : Nat) : Except CiError Bytes :=
  if n < 0x80 then .ok [UInt8.ofNat n]
  else if n < 0x100000000 then .ok (UInt8.ofNat (0x80 + width n) :: Bytes.ofNumber (width n) n)
  else .error .lengthMismatch

/-- The length at the front of a byte string, and how many octets state it. -/
def decode : Bytes → Except CiError (Nat × Nat)
  | [] => .error .truncatedData
  | first :: tail =>
    if first.toNat < 0x80 then .ok (first.toNat, 1)
    else
      let count := first.toNat - 0x80
      if count = 0 ∨ 4 < count then .error (.protocolViolation .lengthField)
      else
        match Bytes.split? count tail with
        | none => .error .truncatedData
        | some (field, _) => .ok (field.number, 1 + count)

/-- The body after a length field, and what follows the body. -/
def split (data : Bytes) : Except CiError (Bytes × Bytes) :=
  match decode data with
  | .error e => .error e
  | .ok (n, used) =>
    match Bytes.split? n (data.drop used) with
    | none => .error .truncatedData
    | some parts => .ok parts

end DvbHost.Ci.Length
