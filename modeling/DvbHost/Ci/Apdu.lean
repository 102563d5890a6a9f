import DvbHost.Ci.Length
import DvbHost.Text.Numeral

/-!
# Application units

An APDU is a tag of three octets, a length field and a body. Several of them stand one after the
other in one session message; `items` reads them in order and ends with the first that is
malformed.
-/

namespace DvbHost.Ci

set_option autoImplicit false

structure Apdu where
  /-- 24 bits. -/
  tag : Nat
  data : Bytes
  deriving DecidableEq

namespace Apdu

/-- The unit at the front of a byte string, and what follows it. -/
def read : Bytes → Except CiError (Apdu × Bytes)
  | t1 :: t2 :: t3 :: tail =>
    match Length.split tail with
    | .error e => .error e
    | .ok (data, tail) => .ok (⟨Bytes.number [t1, t2, t3], data⟩, tail)
  | _ => .error .truncatedData

/-- At most `fuel` items. -/
def itemsWithin : (fuel : Nat) → Bytes → List (Except CiError Apdu)
  | 0, _ => []
  | _ + 1, [] => []
  | fuel + 1, data =>
    match read data with
    | .error e => [.error e]
    | .ok (apdu, tail) => .ok apdu :: itemsWithin fuel tail

/-- The units of a byte string in order. A malformed one is an error and ends the list. A unit has
at least four octets, so the number of octets bounds the number of items. -/
def items (data : Bytes) : List (Except CiError Apdu) := itemsWithin data.length data

def encode (tag : Nat) (data : Bytes) : Except CiError Bytes :=
  if tag < 0x1000000 then do
    return Bytes.ofNumber 3 tag ++ (← Length.encode data.length) ++ data
  else .error (.protocolViolation .apduTag)

/-- The unit on one line: its tag in hexadecimal, its octets in decimal. -/
def text (a : Apdu) : String :=
  let octets := ", ".intercalate (a.data.map fun b => toString b.toNat)
  "Apdu \x7b tag: " ++ Numeral.hexMarked 6 a.tag ++ ", data: [" ++ octets ++ "] \x7d"

end Apdu

end DvbHost.Ci
