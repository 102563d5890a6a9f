import DvbHost.Bytes.Cursor

/-!
# Language codes

A language is named by three octets, usually the letters of ISO 639-2. As text the octets outside
the printable ASCII range are escaped.
-/

namespace DvbHost

set_option autoImplicit false

structure Language where
  first : UInt8
  second : UInt8
  third : UInt8
  deriving DecidableEq

namespace Language

def toBytes (l : Language) : Bytes := [l.first, l.second, l.third]

def read : Cursor Language := do
  let first ← Cursor.u8
  let second ← Cursor.u8
  return ⟨first, second, ← Cursor.u8⟩

/-- An octet as text: tabs, line ends, quotes and the backslash by their escapes, other octets
outside the printable range by two hexadecimal digits. -/
def escapeOctet (b : UInt8) : String :=
  match b.toNat with
  | 0x09 => "\\t"
  | 0x0A => "\\n"
  | 0x0D => "\\r"
  | 0x22 => "\\\""
  | 0x27 => "\\'"
  | 0x5C => "\\\\"
  | n =>
    if 0x20 ≤ n ∧ n < 0x7F then (Char.ofNat n).toString
    else "\\x" ++ (Numeral.hex 2 n).map Char.toLower

def text (l : Language) : String := String.join (l.toBytes.map escapeOctet)

end Language

end DvbHost
