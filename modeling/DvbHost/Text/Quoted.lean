import DvbHost.Text.Numeral
import DvbHost.Text.Printable

/-!
# Quoted texts

A text between double quotes. Quotes, backslashes and the common controls are escaped by a
backslash, characters that cannot be shown by their code point.
-/

namespace DvbHost.Text

set_option autoImplicit false

def escape (c : Char) : String :=
  if c = '\x00' then "\\0"
  else if c = '\t' then "\\t"
  else if c = '\r' then "\\r"
  else if c = '\n' then "\\n"
  else if c = '\\' then "\\\\"
  else if c = '"' then "\\\""
  else if isShown c then c.toString
  else "\\u\x7b" ++ (Numeral.hex 1 c.toNat).map Char.toLower ++ "\x7d"

def quoted (cs : List Char) : String := "\"" ++ String.join (cs.map escape) ++ "\""

end DvbHost.Text
