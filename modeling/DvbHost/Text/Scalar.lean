/-!
# Characters from code points

A code point that is no character, a surrogate or a number past the last plane, is shown as the
replacement character.
-/

namespace DvbHost.Text

set_option autoImplicit false

/-- U+FFFD. -/
def replacement : Char := '\uFFFD'

/-- The character of a code point. -/
def scalar (n : Nat) : Char := if n.isValidChar then Char.ofNat n else replacement

end DvbHost.Text
