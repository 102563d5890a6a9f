/-!
# PIDs as arguments

A PID is named on the command line as a decimal number, or as a hexadecimal one behind `0x`.
-/

namespace DvbHost.Listing

set_option autoImplicit false

/-- Why an argument is no number of 16 bits. -/
inductive NumberError where
  | empty
  | invalidDigit
  | tooLarge
  deriving DecidableEq

def NumberError.message : NumberError → String
  | empty => "cannot parse integer from empty string"
  | invalidDigit => "invalid digit found in string"
  | tooLarge => "number too large to fit in target type"

/-- The value of a digit in a base of at most 16. -/
def digit? (base : Nat) (c : Char) : Option Nat :=
  let n := c.toNat
  let value :=
    if 48 ≤ n ∧ n ≤ 57 then some (n - 48)
    else if 97 ≤ n ∧ n ≤ 102 then some (n - 87)
    else if 65 ≤ n ∧ n ≤ 70 then some (n - 55)
    else none
  value.filter (· < base)

/-- Digits after a number so far. The first fault decides: a character that is no digit, or a
digit that takes the number past 16 bits. -/
def digits (base : Nat) : (acc : Nat) → List Char → Except NumberError Nat
  | acc, [] => .ok acc
  | acc, c :: cs =>
    match digit? base c with
    | none => .error .invalidDigit
    | some d => if acc * base + d < 0x10000 then digits base (acc * base + d) cs
      else .error .tooLarge

/-- A number, also behind a plus sign; a sign alone is no number. -/
def number (base : Nat) : List Char → Except NumberError Nat
  | [] => .error .empty
  | ['+'] | ['-'] => .error .invalidDigit
  | '+' :: cs => digits base 0 cs
  | cs => digits base 0 cs

def pidArgument (s : String) : Except NumberError Nat :=
  match s.toList with
  | '0' :: 'x' :: cs => number 16 cs
  | cs => number 10 cs

end DvbHost.Listing
