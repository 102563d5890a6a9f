import DvbHost.Bytes.Cursor
import DvbHost.Text.Utf8

/-!
# Texts with a character table

A DVB text is a byte string whose first octets may select a character table. Control characters
for emphasis disappear when it is decoded, the one for a new line becomes a line feed, and what a
table cannot give becomes the replacement character.
-/

namespace DvbHost

set_option autoImplicit false

inductive Charset where
  /-- The table used when none is selected; read as Latin-1. -/
  | standard
  /-- A part of ISO/IEC 8859. -/
  | iso8859 (part : UInt8)
  /-- The basic multilingual plane in units of two octets. -/
  | ucs2
  | ksX1001
  | gb2312
  | big5
  | utf8
  | unknown (selector : UInt8)
  deriving DecidableEq

structure DvbText where
  bytes : Bytes
  deriving DecidableEq

namespace DvbText

/-- The selected table, and the octets after the selection. -/
def charset (t : DvbText) : Charset × Bytes :=
  match t.bytes with
  | [] => (.standard, [])
  | b :: rest =>
    if 0x20 ≤ b.toNat then (.standard, b :: rest)
    else if 0x01 ≤ b.toNat ∧ b.toNat ≤ 0x0B then (.iso8859 (b + 4), rest)
    else match b.toNat, rest with
      | 0x10, _ :: n :: body => (.iso8859 n, body)
      | 0x11, _ => (.ucs2, rest)
      | 0x12, _ => (.ksX1001, rest)
      | 0x13, _ => (.gb2312, rest)
      | 0x14, _ => (.big5, rest)
      | 0x15, _ => (.utf8, rest)
      | 0x1F, _ :: body => (.unknown b, body)
      | _, _ => (.unknown b, rest)

/-- The character of a code point, if any, after control characters are interpreted: emphasis and
other controls of `0x80..0x9F` and `0xE080..0xE09F` give none, a new line gives a line feed. -/
def interpret (n : Nat) : List Char :=
  if n = 0x8A ∨ n = 0xE08A then ['\n']
  else if (0x80 ≤ n ∧ n ≤ 0x9F) ∨ (0xE080 ≤ n ∧ n ≤ 0xE09F) then []
  else [Text.scalar n]

/-- Units of two octets; an odd octet at the end cannot be read. -/
def decodeUcs2 : Bytes → List Char
  | [] => []
  | [_] => [Text.replacement]
  | h :: l :: rest => interpret (h.toNat * 256 + l.toNat) ++ decodeUcs2 rest

def decodeLatin1 (body : Bytes) : List Char := body.flatMap fun b => interpret b.toNat

/-- A table of which only the ASCII half and the controls are known. -/
def decodeAscii (body : Bytes) : List Char :=
  body.flatMap fun b => if b.toNat ≤ 0x9F then interpret b.toNat else [Text.replacement]

def decode (t : DvbText) : List Char :=
  match t.charset with
  | (.utf8, body) => (Text.Utf8.decode body).flatMap fun c => interpret c.toNat
  | (.ucs2, body) => decodeUcs2 body
  | (.standard, body) => decodeLatin1 body
  | (.iso8859 1, body) => decodeLatin1 body
  | (_, body) => decodeAscii body

def text (t : DvbText) : String := String.ofList t.decode

/-- A text after its length in one octet. -/
def counted : Cursor DvbText := do return ⟨← Cursor.counted⟩

end DvbText

end DvbHost
