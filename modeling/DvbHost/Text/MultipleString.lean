import DvbHost.Text.Language
import DvbHost.Text.Utf16

/-!
# Texts in several languages

The ATSC structure that holds one string per language, each made of segments with a compression
type and a mode. Reading it accounts for every octet.
-/

namespace DvbHost

set_option autoImplicit false

structure Segment where
  /-- 0 for no compression. -/
  compression : UInt8
  /-- The upper octet of each character, or `0x3F` for UTF-16. -/
  mode : UInt8
  bytes : Bytes
  deriving DecidableEq

structure LocalString where
  language : Language
  segments : List Segment
  deriving DecidableEq

structure MultipleString where
  strings : List LocalString
  deriving DecidableEq

namespace Segment

def read : Cursor Segment := do
  let compression ← Cursor.u8
  let mode ← Cursor.u8
  return ⟨compression, mode, ← Cursor.counted⟩

/-- The modes whose number is the upper octet of each character. -/
def isPage (mode : Nat) : Bool :=
  mode ≤ 0x06 || (0x09 ≤ mode && mode ≤ 0x10) || (0x20 ≤ mode && mode ≤ 0x27)
    || (0x30 ≤ mode && mode ≤ 0x33)

/-- A segment that is compressed or in a mode that is not read is one replacement character. -/
def decode (s : Segment) : List Char :=
  if s.compression.toNat ≠ 0 then [Text.replacement]
  else if s.mode.toNat = 0x3F then Text.Utf16.decode (Text.Utf16.units s.bytes)
  else if isPage s.mode.toNat then
    s.bytes.map fun b => Text.scalar (s.mode.toNat * 256 + b.toNat)
  else [Text.replacement]

end Segment

namespace LocalString

def read : Cursor LocalString := do
  let language ← Language.read
  let count ← Cursor.u8
  return ⟨language, ← Cursor.repeated Segment.read count.toNat⟩

def decode (s : LocalString) : List Char := s.segments.flatMap Segment.decode

def text (s : LocalString) : String := String.ofList s.decode

end LocalString

namespace MultipleString

def cursor : Cursor MultipleString := do
  let count ← Cursor.u8
  return ⟨← Cursor.repeated LocalString.read count.toNat⟩

/-- Reads the whole of `data`; no octets at all are the structure without strings. -/
def read (data : Bytes) : Except SiError MultipleString :=
  match data with
  | [] => .ok ⟨[]⟩
  | _ :: _ => cursor.exactly.run data

/-- A structure that fills a field of a known length. -/
def ofLength (n : Nat) : Cursor MultipleString := do Cursor.lift (read (← Cursor.bytes n))

/-- A structure that fills a field after its length in one octet. -/
def counted : Cursor MultipleString := do Cursor.lift (read (← Cursor.counted))

/-- The string of a language, else the first one. -/
def get (m : MultipleString) (l : Language) : Option LocalString :=
  (m.strings.find? fun s => s.language == l).or m.strings.head?

end MultipleString

end DvbHost
