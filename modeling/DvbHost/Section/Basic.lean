import DvbHost.Bytes.Cursor
import DvbHost.Crc32

/-!
# Sections

A section is a header, a body and, in most forms, a checksum. The extended form has a second
header with a version and a place in a sequence of sections. `ofBytes` reads the section at the
front of a byte string and says how long it is; what follows it is not looked at.
-/

namespace DvbHost

set_option autoImplicit false

structure SectionInfo where
  /-- 5 bits. -/
  version : UInt8
  current : Bool
  number : UInt8
  lastNumber : UInt8
  deriving DecidableEq

/-- The second header of the extended form. -/
structure ExtendedHeader where
  extension : UInt16
  info : SectionInfo
  deriving DecidableEq

structure Section where
  tableId : UInt8
  privateIndicator : Bool
  /-- Absent in the short form. -/
  extended : Option ExtendedHeader
  data : Bytes
  /-- Absent in the short form without checksum. -/
  crc32 : Option UInt32
  deriving DecidableEq

namespace Section

/-- The most that a section length can say. -/
def maxLength : Nat := 4093

/-- The one table whose short form ends with a checksum. -/
def shortWithChecksum : UInt8 := 0x73

/-- The length that a header states for the section behind its first three octets. -/
def statedLength (b1 b2 : UInt8) : Nat := bits 0 12 (b1.toNat * 256 + b2.toNat)

/-- The checksum at the end of a whole section, checked if asked for. -/
def checksumOf (whole : Bytes) (verifyCrc : Bool) : Except SiError UInt32 :=
  if whole.length < 3 + 4 then .error .lengthMismatch
  else if verifyCrc && !Crc32.verify whole then .error .crcMismatch
  else .ok (UInt32.ofNat (Bytes.number (whole.drop (whole.length - 4))))

/-- The second header and the body of an extended section, given what follows the first header. -/
def extendedParts (tail : Bytes) : Except SiError (ExtendedHeader × Bytes) :=
  match tail with
  | e1 :: e2 :: v :: number :: lastNumber :: tail =>
    if tail.length < 4 then .error .lengthMismatch
    else .ok (
      { extension := UInt16.ofNat (e1.toNat * 256 + e2.toNat)
        info := ⟨Octet.field 1 5 v, Octet.flag 0 v, number, lastNumber⟩ },
      tail.take (tail.length - 4))
  | _ => .error .lengthMismatch

/-- A whole section, its length already found right. -/
def ofWhole (whole : Bytes) (verifyCrc : Bool) : Except SiError Section :=
  match whole with
  | tableId :: b1 :: _ :: tail =>
    if Octet.flag 7 b1 then do
      let crc ← checksumOf whole verifyCrc
      let (header, data) ← extendedParts tail
      return ⟨tableId, Octet.flag 6 b1, some header, data, some crc⟩
    else if tableId = shortWithChecksum then do
      let crc ← checksumOf whole verifyCrc
      return ⟨tableId, Octet.flag 6 b1, none, tail.take (tail.length - 4), some crc⟩
    else .ok ⟨tableId, Octet.flag 6 b1, none, tail, none⟩
  | _ => .error .truncatedData

/-- The section at the front of a byte string, and the number of octets it takes. -/
def ofBytes (bs : Bytes) (verifyCrc : Bool) : Except SiError (Section × Nat) :=
  match bs with
  | tableId :: b1 :: b2 :: _ =>
    let length := statedLength b1 b2
    if tableId = 0xFF then .error .endOfPsi
    else if maxLength < length then .error .lengthMismatch
    else
      match bs.split? (3 + length) with
      | none => .error .truncatedData
      | some (whole, _) => (ofWhole whole verifyCrc).map fun s => (s, 3 + length)
  | _ => .error .truncatedData

/-- The second header; the short form has none. -/
def extendedHeader (s : Section) : Except SiError ExtendedHeader :=
  match s.extended with
  | some h => .ok h
  | none => .error (.invalidValue "section_syntax_indicator")

end Section

end DvbHost
