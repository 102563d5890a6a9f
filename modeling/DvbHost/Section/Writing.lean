import DvbHost.Descriptor.Loop
import DvbHost.Section.Basic

/-!
# Writing sections

A `SectionDraft` is a header and the body so far. Length fields can be left open while what they
measure is written; the section length and the checksum are filled in at the end. Reserved bits
are written as ones.
-/

namespace DvbHost

set_option autoImplicit false

structure SectionDraft where
  tableId : UInt8
  privateIndicator : Bool
  extended : Option ExtendedHeader
  checksum : Bool
  body : Bytes

/-- Where in the body a length field was left open. -/
structure LengthMark where
  position : Nat
  deriving DecidableEq

namespace SectionDraft

/-- A section of the extended form, which always ends with a checksum. -/
def ofExtended (tableId : UInt8) (privateIndicator : Bool) (h : ExtendedHeader) : SectionDraft :=
  ⟨tableId, privateIndicator, some h, true, []⟩

def ofShort (tableId : UInt8) (privateIndicator checksum : Bool) : SectionDraft :=
  ⟨tableId, privateIndicator, none, checksum, []⟩

/-- The octets of the second header. -/
def extendedOctets : Option ExtendedHeader → Bytes
  | none => []
  | some h => Bytes.ofUInt16 h.extension ++
    [UInt8.ofNat (0xC0 + bits 0 5 h.info.version.toNat * 2 + flagWeight 0 h.info.current),
     h.info.number, h.info.lastNumber]

/-- The upper half of the octet that shares its lower half with the section length. -/
def indicators (d : SectionDraft) : Nat :=
  flagWeight 15 d.extended.isSome + flagWeight 14 d.privateIndicator + 0x3000

/-- The number of octets written so far, the first header included. -/
def size (d : SectionDraft) : Nat := 3 + (extendedOctets d.extended).length + d.body.length

def put (d : SectionDraft) (bs : Bytes) : SectionDraft := { d with body := d.body ++ bs }

/-- Leaves a length field of 12 bits open. -/
def beginLength (d : SectionDraft) : SectionDraft × LengthMark :=
  (d.put [0xF0, 0x00], ⟨d.body.length⟩)

/-- Fills an open length field with the number of octets written behind it, if 12 bits hold it. -/
def endLength (d : SectionDraft) (m : LengthMark) : Except SiError Unit × SectionDraft :=
  let length := d.body.length - m.position - 2
  if length ≤ 0x0FFF then
    (.ok (), { d with
      body := d.body.take m.position ++ Bytes.ofNumber 2 (0xF000 + length)
        ++ d.body.drop (m.position + 2) })
  else (.error .lengthMismatch, d)

/-- Writes a descriptor loop behind its length. -/
def putLoop (d : SectionDraft) (l : DescriptorLoop) : Except SiError Unit × SectionDraft :=
  let (d, mark) := d.beginLength
  (d.put l.toBytes).endLength mark

/-- The section length: what follows the first header, the checksum included. -/
def sectionLength (d : SectionDraft) : Nat :=
  (extendedOctets d.extended).length + d.body.length + if d.checksum then 4 else 0

/-- The section, if its length can be said. -/
def finish (d : SectionDraft) : Except SiError Bytes :=
  if d.sectionLength ≤ Section.maxLength then
    let octets := d.tableId :: Bytes.ofNumber 2 (d.indicators + d.sectionLength)
      ++ extendedOctets d.extended ++ d.body
    .ok (if d.checksum then octets ++ Bytes.ofUInt32 (Crc32.checksum octets) else octets)
  else .error .lengthMismatch

end SectionDraft

/-- The octets of a descriptor loop behind its length of 12 bits, with `upper` as the four bits
above the length. -/
def DescriptorLoop.withLength (l : DescriptorLoop) (upper : Nat) : Except SiError Bytes :=
  if l.toBytes.length ≤ 0x0FFF then
    .ok (Bytes.ofNumber 2 (upper * 0x1000 + l.toBytes.length) ++ l.toBytes)
  else .error .lengthMismatch

end DvbHost
