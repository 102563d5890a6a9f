import DvbHost.Calendar.DateTime
import DvbHost.Section.Writing
import DvbHost.Table.Format

/-!
# Clock tables and tables without content

The time now, with or without the offsets of local time; stuffing; and the mark of a break in a
recorded stream.
-/

namespace DvbHost

set_option autoImplicit false

/-- The time and date table. -/
structure Tdt where
  utcTime : DateTime
  deriving DecidableEq

namespace Tdt

def format : TableFormat Tdt := .plain 0x70 (Cursor.exactly do return ⟨← DateTime.read⟩)

def write (t : Tdt) : Except SiError Bytes :=
  ((SectionDraft.ofShort 0x70 true false).put t.utcTime.toBytes).finish

end Tdt

/-- The time offset table. -/
structure Tot where
  utcTime : DateTime
  descriptors : DescriptorLoop
  deriving DecidableEq

namespace Tot

def format : TableFormat Tot := .plain Section.shortWithChecksum (Cursor.exactly do
  let utcTime ← DateTime.read
  return ⟨utcTime, ← DescriptorLoop.read⟩)

def write (t : Tot) : Except SiError Bytes := do
  let descriptors ← t.descriptors.withLength 0xF
  ((SectionDraft.ofShort Section.shortWithChecksum true true).put
    (t.utcTime.toBytes ++ descriptors)).finish

end Tot

/-- The stuffing table. -/
structure StuffingTable where
  data : Bytes
  deriving DecidableEq

def StuffingTable.format : TableFormat StuffingTable := .plain 0x72 do return ⟨← Cursor.rest⟩

/-- The discontinuity information table. -/
structure Dit where
  transition : Bool
  deriving DecidableEq

def Dit.format : TableFormat Dit :=
  .plain 0x7E (Cursor.sized 1 do return ⟨Octet.flag 7 (← Cursor.u8)⟩)

end DvbHost
