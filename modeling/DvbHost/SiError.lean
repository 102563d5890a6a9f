import DvbHost.Text.Numeral

/-!
# Errors of service information

Everything that can go wrong while a section, a table or a descriptor is read or written.
-/

namespace DvbHost

set_option autoImplicit false

inductive SiError where
  /-- The data ends before the field does. -/
  | truncatedData
  /-- A declared length disagrees with what is there. -/
  | lengthMismatch
  /-- A descriptor runs past the end of its loop. -/
  | descriptorTruncated
  | crcMismatch
  | unsupportedTableId (id : UInt8)
  /-- Stuffing: no more sections follow. -/
  | endOfPsi
  /-- The named field has a value outside its range. -/
  | invalidValue (field : String)
  deriving DecidableEq

namespace SiError

def message : SiError → String
  | truncatedData => "truncated data"
  | lengthMismatch => "length mismatch"
  | descriptorTruncated => "descriptor overruns its loop"
  | crcMismatch => "crc32 mismatch"
  | unsupportedTableId id => "unsupported table id " ++ Numeral.hexMarked 2 id.toNat
  | endOfPsi => "reached to end of PSI sections"
  | invalidValue field => "invalid value: " ++ field

end SiError

end DvbHost
