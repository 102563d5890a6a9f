import DvbHost.Section.Basic

/-!
# Reading tables

A table format names the table ids it stands for and how the body of such a section is read. The
id is looked at first, then the form of the section, then the body.
-/

namespace DvbHost

set_option autoImplicit false

structure TableFormat (α : Type) where
  accepts : UInt8 → Bool
  body : Section → Except SiError α

namespace TableFormat

variable {α β : Type}

/-- A table in sections of the extended form; it may look at the id and the second header. -/
def extended (accepts : UInt8 → Bool) (p : UInt8 → ExtendedHeader → Cursor α) : TableFormat α where
  accepts := accepts
  body s := do
    let h ← s.extendedHeader
    (p s.tableId h).run s.data

/-- A table in sections of any form. -/
def plain (id : UInt8) (p : Cursor α) : TableFormat α where
  accepts := (· == id)
  body s := p.run s.data

def read (f : TableFormat α) (s : Section) : Except SiError α :=
  if f.accepts s.tableId then f.body s else .error (.unsupportedTableId s.tableId)

/-- The table in the section at the front of a byte string. -/
def decode (f : TableFormat α) (bs : Bytes) (verifyCrc : Bool) : Except SiError α := do
  let (s, _) ← Section.ofBytes bs verifyCrc
  f.read s

def map (g : α → β) (f : TableFormat α) : TableFormat β where
  accepts := f.accepts
  body s := (f.body s).map g

end TableFormat

end DvbHost
