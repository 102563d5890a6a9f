import DvbHost.KeyedList
import DvbHost.Table.Format

/-!
# Versions already read

Sections are repeated on air; a receiver reads each version of each section once. The store keeps,
for every subtable, the version last read of each of its sections. A section that could not be
read is not recorded.
-/

namespace DvbHost

set_option autoImplicit false

/-- A table id and its extension: all sections of one subtable have them in common. -/
abbrev SubtableKey := UInt8 × UInt16

structure VersionStore where
  /-- For each section of a subtable the version last read, or `VersionStore.unread`. -/
  subtables : KeyedList SubtableKey (List UInt8)

namespace VersionStore

/-- What stands for a section that has not been read. A version has five bits and is below it. -/
def unread : UInt8 := 0xFF

def empty : VersionStore := ⟨[]⟩

def isEmpty (v : VersionStore) : Bool := v.subtables.isEmpty

/-- The versions kept for a subtable of `count` sections; all are unread if the subtable had another
number of sections before. -/
def versions (v : VersionStore) (key : SubtableKey) (count : Nat) : List UInt8 :=
  let known := (v.subtables.get? key).getD []
  if known.length = count then known else List.replicate count unread

variable {α : Type}

/-- Reads the table of a section unless its version has been read already. -/
def read (v : VersionStore) (f : TableFormat α) (s : Section) :
    VersionStore × Except SiError (Option α) :=
  match s.extended with
  | none => (v, (f.read s).map some)
  | some h =>
    let count := h.info.lastNumber.toNat + 1
    let number := h.info.number.toNat
    if count ≤ number then (v, .error (.invalidValue "section_number"))
    else
      let key := (s.tableId, h.extension)
      let known := v.versions key count
      if known[number]? = some h.info.version then (⟨v.subtables.put key known⟩, .ok none)
      else
        match f.read s with
        | .ok t => (⟨v.subtables.put key (known.set number h.info.version)⟩, .ok (some t))
        | .error e => (⟨v.subtables.put key known⟩, .error e)

/-- Forgets that a section was read, so that it is read again. -/
def unset (v : VersionStore) (s : Section) : VersionStore :=
  match s.extended with
  | none => v
  | some h =>
    let key := (s.tableId, h.extension)
    match v.subtables.get? key with
    | none => v
    | some l => ⟨v.subtables.put key (l.set h.info.number.toNat unread)⟩

end VersionStore

end DvbHost
