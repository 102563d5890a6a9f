import DvbHost.Bytes.Cursor

/-!
# Descriptor loops

A loop is a sequence of descriptors, each a tag, a length octet and that many octets. Reading
checks the whole loop at once: it is accepted exactly when it is such a sequence, and the items
write back to the same octets. What an item means is left to its format.
-/

namespace DvbHost

set_option autoImplicit false

structure RawDescriptor where
  tag : UInt8
  data : Bytes
  fits : data.length < 256
  deriving DecidableEq

namespace RawDescriptor

def toBytes (d : RawDescriptor) : Bytes := d.tag :: UInt8.ofNat d.data.length :: d.data

theorem length_take_lt (len : UInt8) (tail : Bytes) : (tail.take len.toNat).length < 256 :=
  Nat.lt_of_le_of_lt (List.length_take_le ..) len.toNat_lt

/-- One item at the front of a loop. -/
def read : Cursor RawDescriptor
  | tag :: len :: tail =>
    if len.toNat ≤ tail.length then
      (.ok ⟨tag, tail.take len.toNat, length_take_lt len tail⟩, tail.drop len.toNat)
    else (.error .descriptorTruncated, tag :: len :: tail)
  | s => (.error .lengthMismatch, s)

end RawDescriptor

structure DescriptorLoop where
  items : List RawDescriptor
  deriving DecidableEq

namespace DescriptorLoop

def empty : DescriptorLoop := ⟨[]⟩

instance : Inhabited DescriptorLoop := ⟨empty⟩

def toBytes (l : DescriptorLoop) : Bytes := l.items.flatMap RawDescriptor.toBytes

/-- The loop that the whole of a byte string writes. -/
def ofBytes (bs : Bytes) : Except SiError DescriptorLoop :=
  ((Cursor.untilEnd RawDescriptor.read).run bs).map DescriptorLoop.mk

/-- A loop in the next `n` octets. They are read even if they are no loop. -/
def ofLength (n : Nat) : Cursor DescriptorLoop := do Cursor.lift (ofBytes (← Cursor.bytes n))

/-- A loop after its length of 12 bits. -/
def read : Cursor DescriptorLoop := do ofLength (← Cursor.length12)

end DescriptorLoop

/-- How descriptors with one tag are read; the data is without tag and length. -/
structure DescriptorFormat (α : Type) where
  tag : UInt8
  cursor : Cursor α

namespace DescriptorFormat

variable {α β : Type}

def read (f : DescriptorFormat α) (data : Bytes) : Except SiError α := f.cursor.run data

def map (g : α → β) (f : DescriptorFormat α) : DescriptorFormat β :=
  ⟨f.tag, do return g (← f.cursor)⟩

end DescriptorFormat

namespace DescriptorLoop

variable {α : Type}

/-- The first descriptor with the format's tag, read. -/
def get (l : DescriptorLoop) (f : DescriptorFormat α) : Except SiError (Option α) :=
  match l.items.find? fun d => d.tag == f.tag with
  | none => .ok none
  | some d => (f.read d.data).map some

/-- Every descriptor with the format's tag, read. -/
def getAll (l : DescriptorLoop) (f : DescriptorFormat α) : List (Except SiError α) :=
  (l.items.filter fun d => d.tag == f.tag).map fun d => f.read d.data

end DescriptorLoop

end DvbHost
