import DvbHost.Section.Writing

/-!
# Running status

How far a service or an event is on air: three bits, in most tables above a scrambling flag and the
length of a descriptor loop.
-/

namespace DvbHost

set_option autoImplicit false

inductive RunningStatus where
  | undefined
  | notRunning
  | startsSoon
  | pausing
  | running
  | offAir
  | reserved (code : UInt8)
  deriving DecidableEq

namespace RunningStatus

def ofCode (code : UInt8) : RunningStatus :=
  match code.toNat with
  | 0 => undefined
  | 1 => notRunning
  | 2 => startsSoon
  | 3 => pausing
  | 4 => running
  | 5 => offAir
  | _ => reserved code

/-- The three bits that are written; of a reserved code only the low ones are. -/
def code : RunningStatus → UInt8
  | undefined => 0
  | notRunning => 1
  | startsSoon => 2
  | pausing => 3
  | running => 4
  | offAir => 5
  | reserved c => Octet.field 0 3 c

end RunningStatus

/-- A running status, a scrambling flag and descriptors, written together. -/
structure Broadcast where
  status : RunningStatus
  scrambled : Bool
  descriptors : DescriptorLoop
  deriving DecidableEq

namespace Broadcast

def read : Cursor Broadcast := do
  let w := (← Cursor.u16).toNat
  let descriptors ← DescriptorLoop.ofLength (bits 0 12 w)
  return ⟨.ofCode (UInt8.ofNat (bits 13 3 w)), w.testBit 12, descriptors⟩

def octets (b : Broadcast) : Except SiError Bytes :=
  b.descriptors.withLength (b.status.code.toNat * 2 + flagWeight 0 b.scrambled)

end Broadcast

end DvbHost
