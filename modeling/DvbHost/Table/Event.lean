import DvbHost.Calendar.DateTime
import DvbHost.Table.Format
import DvbHost.Table.RunningStatus

/-!
# Events

What a service sends when, and single changes of an event's running status.
-/

namespace DvbHost

set_option autoImplicit false

inductive EitKind where
  | actualPresentFollowing
  | otherPresentFollowing
  | actualSchedule
  | otherSchedule
  deriving DecidableEq

namespace EitKind

def ofTableId (id : UInt8) : Option EitKind :=
  if id = 0x4E then some actualPresentFollowing
  else if id = 0x4F then some otherPresentFollowing
  else if 0x50 ≤ id ∧ id ≤ 0x5F then some actualSchedule
  else if 0x60 ≤ id ∧ id ≤ 0x6F then some otherSchedule
  else none

def isActual : EitKind → Bool
  | actualPresentFollowing | actualSchedule => true
  | otherPresentFollowing | otherSchedule => false

end EitKind

structure EitEvent where
  id : UInt16
  startTime : Option DateTime
  /-- In seconds. -/
  duration : Nat
  broadcast : Broadcast
  deriving DecidableEq

/-- The event information table. -/
structure Eit where
  tableId : UInt8
  serviceId : UInt16
  info : SectionInfo
  transportStreamId : UInt16
  originalNetworkId : UInt16
  segmentLastSectionNumber : UInt8
  lastTableId : UInt8
  events : List EitEvent
  deriving DecidableEq

namespace EitEvent

/-- The octets that stand for an undefined start. -/
def noStart : Bytes := List.replicate 5 0xFF

def readStart : Cursor (Option DateTime) := do
  let octets ← Cursor.bytes 5
  if octets = noStart then return none
  else return some (← Cursor.lift (DateTime.read.run octets))

def readDuration : Cursor Nat := do
  let h ← Cursor.u8
  let m ← Cursor.u8
  return Bcd.duration h m (← Cursor.u8)

def read : Cursor EitEvent := do
  let id ← Cursor.u16
  let startTime ← readStart
  let duration ← readDuration
  return ⟨id, startTime, duration, ← Broadcast.read⟩

def startOctets : Option DateTime → Bytes
  | some t => t.toBytes
  | none => noStart

def octets (e : EitEvent) : Except SiError Bytes := do
  let broadcast ← e.broadcast.octets
  return Bytes.ofUInt16 e.id ++ startOctets e.startTime ++ Bcd.ofDuration e.duration ++ broadcast

end EitEvent

namespace Eit

def isTableId (id : UInt8) : Bool := 0x4E ≤ id && id ≤ 0x6F

def kind (t : Eit) : Option EitKind := EitKind.ofTableId t.tableId

def format : TableFormat Eit :=
  .extended isTableId fun id h => do
    let transportStreamId ← Cursor.u16
    let originalNetworkId ← Cursor.u16
    let segmentLast ← Cursor.u8
    let lastTableId ← Cursor.u8
    return ⟨id, h.extension, h.info, transportStreamId, originalNetworkId, segmentLast, lastTableId,
      ← Cursor.untilEnd EitEvent.read⟩

def body (t : Eit) : Except SiError Bytes := do
  let events ← t.events.mapM EitEvent.octets
  return Bytes.ofUInt16 t.transportStreamId ++ Bytes.ofUInt16 t.originalNetworkId
    ++ t.segmentLastSectionNumber :: t.lastTableId :: events.flatten

/-- A table whose id is no id of this table is refused before anything is written. -/
def write (t : Eit) : Except SiError Bytes :=
  if isTableId t.tableId then do
    ((SectionDraft.ofExtended t.tableId true ⟨t.serviceId, t.info⟩).put (← t.body)).finish
  else .error (.unsupportedTableId t.tableId)

end Eit

structure RstEntry where
  transportStreamId : UInt16
  originalNetworkId : UInt16
  serviceId : UInt16
  eventId : UInt16
  status : RunningStatus
  deriving DecidableEq

/-- The running status table. -/
structure Rst where
  entries : List RstEntry
  deriving DecidableEq

def RstEntry.read : Cursor RstEntry := do
  let transportStreamId ← Cursor.u16
  let originalNetworkId ← Cursor.u16
  let serviceId ← Cursor.u16
  let eventId ← Cursor.u16
  let status := RunningStatus.ofCode (Octet.field 0 3 (← Cursor.u8))
  return ⟨transportStreamId, originalNetworkId, serviceId, eventId, status⟩

def Rst.format : TableFormat Rst := .plain 0x71 do return ⟨← Cursor.entries 9 RstEntry.read⟩

end DvbHost
