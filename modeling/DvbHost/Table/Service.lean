import DvbHost.Table.Format
import DvbHost.Table.RunningStatus

/-!
# Services

The services of a transport stream, and those selected for a recorded part of one.
-/

namespace DvbHost

set_option autoImplicit false

structure SdtService where
  id : UInt16
  eitSchedule : Bool
  eitPresentFollowing : Bool
  broadcast : Broadcast
  deriving DecidableEq

/-- The service description table. -/
structure Sdt where
  actual : Bool
  transportStreamId : UInt16
  info : SectionInfo
  originalNetworkId : UInt16
  services : List SdtService
  deriving DecidableEq

namespace SdtService

def read : Cursor SdtService := do
  let id ← Cursor.u16
  let flags ← Cursor.u8
  return ⟨id, Octet.flag 1 flags, Octet.flag 0 flags, ← Broadcast.read⟩

def octets (s : SdtService) : Except SiError Bytes := do
  let broadcast ← s.broadcast.octets
  let flags := 0xFC + flagWeight 1 s.eitSchedule + flagWeight 0 s.eitPresentFollowing
  return Bytes.ofUInt16 s.id ++ UInt8.ofNat flags :: broadcast

end SdtService

namespace Sdt

def tableId (actual : Bool) : UInt8 := if actual then 0x42 else 0x46

def format : TableFormat Sdt :=
  .extended (fun id => id == 0x42 || id == 0x46) fun id h => do
    let originalNetworkId ← Cursor.u16
    let _reserved ← Cursor.u8
    return ⟨id == 0x42, h.extension, h.info, originalNetworkId,
      ← Cursor.untilEnd SdtService.read⟩

def body (t : Sdt) : Except SiError Bytes := do
  let services ← t.services.mapM SdtService.octets
  return Bytes.ofUInt16 t.originalNetworkId ++ 0xFF :: services.flatten

def write (t : Sdt) : Except SiError Bytes := do
  ((SectionDraft.ofExtended (tableId t.actual) true ⟨t.transportStreamId, t.info⟩).put
    (← t.body)).finish

end Sdt

structure SitService where
  id : UInt16
  status : RunningStatus
  descriptors : DescriptorLoop
  deriving DecidableEq

/-- The selection information table. -/
structure Sit where
  info : SectionInfo
  descriptors : DescriptorLoop
  services : List SitService
  deriving DecidableEq

def SitService.read : Cursor SitService := do
  let id ← Cursor.u16
  let w := (← Cursor.u16).toNat
  return ⟨id, .ofCode (UInt8.ofNat (bits 12 3 w)), ← DescriptorLoop.ofLength (bits 0 12 w)⟩

def Sit.format : TableFormat Sit :=
  .extended (· == 0x7F) fun _ h => do
    let descriptors ← DescriptorLoop.read
    return ⟨h.info, descriptors, ← Cursor.untilEnd SitService.read⟩

end DvbHost
