import DvbHost.Section.Writing
import DvbHost.Table.Format

/-!
# Networks and bouquets

Both tables list transport streams, each with its descriptors, behind descriptors of their own.
-/

namespace DvbHost

set_option autoImplicit false

structure TransportStream where
  id : UInt16
  originalNetworkId : UInt16
  descriptors : DescriptorLoop
  deriving DecidableEq

namespace TransportStream

def read : Cursor TransportStream := do
  let id ← Cursor.u16
  let originalNetworkId ← Cursor.u16
  return ⟨id, originalNetworkId, ← DescriptorLoop.read⟩

/-- A loop of transport streams behind its length. -/
def readAll : Cursor (List TransportStream) := do
  let length ← Cursor.length12
  Cursor.within length (Cursor.untilEnd read)

def octets (t : TransportStream) : Except SiError Bytes := do
  let descriptors ← t.descriptors.withLength 0xF
  return Bytes.ofUInt16 t.id ++ Bytes.ofUInt16 t.originalNetworkId ++ descriptors

def allOctets (ts : List TransportStream) : Except SiError Bytes := do
  let octets := (← ts.mapM octets).flatten
  if octets.length ≤ 0x0FFF then
    return Bytes.ofNumber 2 (0xF000 + octets.length) ++ octets
  else .error .lengthMismatch

end TransportStream

/-- The network information table. -/
structure Nit where
  actual : Bool
  networkId : UInt16
  info : SectionInfo
  descriptors : DescriptorLoop
  transportStreams : List TransportStream
  deriving DecidableEq

namespace Nit

def tableId (actual : Bool) : UInt8 := if actual then 0x40 else 0x41

def format : TableFormat Nit :=
  .extended (fun id => id == 0x40 || id == 0x41) fun id h => Cursor.exactly do
    let descriptors ← DescriptorLoop.read
    return ⟨id == 0x40, h.extension, h.info, descriptors, ← TransportStream.readAll⟩

def body (t : Nit) : Except SiError Bytes := do
  let descriptors ← t.descriptors.withLength 0xF
  return descriptors ++ (← TransportStream.allOctets t.transportStreams)

def write (t : Nit) : Except SiError Bytes := do
  ((SectionDraft.ofExtended (tableId t.actual) true ⟨t.networkId, t.info⟩).put (← t.body)).finish

end Nit

/-- The bouquet association table. -/
structure Bat where
  bouquetId : UInt16
  info : SectionInfo
  descriptors : DescriptorLoop
  transportStreams : List TransportStream
  deriving DecidableEq

def Bat.format : TableFormat Bat :=
  .extended (· == 0x4A) fun _ h => Cursor.exactly do
    let descriptors ← DescriptorLoop.read
    return ⟨h.extension, h.info, descriptors, ← TransportStream.readAll⟩

end DvbHost
