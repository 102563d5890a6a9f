import DvbHost.Descriptor.Systems
import DvbHost.Section.Writing
import DvbHost.Table.Format

/-!
# Program tables

Which programs a transport stream has, which streams a program has, and the descriptors of access
systems and of the stream itself.
-/

namespace DvbHost

set_option autoImplicit false

structure PatProgram where
  number : UInt16
  mapPid : Pid
  deriving DecidableEq

/-- The program association table. -/
structure Pat where
  transportStreamId : UInt16
  info : SectionInfo
  networkPid : Option Pid
  programs : List PatProgram
  deriving DecidableEq

namespace Pat

/-- A number and a PID; number 0 stands for the network. -/
def readEntry : Cursor (UInt16 × Pid) := do
  let number ← Cursor.u16
  return (number, ← Pid.read)

/-- The last of the entries with number 0 gives the network's PID. -/
def ofEntries (h : ExtendedHeader) (entries : List (UInt16 × Pid)) : Pat where
  transportStreamId := h.extension
  info := h.info
  networkPid := ((entries.filter fun e => e.1 == 0).getLast?).map Prod.snd
  programs := (entries.filter fun e => e.1 != 0).map fun e => ⟨e.1, e.2⟩

def format : TableFormat Pat :=
  .extended (· == 0x00) fun _ h => do return ofEntries h (← Cursor.entries 4 readEntry)

def entryOctets (number : UInt16) (pid : Pid) : Bytes := Bytes.ofUInt16 number ++ pid.toBytes

def body (t : Pat) : Bytes :=
  (match t.networkPid with
    | some pid => entryOctets 0 pid
    | none => [])
  ++ t.programs.flatMap fun p => entryOctets p.number p.mapPid

def write (t : Pat) : Except SiError Bytes :=
  ((SectionDraft.ofExtended 0x00 false ⟨t.transportStreamId, t.info⟩).put t.body).finish

end Pat

/-- The conditional access table. -/
structure Cat where
  info : SectionInfo
  descriptors : DescriptorLoop
  deriving DecidableEq

namespace Cat

def format : TableFormat Cat :=
  .extended (· == 0x01) fun _ h => do
    return ⟨h.info, ← Cursor.lift (DescriptorLoop.ofBytes (← Cursor.rest))⟩

def write (t : Cat) : Except SiError Bytes :=
  ((SectionDraft.ofExtended 0x01 false ⟨0xFFFF, t.info⟩).put t.descriptors.toBytes).finish

end Cat

structure PmtStream where
  streamType : StreamType
  pid : Pid
  descriptors : DescriptorLoop
  deriving DecidableEq

/-- The program map table. -/
structure Pmt where
  programNumber : UInt16
  info : SectionInfo
  pcrPid : Pid
  descriptors : DescriptorLoop
  streams : List PmtStream
  deriving DecidableEq

namespace PmtStream

def read : Cursor PmtStream := do
  let streamType ← StreamType.read
  let pid ← Pid.read
  return ⟨streamType, pid, ← DescriptorLoop.read⟩

def octets (s : PmtStream) : Except SiError Bytes := do
  return s.streamType.code :: s.pid.toBytes ++ (← s.descriptors.withLength 0xF)

end PmtStream

namespace Pmt

def format : TableFormat Pmt :=
  .extended (· == 0x02) fun _ h => do
    let pcrPid ← Pid.read
    let descriptors ← DescriptorLoop.read
    return ⟨h.extension, h.info, pcrPid, descriptors, ← Cursor.untilEnd PmtStream.read⟩

def body (t : Pmt) : Except SiError Bytes := do
  let descriptors ← t.descriptors.withLength 0xF
  let streams ← t.streams.mapM PmtStream.octets
  return t.pcrPid.toBytes ++ descriptors ++ streams.flatten

def write (t : Pmt) : Except SiError Bytes := do
  ((SectionDraft.ofExtended 0x02 false ⟨t.programNumber, t.info⟩).put (← t.body)).finish

end Pmt

/-- The transport stream description table. -/
structure Tsdt where
  info : SectionInfo
  descriptors : DescriptorLoop
  deriving DecidableEq

def Tsdt.format : TableFormat Tsdt :=
  .extended (· == 0x03) fun _ h => do
    return ⟨h.info, ← Cursor.lift (DescriptorLoop.ofBytes (← Cursor.rest))⟩

end DvbHost
