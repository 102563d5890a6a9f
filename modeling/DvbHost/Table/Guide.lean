import DvbHost.Calendar.DateTime
import DvbHost.Descriptor.Loop
import DvbHost.Pid
import DvbHost.Table.Format
import DvbHost.Text.MultipleString

/-!
# ATSC program guide tables

Tables of the extended form that begin with a protocol version: which tables there are, virtual
channels, rating regions, events and their texts, and the system time.
-/

namespace DvbHost

set_option autoImplicit false

structure GuideHeader where
  extension : UInt16
  info : SectionInfo
  protocolVersion : UInt8
  deriving DecidableEq

namespace GuideHeader

def read (h : ExtendedHeader) : Cursor GuideHeader := do
  return ⟨h.extension, h.info, ← Cursor.u8⟩

end GuideHeader

/-- A descriptor loop after its length of 10 bits. -/
def DescriptorLoop.readShort : Cursor DescriptorLoop := do
  DescriptorLoop.ofLength (bits 0 10 (← Cursor.u16).toNat)

structure GuideTable where
  tableType : UInt16
  pid : Pid
  version : UInt8
  size : UInt32
  descriptors : DescriptorLoop
  deriving DecidableEq

/-- The master guide table. -/
structure Mgt where
  header : GuideHeader
  tables : List GuideTable
  descriptors : DescriptorLoop
  deriving DecidableEq

inductive Transmission where
  | terrestrial
  | cable
  deriving DecidableEq

def GuideTable.read : Cursor GuideTable := do
  let tableType ← Cursor.u16
  let pid ← Pid.read
  let version := Octet.field 0 5 (← Cursor.u8)
  let size ← Cursor.u32
  return ⟨tableType, pid, version, size, ← DescriptorLoop.read⟩

namespace Mgt

/-- The least number of octets that an entry takes. -/
def leastEntry : Nat := 11

/-- The entries, unless there are too few octets for so many. -/
def readTables (count : Nat) : Cursor (List GuideTable) := do
  if (← Cursor.unread).length < count * leastEntry then Cursor.fail .truncatedData
  else Cursor.repeated GuideTable.read count

def format : TableFormat Mgt :=
  .extended (· == 0xC7) fun _ h => Cursor.exactly do
    let header ← GuideHeader.read h
    let tables ← readTables (← Cursor.u16).toNat
    return ⟨header, tables, ← DescriptorLoop.read⟩

/-- The number of tables beyond those that the way of transmission requires. -/
def optionalTables (t : Mgt) : Transmission → Nat
  | .terrestrial => t.tables.length - 6
  | .cable => t.tables.length - 2

end Mgt

structure VirtualChannel where
  shortName : List Char
  major : UInt16
  minor : UInt16
  modulationMode : UInt8
  carrierFrequency : UInt32
  transportStreamId : UInt16
  programNumber : UInt16
  etmLocation : UInt8
  accessControlled : Bool
  hidden : Bool
  /-- Only for cable, as is `outOfBand`. -/
  pathSelect : Bool
  outOfBand : Bool
  hideGuide : Bool
  serviceType : UInt8
  sourceId : UInt16
  descriptors : DescriptorLoop
  deriving DecidableEq

/-- The virtual channel table. -/
structure Vct where
  kind : Transmission
  header : GuideHeader
  channels : List VirtualChannel
  descriptors : DescriptorLoop
  deriving DecidableEq

namespace VirtualChannel

/-- The characters before the first NUL of seven units of UTF-16. -/
def readName : Cursor (List Char) := do
  return (Text.Utf16.decode (Text.Utf16.units (← Cursor.bytes 14))).takeWhile (· != '\x00')

def read (kind : Transmission) : Cursor VirtualChannel := do
  let shortName ← readName
  let numbers := (← Cursor.u24).toNat
  let modulationMode ← Cursor.u8
  let carrierFrequency ← Cursor.u32
  let transportStreamId ← Cursor.u16
  let programNumber ← Cursor.u16
  let flags := (← Cursor.u16).toNat
  let sourceId ← Cursor.u16
  let descriptors ← DescriptorLoop.readShort
  return {
    shortName := shortName
    major := UInt16.ofNat (bits 10 10 numbers)
    minor := UInt16.ofNat (bits 0 10 numbers)
    modulationMode := modulationMode
    carrierFrequency := carrierFrequency
    transportStreamId := transportStreamId
    programNumber := programNumber
    etmLocation := UInt8.ofNat (bits 14 2 flags)
    accessControlled := flags.testBit 13
    hidden := flags.testBit 12
    pathSelect := kind == .cable && flags.testBit 11
    outOfBand := kind == .cable && flags.testBit 10
    hideGuide := flags.testBit 9
    serviceType := UInt8.ofNat (bits 0 6 flags)
    sourceId := sourceId
    descriptors := descriptors }

end VirtualChannel

namespace Vct

def kindOf (id : UInt8) : Transmission := if id = 0xC8 then .terrestrial else .cable

def format : TableFormat Vct :=
  .extended (fun id => id == 0xC8 || id == 0xC9) fun id h => Cursor.exactly do
    let header ← GuideHeader.read h
    let count ← Cursor.u8
    let channels ← Cursor.repeated (VirtualChannel.read (kindOf id)) count.toNat
    return ⟨kindOf id, header, channels, ← DescriptorLoop.readShort⟩

end Vct

structure RatingValue where
  abbreviation : MultipleString
  name : MultipleString
  deriving DecidableEq

structure RatingDimension where
  name : MultipleString
  graduated : Bool
  values : List RatingValue
  deriving DecidableEq

/-- The rating region table. -/
structure Rrt where
  header : GuideHeader
  regionName : MultipleString
  dimensions : List RatingDimension
  descriptors : DescriptorLoop
  deriving DecidableEq

def RatingValue.read : Cursor RatingValue := do
  let abbreviation ← MultipleString.counted
  return ⟨abbreviation, ← MultipleString.counted⟩

def RatingDimension.read : Cursor RatingDimension := do
  let name ← MultipleString.counted
  let b ← Cursor.u8
  return ⟨name, Octet.flag 4 b, ← Cursor.repeated RatingValue.read (Octet.field 0 4 b).toNat⟩

namespace Rrt

def format : TableFormat Rrt :=
  .extended (· == 0xCA) fun _ h => Cursor.exactly do
    let header ← GuideHeader.read h
    let regionName ← MultipleString.counted
    let count ← Cursor.u8
    let dimensions ← Cursor.repeated RatingDimension.read count.toNat
    return ⟨header, regionName, dimensions, ← DescriptorLoop.readShort⟩

def region (t : Rrt) : UInt8 := UInt8.ofNat t.header.extension.toNat

end Rrt

structure GuideEvent where
  id : UInt16
  startTime : GpsTime
  etmLocation : UInt8
  /-- In seconds. -/
  length : UInt32
  title : MultipleString
  descriptors : DescriptorLoop
  deriving DecidableEq

/-- The event information table of ATSC. -/
structure GuideEit where
  header : GuideHeader
  events : List GuideEvent
  deriving DecidableEq

def GuideEvent.read : Cursor GuideEvent := do
  let id := UInt16.ofNat (bits 0 14 (← Cursor.u16).toNat)
  let startTime := ⟨← Cursor.u32⟩
  let length := (← Cursor.u24).toNat
  let title ← MultipleString.counted
  return ⟨id, startTime, UInt8.ofNat (bits 20 2 length), UInt32.ofNat (bits 0 20 length), title,
    ← DescriptorLoop.read⟩

namespace GuideEit

def format : TableFormat GuideEit :=
  .extended (· == 0xCB) fun _ h => Cursor.exactly do
    let header ← GuideHeader.read h
    let count ← Cursor.u8
    return ⟨header, ← Cursor.repeated GuideEvent.read count.toNat⟩

def sourceId (t : GuideEit) : UInt16 := t.header.extension

end GuideEit

/-- The extended text table. -/
structure Ett where
  header : GuideHeader
  /-- The source, the event and two bits, the upper of which says that an event is meant. -/
  etmId : UInt32
  message : MultipleString
  deriving DecidableEq

namespace Ett

def format : TableFormat Ett :=
  .extended (· == 0xCC) fun _ h => do
    let header ← GuideHeader.read h
    let etmId ← Cursor.u32
    return ⟨header, etmId, ← Cursor.lift (MultipleString.read (← Cursor.rest))⟩

def sourceId (t : Ett) : UInt16 := UInt16.ofNat (bits 16 16 t.etmId.toNat)

def eventId (t : Ett) : Option UInt16 :=
  if t.etmId.toNat.testBit 1 then some (UInt16.ofNat (bits 2 14 t.etmId.toNat)) else none

end Ett

/-- The system time table. -/
structure Stt where
  header : GuideHeader
  systemTime : GpsTime
  /-- Seconds that the leap seconds have put the GPS clock ahead. -/
  leapSeconds : UInt8
  daylightSaving : UInt16
  descriptors : DescriptorLoop
  deriving DecidableEq

namespace Stt

def format : TableFormat Stt :=
  .extended (· == 0xCD) fun _ h => do
    let header ← GuideHeader.read h
    let systemTime := ⟨← Cursor.u32⟩
    let leapSeconds ← Cursor.u8
    let daylightSaving ← Cursor.u16
    return ⟨header, systemTime, leapSeconds, daylightSaving,
      ← Cursor.lift (DescriptorLoop.ofBytes (← Cursor.rest))⟩

def toUnix (t : Stt) : Int := t.systemTime.toUnix t.leapSeconds

end Stt

end DvbHost
