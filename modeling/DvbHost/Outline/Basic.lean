import DvbHost.Calendar.DateTime
import DvbHost.Descriptor.Service
import DvbHost.Descriptor.Systems
import DvbHost.Listing.Shape
import DvbHost.Table.RunningStatus
import DvbHost.Text.MultipleString
import DvbHost.Text.Quoted

/-!
# Outlines

An outline is a decoded value as named parts, down to the value kinds of the domain. It is what
every table and descriptor has in common, so a listing or an encoding is written once for all of
them. Members that are computed from the others stand apart from the fields that were read.
-/

namespace DvbHost

set_option autoImplicit false

inductive Outline where
  | number (n : Int)
  | flag (b : Bool)
  | octets (bs : Bytes)
  | text (t : DvbText)
  | characters (cs : List Char)
  | strings (m : MultipleString)
  | language (l : Language)
  | pid (p : Pid)
  | dateTime (t : DateTime)
  | gpsTime (t : GpsTime)
  | streamType (t : StreamType)
  | serviceType (t : ServiceType)
  | runningStatus (s : RunningStatus)
  | descriptors (l : DescriptorLoop)
  /-- One of several named alternatives. -/
  | choice (name : String)
  | optional (o : Option Outline)
  | list (os : List Outline)
  | record (name : String) (fields : List (String × Outline)) (derived : List (String × Outline))

namespace RunningStatus

def shape : RunningStatus → Shape
  | undefined => .atom "Undefined"
  | notRunning => .atom "NotRunning"
  | startsSoon => .atom "StartsSoon"
  | pausing => .atom "Pausing"
  | running => .atom "Running"
  | offAir => .atom "OffAir"
  | reserved code => .tuple "Reserved" [.atom (toString code.toNat)]

end RunningStatus

namespace Shape

def ofNat (n : Nat) : Shape := .atom (toString n)

def ofOctets (bs : Bytes) : Shape := .list (bs.map fun b => ofNat b.toNat)

def ofLanguage (l : Language) : Shape := .tuple "LangCode" [ofOctets l.toBytes]

def ofSegment (s : Segment) : Shape :=
  .record "StringSegment" [("compression_type", ofNat s.compression.toNat),
    ("mode", ofNat s.mode.toNat), ("bytes", ofOctets s.bytes)]

def ofLocalString (s : LocalString) : Shape :=
  .record "AtscString" [("lang_code", ofLanguage s.language),
    ("segments", .list (s.segments.map ofSegment))]

def ofStrings (m : MultipleString) : Shape :=
  .record "MultipleString" [("strings", .list (m.strings.map ofLocalString))]

def ofRawDescriptor (d : RawDescriptor) : Shape :=
  .record "RawDescriptor" [("tag", .atom (Numeral.hexMarked 2 d.tag.toNat)),
    ("data", .atom (toString d.data.length ++ " bytes"))]

def ofLoop (l : DescriptorLoop) : Shape :=
  .enclosed "DescriptorBlock(" (.list (l.items.map ofRawDescriptor)) ")"

def ofFlag (b : Bool) : Shape := .atom (if b then "true" else "false")

def ofPid (p : Pid) : Shape := .atom ("Pid(" ++ p.text ++ ")")

end Shape

namespace Outline

mutual

/-- The shape of a value in a listing; derived members are not listed. -/
def shape : Outline → Shape
  | number n => .atom (toString n)
  | flag b => .ofFlag b
  | octets bs => .ofOctets bs
  | text t => .atom (Text.quoted t.decode)
  | characters cs => .atom (Text.quoted cs)
  | strings m => .ofStrings m
  | language l => .ofLanguage l
  | pid p => .ofPid p
  | dateTime t => .atom t.text
  | gpsTime t => .tuple "GpsTime" [.ofNat t.seconds.toNat]
  | streamType t => .tuple "StreamType" [.ofNat t.code.toNat]
  | serviceType t => .tuple "ServiceType" [.ofNat t.code.toNat]
  | runningStatus s => s.shape
  | descriptors l => .ofLoop l
  | choice name => .atom name
  | optional none => .atom "None"
  | optional (some o) => .tuple "Some" [o.shape]
  | list os => .list (shapes os)
  | record name fields _ => .record name (fieldShapes fields)

def shapes : List Outline → List Shape
  | [] => []
  | o :: os => o.shape :: shapes os

def fieldShapes : List (String × Outline) → List (String × Shape)
  | [] => []
  | (name, o) :: fs => (name, o.shape) :: fieldShapes fs

end

def ofNat (n : Nat) : Outline := .number n

def octet (n : UInt8) : Outline := .number n.toNat

def word (n : UInt16) : Outline := .number n.toNat

def long (n : UInt32) : Outline := .number n.toNat

def country (l : Language) : Outline := .octets l.toBytes

end Outline

end DvbHost
