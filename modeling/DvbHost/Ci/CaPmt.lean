import DvbHost.Ci.Apdu
import DvbHost.Table.Program

/-!
# Programs to descramble

A CA_PMT tells a module which program to descramble: the program map with nothing but its
conditional access descriptors. A level, the program or one of its streams, that has such
descriptors has a command in front of them. The reply says for each level whether descrambling is
possible.
-/

namespace DvbHost.Ci

set_option autoImplicit false

/-- The place of a CA_PMT in the list of programs. -/
inductive ListManagement where
  | more
  | first
  | last
  | only
  | add
  | update
  deriving DecidableEq

def ListManagement.code : ListManagement → UInt8
  | more => 0x00
  | first => 0x01
  | last => 0x02
  | only => 0x03
  | add => 0x04
  | update => 0x05

inductive CaCommand where
  | okDescrambling
  | okMmi
  | query
  | notSelected
  deriving DecidableEq

def CaCommand.code : CaCommand → UInt8
  | okDescrambling => 0x01
  | okMmi => 0x02
  | query => 0x03
  | notSelected => 0x04

structure CaPmt where
  body : Bytes
  deriving DecidableEq

namespace CaPmt

/-- The conditional access descriptors of a level, in order. -/
def kept (l : DescriptorLoop) : List RawDescriptor :=
  l.items.filter fun d => d.tag == Descriptor.ConditionalAccess.format.tag

/-- The command and the kept descriptors, or nothing if none is kept. -/
def levelInfo (command : CaCommand) (l : DescriptorLoop) : Bytes :=
  match kept l with
  | [] => []
  | ds => command.code :: ds.flatMap RawDescriptor.toBytes

/-- A level behind its length of 12 bits. -/
def level (command : CaCommand) (l : DescriptorLoop) : Except CiError Bytes :=
  let info := levelInfo command l
  if info.length ≤ 0xFFF then .ok (Bytes.ofNumber 2 (0xF000 + info.length) ++ info)
  else .error .lengthMismatch

def stream (command : CaCommand) (s : PmtStream) : Except CiError Bytes := do
  return s.streamType.code :: s.pid.toBytes ++ (← level command s.descriptors)

def versionOctet (i : SectionInfo) : UInt8 :=
  UInt8.ofNat (0xC0 + bits 0 5 i.version.toNat * 2 + flagWeight 0 i.current)

def ofPmt (t : Pmt) (place : ListManagement) (command : CaCommand) : Except CiError CaPmt := do
  let program ← level command t.descriptors
  let streams ← t.streams.mapM (stream command)
  return ⟨place.code :: Bytes.ofUInt16 t.programNumber ++ versionOctet t.info :: program ++
    streams.flatten⟩

def apdu (c : CaPmt) : Except CiError Bytes := Apdu.encode 0x9F8032 c.body

end CaPmt

structure CaReplyStream where
  pid : Pid
  /-- Whether and how the stream can be descrambled, if the module says so. -/
  enable : Option UInt8
  deriving DecidableEq

structure CaPmtReply where
  programNumber : UInt16
  /-- 5 bits. -/
  version : UInt8
  current : Bool
  enable : Option UInt8
  streams : List CaReplyStream
  deriving DecidableEq

namespace CaPmtReply

/-- The upper bit says whether the other seven mean anything. -/
def enableOf (b : UInt8) : Option UInt8 :=
  if Octet.flag 7 b then some (Octet.field 0 7 b) else none

def streamOf (part : Bytes) : CaReplyStream :=
  ⟨Pid.ofLow (Bytes.number (part.take 2)), enableOf (part.getD 2 0)⟩

/-- Program number, version, and then, unless the data ends there, the program's octet and three
octets for each stream. -/
def read : Bytes → Except CiError CaPmtReply
  | p1 :: p2 :: v :: tail =>
    match Bytes.parts? 3 (tail.drop 1) with
    | none => .error .lengthMismatch
    | some parts =>
      .ok ⟨UInt16.ofNat (Bytes.number [p1, p2]), Octet.field 1 5 v, Octet.flag 0 v,
        tail.head?.bind enableOf, parts.map streamOf⟩
  | _ => .error .truncatedData

end CaPmtReply

end DvbHost.Ci
