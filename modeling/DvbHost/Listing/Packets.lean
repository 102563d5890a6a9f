import DvbHost.KeyedList
import DvbHost.Pid
import DvbHost.Section.Reassembly

/-!
# Sections in transport stream packets

A transport stream is a sequence of packets of 188 octets. Packets that are out of step, marked as
broken or without a payload are passed over; the payloads of each PID are reassembled on their own.
-/

namespace DvbHost

set_option autoImplicit false

structure Packet where
  pid : Pid
  /-- Whether a section starts in the payload. -/
  unitStart : Bool
  payload : Bytes

namespace Packet

def size : Nat := 188

/-- The payload behind the header of a packet, and behind its adaptation field if it has one. -/
def payloadOf (control : Nat) (tail : Bytes) : Option Bytes :=
  match control, tail with
  | 1, _ => some tail
  | 3, length :: tail => (Bytes.split? length.toNat tail).map Prod.snd
  | _, _ => none

/-- A packet with a payload, if the octets are one. -/
def ofOctets? (octets : Bytes) : Option Packet :=
  match octets with
  | sync :: b1 :: b2 :: b3 :: tail =>
    if sync = 0x47 ∧ Octet.flag 7 b1 = false then
      (payloadOf (bits 4 2 b3.toNat) tail).map fun payload =>
        ⟨.ofLow (b1.toNat * 256 + b2.toNat), Octet.flag 6 b1, payload⟩
    else none
  | _ => none

/-- The first `count` groups of a packet's size. -/
def groups : (count : Nat) → Bytes → List Bytes
  | 0, _ => []
  | count + 1, bs => bs.take size :: groups count (bs.drop size)

/-- The packets of a stream; octets at the end that are no whole packet are left out. -/
def ofStream (bs : Bytes) : List Packet := (groups (bs.length / size) bs).filterMap ofOctets?

end Packet

/-- The reassembly of each PID that was seen. -/
abbrev Demux := KeyedList Pid SectionBuffer

namespace Demux

def push (verifyCrc : Bool) (d : Demux) (p : Packet) : Demux × List Section :=
  let (b, sections) :=
    ((KeyedList.get? d p.pid).getD (SectionBuffer.empty verifyCrc)).push p.payload p.unitStart
  (KeyedList.put d p.pid b, sections)

/-- The sections of a sequence of packets, each with its PID, in the order they become whole. -/
def sections (verifyCrc : Bool) : Demux → List Packet → List (Pid × Section)
  | _, [] => []
  | d, p :: ps =>
    let (d, found) := push verifyCrc d p
    (found.map fun s => (p.pid, s)) ++ sections verifyCrc d ps

end Demux

/-- The sections of a transport stream; with a filter only those on the PID of that number. -/
def streamSections (verifyCrc : Bool) (only : Option Nat) (bs : Bytes) : List (Pid × Section) :=
  let wanted (p : Packet) := match only with
    | none => true
    | some n => p.pid.number == n
  Demux.sections verifyCrc [] ((Packet.ofStream bs).filter wanted)

end DvbHost
