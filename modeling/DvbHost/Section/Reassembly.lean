import DvbHost.Section.Basic

/-!
# Reassembly of sections

Sections arrive in the payloads of packets. Where a section starts in a payload, the payload is
marked and begins with a pointer to that start. The buffer keeps the octets of the section under
way and gives out each section as it becomes whole.
-/

namespace DvbHost

set_option autoImplicit false

structure SectionBuffer where
  pending : Bytes
  /-- Whether the start of the pending octets is the start of a section. -/
  synced : Bool
  verifyCrc : Bool

namespace SectionBuffer

/-- A whole section of the greatest length. -/
def capacity : Nat := 3 + Section.maxLength

def empty (verifyCrc : Bool) : SectionBuffer := ⟨[], false, verifyCrc⟩

/-- Forgets the section under way and waits for the next marked payload. -/
def reset (b : SectionBuffer) : SectionBuffer := { b with pending := [], synced := false }

/-- The octets that a section with this header takes. -/
def statedSize : Bytes → Nat
  | _ :: b1 :: b2 :: _ => 3 + Section.statedLength b1 b2
  | bs => bs.length

/-- What is taken from the front of the pending octets. -/
structure Drained where
  sections : List Section
  rest : Bytes
  /-- A header was found whose length cannot be trusted. -/
  corrupt : Bool

/-- Takes sections from the front until an incomplete one, stuffing or a corrupt header is found,
at most `fuel` of them. A section with a wrong checksum is passed over. -/
def drainWithin (verifyCrc : Bool) : (fuel : Nat) → Bytes → Drained
  | 0, bs => ⟨[], bs, false⟩
  | fuel + 1, bs =>
    match Section.ofBytes bs verifyCrc with
    | .ok (s, size) =>
      let d := drainWithin verifyCrc fuel (bs.drop size)
      { d with sections := s :: d.sections }
    | .error .truncatedData | .error .endOfPsi => ⟨[], bs, false⟩
    | .error .crcMismatch => drainWithin verifyCrc fuel (bs.drop (statedSize bs))
    | .error _ => ⟨[], [], true⟩

/-- Every section takes at least three octets, so the octets bound the sections. -/
def drain (verifyCrc : Bool) (bs : Bytes) : Drained := drainWithin verifyCrc (bs.length + 1) bs

/-- Adds octets behind the pending ones, as far as there is room, and takes what is whole. -/
def append (b : SectionBuffer) (data : Bytes) : SectionBuffer × List Section :=
  let d := drain b.verifyCrc (b.pending ++ data.take (capacity - b.pending.length))
  ({ b with pending := d.rest, synced := b.synced && !d.corrupt }, d.sections)

/-- Adds octets that continue the pending ones; without a known start they are passed over. -/
def continuation (b : SectionBuffer) (data : Bytes) : SectionBuffer × List Section :=
  if b.synced then b.append data else (b, [])

/-- Adds the payload of a packet. With `unitStart` its first octet says how many octets belong to
the section under way; a pointer past the end loses the sections' place. -/
def push (b : SectionBuffer) (payload : Bytes) (unitStart : Bool) : SectionBuffer × List Section :=
  match payload with
  | [] => (b, [])
  | pointer :: tail =>
    if unitStart then
      match Bytes.split? pointer.toNat tail with
      | none => (b.reset, [])
      | some (previous, next) =>
        let (b, finished) :=
          if previous.isEmpty then (b, []) else b.continuation previous
        let (b, started) := { b with pending := [], synced := true }.append next
        (b, finished ++ started)
    else b.continuation payload

def text (b : SectionBuffer) : String :=
  let flag (x : Bool) := if x then "true" else "false"
  "SectionBuffer \x7b pending: " ++ toString b.pending.length ++ ", synced: " ++ flag b.synced
    ++ ", verify_crc: " ++ flag b.verifyCrc ++ " \x7d"

end SectionBuffer

end DvbHost
