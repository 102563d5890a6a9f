import DvbHost.Calendar.Gregorian
import DvbHost.Listing.Packets
import DvbHost.Outline.Descriptor
import DvbHost.Outline.Table

/-!
# Listings of sections

A section is listed by the name of its table and by what viewers ask of it, or in full. Sections
that cannot be read as a table are not listed.
-/

namespace DvbHost.Listing

set_option autoImplicit false

structure Options where
  verifyCrc : Bool
  /-- List tables in full. -/
  verbose : Bool

def indented (n : Nat) (text : String) : String := String.ofList (List.replicate n ' ') ++ text

/-- A descriptor: its tag, its name, and its content or why there is none. -/
def descriptorLine (indent : Nat) (standard : Standard) (d : RawDescriptor) : String :=
  let name := (standard.descriptorName d.tag).getD "unknown"
  let content := match standard.read d.tag d.data with
    | .error e => "<" ++ e.message ++ ">"
    | .ok descriptor =>
      match descriptor.outline? with
      | none => "(" ++ toString d.data.length ++ " bytes)"
      | some (kind, outline) => (Shape.tuple kind [outline.shape]).line
  indented indent (Numeral.hexMarked 2 d.tag.toNat ++ " " ++ name ++ " " ++ content)

def loopLines (indent : Nat) (standard : Standard) (l : DescriptorLoop) : List String :=
  l.items.map (descriptorLine indent standard)

def timeLine (label : String) (unix : Int) : String :=
  "  " ++ label ++ ": " ++ Gregorian.timestamp unix

/-- The lines of a table below its name. -/
def bodyLines (t : Table) : List String :=
  let loop (indent : Nat) (l : DescriptorLoop) := loopLines indent t.standard l
  match t with
  | .pat t => t.programs.map fun p =>
      "  program " ++ toString p.number.toNat ++ " -> " ++ p.mapPid.text
  | .pmt t => loop 2 t.descriptors ++ t.streams.flatMap fun s =>
      ("  stream " ++ Numeral.hexMarked 2 s.streamType.code.toNat ++ " " ++ s.pid.text)
        :: loop 4 s.descriptors
  | .sdt t => t.services.flatMap fun s =>
      ("  service " ++ Numeral.hexMarked 4 s.id.toNat ++ " " ++ s.broadcast.status.shape.line)
        :: loop 4 s.broadcast.descriptors
  | .eit t => t.events.flatMap fun e =>
      let start := match e.startTime with
        | some time => time.text
        | none => "(undefined)"
      ("  event " ++ Numeral.hexMarked 4 e.id.toNat ++ " " ++ start)
        :: loop 4 e.broadcast.descriptors
  | .tdt t => [timeLine "utc_time" t.utcTime.toUnix]
  | .tot t => timeLine "utc_time" t.utcTime.toUnix :: loop 2 t.descriptors
  | .stt t => [timeLine "system_time" t.toUnix]
  | .vct t => t.channels.flatMap fun c =>
      ("  " ++ toString c.major.toNat ++ "-" ++ toString c.minor.toNat ++ " "
        ++ String.ofList c.shortName ++ " (source_id=" ++ toString c.sourceId.toNat ++ ")")
        :: loop 4 c.descriptors
  | _ => []

/-- The entries of one section, each of one or more lines. -/
def sectionEntries (o : Options) (pid : Option Pid) (s : Section) : List String :=
  match Table.read s with
  | .error _ => []
  | .ok t =>
    let place := match pid with
      | some p => ", pid=" ++ p.text
      | none => ""
    (t.name ++ " (table_id=" ++ Numeral.hexMarked 2 s.tableId.toNat ++ place ++ ")") ::
      if o.verbose then (Shape.tuple t.outline.1 [t.outline.2.shape]).lines else bodyLines t

/-- The sections that follow each other without a gap, up to the first that cannot be read. -/
def adjacentWithin (verifyCrc : Bool) : (fuel : Nat) → Bytes → List Section
  | 0, _ => []
  | fuel + 1, bs =>
    match Section.ofBytes bs verifyCrc with
    | .ok (s, size) => s :: adjacentWithin verifyCrc fuel (bs.drop size)
    | .error _ => []

def adjacent (verifyCrc : Bool) (bs : Bytes) : List Section :=
  adjacentWithin verifyCrc bs.length bs

def entriesOfSections (o : Options) (bs : Bytes) : List String :=
  (adjacent o.verifyCrc bs).flatMap (sectionEntries o none)

def entriesOfStream (o : Options) (only : Option Nat) (bs : Bytes) : List String :=
  (streamSections o.verifyCrc only bs).flatMap fun p => sectionEntries o (some p.1) p.2

/-- A line ends at a line feed; one carriage return right before it is part of the end. -/
def withoutReturn (line : String) : String :=
  let cs := line.toList
  if cs.getLast? = some '\r' then String.ofList cs.dropLast else line

/-- Entries hold texts, and texts may hold ends of lines. Each entry is ended by a line feed. -/
def toLines (entries : List String) : List String :=
  entries.flatMap fun e => (e.splitOn "\n").map withoutReturn

def ofSections (o : Options) (bs : Bytes) : List String := toLines (entriesOfSections o bs)

def ofStream (o : Options) (only : Option Nat) (bs : Bytes) : List String :=
  toLines (entriesOfStream o only bs)

end DvbHost.Listing
