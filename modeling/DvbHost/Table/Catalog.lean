import DvbHost.Descriptor.Standard
import DvbHost.Table.Clock
import DvbHost.Table.Event
import DvbHost.Table.Guide
import DvbHost.Table.Network
import DvbHost.Table.Program
import DvbHost.Table.Service

/-!
# All tables

A section is read as the table that its id stands for. Eight of the tables can be written.
-/

namespace DvbHost

set_option autoImplicit false

inductive Table where
  | pat (t : Pat)
  | cat (t : Cat)
  | pmt (t : Pmt)
  | tsdt (t : Tsdt)
  | nit (t : Nit)
  | sdt (t : Sdt)
  | bat (t : Bat)
  | eit (t : Eit)
  | tdt (t : Tdt)
  | rst (t : Rst)
  | stuffing (t : StuffingTable)
  | tot (t : Tot)
  | dit (t : Dit)
  | sit (t : Sit)
  | mgt (t : Mgt)
  | vct (t : Vct)
  | rrt (t : Rrt)
  | guideEit (t : GuideEit)
  | ett (t : Ett)
  | stt (t : Stt)

namespace Table

/-- The formats of all tables, no two for the same id. -/
def formats : List (TableFormat Table) :=
  [Pat.format.map pat, Cat.format.map cat, Pmt.format.map pmt, Tsdt.format.map tsdt,
   Nit.format.map nit, Sdt.format.map sdt, Bat.format.map bat, Eit.format.map eit,
   Tdt.format.map tdt, Rst.format.map rst, StuffingTable.format.map stuffing, Tot.format.map tot,
   Dit.format.map dit, Sit.format.map sit, Mgt.format.map mgt, Vct.format.map vct,
   Rrt.format.map rrt, GuideEit.format.map guideEit, Ett.format.map ett, Stt.format.map stt]

/-- The table of a section. -/
def read (s : Section) : Except SiError Table :=
  match formats.find? fun f => f.accepts s.tableId with
  | some f => f.read s
  | none => .error (.unsupportedTableId s.tableId)

/-- The table in the section at the front of a byte string, and the number of octets it takes. -/
def decode (bs : Bytes) (verifyCrc : Bool) : Except SiError (Table × Nat) := do
  let (s, size) ← Section.ofBytes bs verifyCrc
  return (← read s, size)

def name : Table → String
  | pat _ => "PAT"
  | cat _ => "CAT"
  | pmt _ => "PMT"
  | tsdt _ => "TSDT"
  | nit _ => "NIT"
  | sdt _ => "SDT"
  | bat _ => "BAT"
  | eit _ => "EIT"
  | tdt _ => "TDT"
  | rst _ => "RST"
  | stuffing _ => "ST"
  | tot _ => "TOT"
  | dit _ => "DIT"
  | sit _ => "SIT"
  | mgt _ => "MGT"
  | vct t => match t.kind with
    | .terrestrial => "TVCT"
    | .cable => "CVCT"
  | rrt _ => "RRT"
  | guideEit _ => "ATSC EIT"
  | ett _ => "ETT"
  | stt _ => "STT"

/-- The section of a table that can be written. -/
def write? : Table → Option (Except SiError Bytes)
  | pat t => some t.write
  | cat t => some t.write
  | pmt t => some t.write
  | nit t => some t.write
  | sdt t => some t.write
  | eit t => some t.write
  | tdt t => some t.write
  | tot t => some t.write
  | _ => none

/-- The standard under which the descriptors of a table are read. -/
def standard : Table → Standard
  | pat _ | cat _ | pmt _ | tsdt _ => .mpeg
  | mgt _ | vct _ | rrt _ | guideEit _ | ett _ | stt _ => .atsc
  | _ => .dvb

end Table

end DvbHost
