import DvbHost.Proofs.Checked.Section
import DvbHost.Proofs.Checked.Text
import DvbHost.Table.Catalog

/-!
# Tables with faults

Tables are read field by field. The loops of descriptors in them are checked as in the library, by
pattern; the numbers, identifiers, times and names by index.
-/

namespace DvbHost

set_option autoImplicit false

open Octet (field flag)

variable {α β : Type}

/-- How one kind of table is read, with the faults of reading. -/
structure CheckedTable (α : Type) where
  accepts : UInt8 → Bool
  body : Section → Decoding α

namespace CheckedTable

open CheckedCursor

/-- A format of the library. -/
def ofFormat (f : TableFormat α) : CheckedTable α :=
  ⟨f.accepts, fun s => .ofResult (f.body s)⟩

def map (g : α → β) (c : CheckedTable α) : CheckedTable β :=
  ⟨c.accepts, fun s => g <$> c.body s⟩

/-- A table in sections of the extended form. -/
def extended (accepts : UInt8 → Bool) (p : UInt8 → ExtendedHeader → CheckedCursor α) :
    CheckedTable α :=
  ⟨accepts, fun s => do
    let h ← Decoding.ofResult s.extendedHeader
    (p s.tableId h).run s.data⟩

/-- A table in sections of any form. -/
def plain (id : UInt8) (p : CheckedCursor α) : CheckedTable α := ⟨(· == id), fun s => p.run s.data⟩

theorem map_ofFormat (g : α → β) (f : TableFormat α) : (ofFormat f).map g = ofFormat (f.map g) := by
  rw [map, ofFormat, ofFormat, TableFormat.map]
  simp only [Decoding.ofResult_map]

theorem extended_eq {accepts : UInt8 → Bool} {c : UInt8 → ExtendedHeader → CheckedCursor α}
    {p : UInt8 → ExtendedHeader → Cursor α} (h : ∀ id header, c id header = ofCursor (p id header)) :
    extended accepts c = ofFormat (.extended accepts p) := by
  rw [extended, ofFormat, TableFormat.extended]
  simp only [h, run_ofCursor, Decoding.ofResult_bind]

theorem plain_eq {id : UInt8} {c : CheckedCursor α} {p : Cursor α} (h : c = ofCursor p) :
    plain id c = ofFormat (.plain id p) := by
  rw [plain, ofFormat, TableFormat.plain, h]
  simp only [run_ofCursor]

/-! ## Descriptor loops -/

/-- A loop in the next `n` octets. -/
def loopOf (n : Nat) : CheckedCursor DescriptorLoop := ofCursor (DescriptorLoop.ofLength n)

def length12 : CheckedCursor Nat := do return bits 0 12 (← u16).toNat

/-- A loop after its length of 12 bits. -/
def loop : CheckedCursor DescriptorLoop := do loopOf (← length12)

/-- A loop after its length of 10 bits. -/
def shortLoop : CheckedCursor DescriptorLoop := do loopOf (bits 0 10 (← u16).toNat)

/-- All octets not yet read as a loop. -/
def restLoop : CheckedCursor DescriptorLoop := do
  decode (.ofResult (DescriptorLoop.ofBytes (← rest)))

theorem length12_eq : length12 = ofCursor Cursor.length12 := by
  simp only [length12, Cursor.length12, u16_eq, ofCursor_bind, ofCursor_pure]

theorem loop_eq : loop = ofCursor DescriptorLoop.read := by
  simp only [loop, DescriptorLoop.read, length12_eq, loopOf, ofCursor_bind]

theorem shortLoop_eq : shortLoop = ofCursor DescriptorLoop.readShort := by
  simp only [shortLoop, DescriptorLoop.readShort, u16_eq, loopOf, ofCursor_bind]

theorem restLoop_eq :
    restLoop = ofCursor (do Cursor.lift (DescriptorLoop.ofBytes (← Cursor.rest))) := by
  simp only [restLoop, rest, decode_ofResult, ofCursor_bind]

/-! ## Programs -/

/-- A number and a PID. -/
def patEntry (part : Bytes) : Checked (UInt16 × Pid) := do
  let number ← Checked.u16 [← Checked.octet part 0, ← Checked.octet part 1]
  return (number, ← Checked.pid (← Checked.slice part 2 4))

def pat : CheckedTable Pat :=
  extended (· == 0x00) fun _ h => do return Pat.ofEntries h (← entries 4 patEntry)

theorem pat_eq : pat = ofFormat Pat.format := by
  have hentries : entries 4 patEntry = ofCursor (Cursor.entries 4 Pat.readEntry) :=
    entries_eq (by decide) fun part h => by
      match part, h with
      | [a, b, c, d], _ => exact ⟨_, rfl, fun tail => rfl⟩
  exact extended_eq fun id h => by rw [hentries]; simp only [ofCursor_bind, ofCursor_pure]

def cat : CheckedTable Cat := extended (· == 0x01) fun _ h => do return ⟨h.info, ← restLoop⟩

theorem cat_eq : cat = ofFormat Cat.format :=
  extended_eq fun id h => by simp only [restLoop_eq, ofCursor_bind, ofCursor_pure, bind_assoc]

def pmtStream : CheckedCursor PmtStream := do
  let streamType ← u8
  let pid ← pid
  return ⟨⟨streamType⟩, pid, ← loop⟩

def pmt : CheckedTable Pmt := extended (· == 0x02) fun _ h => do
  let pcrPid ← pid
  let descriptors ← loop
  return ⟨h.extension, h.info, pcrPid, descriptors, ← untilEnd pmtStream⟩

theorem pmtStream_eq : pmtStream = ofCursor PmtStream.read := by
  simp only [pmtStream, PmtStream.read, StreamType.read, u8, pid_eq, loop_eq, ofCursor_bind,
    ofCursor_pure, bind_assoc, pure_bind]

theorem pmt_eq : pmt = ofFormat Pmt.format :=
  extended_eq fun id h => by
    simp only [pid_eq, loop_eq, pmtStream_eq, untilEnd_ofCursor, ofCursor_bind, ofCursor_pure]

def tsdt : CheckedTable Tsdt := extended (· == 0x03) fun _ h => do return ⟨h.info, ← restLoop⟩

theorem tsdt_eq : tsdt = ofFormat Tsdt.format :=
  extended_eq fun id h => by simp only [restLoop_eq, ofCursor_bind, ofCursor_pure, bind_assoc]

/-! ## Networks -/

def transportStream : CheckedCursor TransportStream := do
  let id ← u16
  let originalNetworkId ← u16
  return ⟨id, originalNetworkId, ← loop⟩

/-- A loop of transport streams behind its length. -/
def transportStreams : CheckedCursor (List TransportStream) := do
  let length ← length12
  within length (untilEnd transportStream)

def nit : CheckedTable Nit :=
  extended (fun id => id == 0x40 || id == 0x41) fun id h => exactly do
    let descriptors ← loop
    return ⟨id == 0x40, h.extension, h.info, descriptors, ← transportStreams⟩

def bat : CheckedTable Bat := extended (· == 0x4A) fun _ h => exactly do
  let descriptors ← loop
  return ⟨h.extension, h.info, descriptors, ← transportStreams⟩

theorem transportStream_eq : transportStream = ofCursor TransportStream.read := by
  simp only [transportStream, TransportStream.read, u16_eq, loop_eq, ofCursor_bind, ofCursor_pure]

theorem transportStreams_eq : transportStreams = ofCursor TransportStream.readAll := by
  simp only [transportStreams, TransportStream.readAll, length12_eq, transportStream_eq,
    untilEnd_ofCursor, within_ofCursor, ofCursor_bind]

theorem nit_eq : nit = ofFormat Nit.format :=
  extended_eq fun id h => by
    simp only [loop_eq, transportStreams_eq, ← exactly_ofCursor, ofCursor_bind, ofCursor_pure]

theorem bat_eq : bat = ofFormat Bat.format :=
  extended_eq fun id h => by
    simp only [loop_eq, transportStreams_eq, ← exactly_ofCursor, ofCursor_bind, ofCursor_pure]

/-! ## Services -/

/-- The octet that is read next. -/
def peek : CheckedCursor UInt8 := ofCursor Cursor.peek

/-- Looks into the octet that the length of a loop begins with, and takes the loop. -/
def peeked (f : UInt8 → DescriptorLoop → α) : CheckedCursor α := do
  let b ← peek
  return f b (← loop)

theorem peeked_eq {f : UInt8 → DescriptorLoop → α} (g : Nat → DescriptorLoop → α)
    (h : ∀ (a b : UInt8) (l : DescriptorLoop), f a l = g (a.toNat * 256 + b.toNat) l) :
    peeked f = ofCursor (do
      let w := (← Cursor.u16).toNat
      return g w (← DescriptorLoop.ofLength (bits 0 12 w))) := by
  funext s
  match s with
  | [] => rfl
  | [_] => rfl
  | a :: b :: s =>
    have hw := Octet.toNat_pair a b
    have hf : f a = g (UInt16.ofNat (Bytes.number [a, b])).toNat := by
      funext l
      rw [hw]
      exact h a b l
    have hpeek : peeked f (a :: b :: s) = (do return f a (← loop) : CheckedCursor α) (a :: b :: s) :=
      rfl
    rw [hpeek, hf, loop_eq]
    simp only [← ofCursor_pure, ← ofCursor_bind]
    rfl

/-- A running status, a flag and a loop. -/
def broadcast : CheckedCursor Broadcast :=
  peeked fun b l => ⟨.ofCode (field 5 3 b), flag 4 b, l⟩

theorem broadcast_eq : broadcast = ofCursor Broadcast.read := by
  rw [broadcast, peeked_eq fun w l =>
    (⟨.ofCode (UInt8.ofNat (bits 13 3 w)), w.testBit 12, l⟩ : Broadcast)]
  · rfl
  · intro a b l
    rw [← Octet.bits_pair a b 5 3, ← Octet.testBit_pair a b 4]

def sdtService : CheckedCursor SdtService := do
  let id ← u16
  let flags ← u8
  return ⟨id, flag 1 flags, flag 0 flags, ← broadcast⟩

def sdt : CheckedTable Sdt :=
  extended (fun id => id == 0x42 || id == 0x46) fun id h => do
    let originalNetworkId ← u16
    let _reserved ← u8
    return ⟨id == 0x42, h.extension, h.info, originalNetworkId, ← untilEnd sdtService⟩

theorem sdtService_eq : sdtService = ofCursor SdtService.read := by
  simp only [sdtService, SdtService.read, u16_eq, u8, broadcast_eq, ofCursor_bind, ofCursor_pure]

theorem sdt_eq : sdt = ofFormat Sdt.format :=
  extended_eq fun id h => by
    simp only [u16_eq, u8, sdtService_eq, untilEnd_ofCursor, ofCursor_bind, ofCursor_pure]

def sitService : CheckedCursor SitService := do
  let id ← u16
  peeked fun b l => ⟨id, .ofCode (field 4 3 b), l⟩

def sit : CheckedTable Sit := extended (· == 0x7F) fun _ h => do
  let descriptors ← loop
  return ⟨h.info, descriptors, ← untilEnd sitService⟩

theorem sitService_eq : sitService = ofCursor SitService.read := by
  have hpeeked : ∀ id : UInt16, (peeked fun b l => (⟨id, .ofCode (field 4 3 b), l⟩ : SitService)) =
      ofCursor (do
        let w := (← Cursor.u16).toNat
        let descriptors ← DescriptorLoop.ofLength (bits 0 12 w)
        return ⟨id, .ofCode (UInt8.ofNat (bits 12 3 w)), descriptors⟩) := by
    intro id
    rw [peeked_eq fun w l => (⟨id, .ofCode (UInt8.ofNat (bits 12 3 w)), l⟩ : SitService)]
    intro a b l
    rw [← Octet.bits_pair a b 4 3]
  simp only [sitService, SitService.read, u16_eq, hpeeked, ofCursor_bind]

theorem sit_eq : sit = ofFormat Sit.format :=
  extended_eq fun id h => by
    simp only [loop_eq, sitService_eq, untilEnd_ofCursor, ofCursor_bind, ofCursor_pure]

/-! ## Events -/

/-- The start of an event; five octets of ones are none. -/
def start : CheckedCursor (Option DateTime) := .field 5 fun bs => do
  let octets ← Checked.array 5 bs
  if octets = EitEvent.noStart then return none else return some (← Checked.dateTime octets)

def duration : CheckedCursor Nat := .field 3 fun bs => do
  let octets ← Checked.array 3 bs
  Checked.duration (← Checked.octet octets 0) (← Checked.octet octets 1) (← Checked.octet octets 2)

def eitEvent : CheckedCursor EitEvent := do
  let id ← u16
  let startTime ← start
  let duration ← duration
  return ⟨id, startTime, duration, ← broadcast⟩

def eit : CheckedTable Eit := extended Eit.isTableId fun id h => do
  let transportStreamId ← u16
  let originalNetworkId ← u16
  let segmentLast ← u8
  let lastTableId ← u8
  return ⟨id, h.extension, h.info, transportStreamId, originalNetworkId, segmentLast, lastTableId,
    ← untilEnd eitEvent⟩

theorem start_eq : start = ofCursor EitEvent.readStart := by
  apply field_eq
  · intro bs h
    rw [Checked.array_eq h]
    match bs, h with
    | [a, b, h, m, s], _ =>
      by_cases hnone : [a, b, h, m, s] = EitEvent.noStart
      · refine ⟨none, ?_, fun tail => ?_⟩
        · exact if_pos hnone
        · exact congrFun (if_pos hnone) tail
      · refine ⟨some ⟨Date.ofDay (UInt16.ofNat (Bytes.number [a, b])).toNat,
          UInt8.ofNat (Bcd.value h), UInt8.ofNat (Bcd.value m), UInt8.ofNat (Bcd.value s)⟩, ?_,
          fun tail => ?_⟩
        · rw [Checked.ok_bind, if_neg hnone, Checked.dateTime_eq]
          rfl
        · exact congrFun (if_neg hnone) tail
  · exact (Cursor.takes_bytes 5).needs_bind fun _ => Cursor.needs_zero _

theorem duration_eq : duration = ofCursor EitEvent.readDuration := by
  apply field_eq
  · intro bs h
    match bs, h with
    | [h, m, s], _ => exact ⟨Bcd.duration h m s, Checked.duration_eq h m s, fun tail => rfl⟩
  · exact (Cursor.takes_u8.bind fun _ => Cursor.takes_u8.bind fun _ => Cursor.takes_u8.map _).needs

theorem eitEvent_eq : eitEvent = ofCursor EitEvent.read := by
  simp only [eitEvent, EitEvent.read, u16_eq, start_eq, duration_eq, broadcast_eq, ofCursor_bind,
    ofCursor_pure]

theorem eit_eq : eit = ofFormat Eit.format :=
  extended_eq fun id h => by
    simp only [u16_eq, u8, eitEvent_eq, untilEnd_ofCursor, ofCursor_bind, ofCursor_pure]

def rstEntry : CheckedCursor RstEntry := do
  let transportStreamId ← u16
  let originalNetworkId ← u16
  let serviceId ← u16
  let eventId ← u16
  return ⟨transportStreamId, originalNetworkId, serviceId, eventId,
    .ofCode (field 0 3 (← u8))⟩

/-- The entries of nine octets, read field by field behind a check of the whole length. -/
def rst : CheckedTable Rst := plain 0x71 do
  let s ← ofCursor Cursor.unread
  decode (.require (s.length % 9 = 0) .lengthMismatch)
  return ⟨← untilEnd rstEntry⟩

theorem rstEntry_eq : rstEntry = ofCursor RstEntry.read := by
  simp only [rstEntry, RstEntry.read, u16_eq, u8, ofCursor_bind, ofCursor_pure]

theorem rst_eq : rst = ofFormat Rst.format := by
  apply plain_eq
  have hentries : (ofCursor Cursor.unread >>= fun s =>
      decode (.require (s.length % 9 = 0) .lengthMismatch) >>= fun _ =>
        ofCursor (Cursor.untilEnd RstEntry.read)) = ofCursor (Cursor.entries 9 RstEntry.read) := by
    funext s
    change (decode (.require (s.length % 9 = 0) .lengthMismatch) >>= fun _ =>
      ofCursor (Cursor.untilEnd RstEntry.read)) s = _
    by_cases hwhole : s.length % 9 = 0
    · have hread : Cursor.entries 9 RstEntry.read s = Cursor.untilEnd RstEntry.read s :=
        if_pos hwhole
      rw [Decoding.require_true hwhole, ofCursor, hread]
      rfl
    · have hread : Cursor.entries 9 RstEntry.read s = (.error .lengthMismatch, s) := if_neg hwhole
      rw [Decoding.require_false hwhole, ofCursor, hread]
      rfl
  rw [rstEntry_eq, untilEnd_ofCursor, ofCursor_bind, ← hentries]
  simp only [bind_assoc, ofCursor_pure]

/-! ## Clocks -/

def tdt : CheckedTable Tdt := plain 0x70 <| exactly do return ⟨← dateTime⟩

theorem tdt_eq : tdt = ofFormat Tdt.format :=
  plain_eq <| by simp only [dateTime_eq, ← exactly_ofCursor, ofCursor_bind, ofCursor_pure]

def tot : CheckedTable Tot := plain Section.shortWithChecksum <| exactly do
  let utcTime ← dateTime
  return ⟨utcTime, ← loop⟩

theorem tot_eq : tot = ofFormat Tot.format :=
  plain_eq <| by
    simp only [dateTime_eq, loop_eq, ← exactly_ofCursor, ofCursor_bind, ofCursor_pure]

/-! ## Program guides -/

def guideHeader (h : ExtendedHeader) : CheckedCursor GuideHeader := do
  return ⟨h.extension, h.info, ← u8⟩

theorem guideHeader_eq (h : ExtendedHeader) : guideHeader h = ofCursor (GuideHeader.read h) := by
  simp only [guideHeader, GuideHeader.read, u8, ofCursor_bind, ofCursor_pure]

def guideTable : CheckedCursor GuideTable := do
  let tableType ← u16
  let pid ← pid
  let version := field 0 5 (← u8)
  let size ← u32
  return ⟨tableType, pid, version, size, ← loop⟩

/-- The entries, unless there are too few octets for so many. -/
def guideTables (count : Nat) : CheckedCursor (List GuideTable) := do
  let least ← check (Checked.word 32 (count * Mgt.leastEntry))
  let s ← ofCursor Cursor.unread
  decode (.require (least ≤ s.length) .truncatedData)
  repeated guideTable count

def mgt : CheckedTable Mgt := extended (· == 0xC7) fun _ h => exactly do
  let header ← guideHeader h
  let count ← u16
  let tables ← guideTables count.toNat
  return ⟨header, tables, ← loop⟩

theorem guideTable_eq : guideTable = ofCursor GuideTable.read := by
  simp only [guideTable, GuideTable.read, u16_eq, pid_eq, u8, u32_eq, loop_eq, ofCursor_bind,
    ofCursor_pure]

theorem guideTables_eq {count : Nat} (h : count < 0x10000) :
    guideTables count = ofCursor (Mgt.readTables count) := by
  have hleast : Checked.word 32 (count * Mgt.leastEntry) = .ok (count * Mgt.leastEntry) :=
    Checked.word_eq (by rw [Mgt.leastEntry]; omega)
  rw [guideTables, hleast, check_ok, pure_bind, guideTable_eq, repeated_ofCursor]
  funext s
  change (decode (.require (count * Mgt.leastEntry ≤ s.length) .truncatedData) >>= fun _ =>
    ofCursor (Cursor.repeated GuideTable.read count)) s = _
  by_cases hfew : s.length < count * Mgt.leastEntry
  · have hread : Mgt.readTables count s = (.error .truncatedData, s) :=
      congrFun (if_pos hfew) s
    rw [Decoding.require_false (Nat.not_le.mpr hfew), ofCursor, hread]
    rfl
  · have hread : Mgt.readTables count s = Cursor.repeated GuideTable.read count s :=
      congrFun (if_neg hfew) s
    rw [Decoding.require_true (Nat.not_lt.mp hfew), ofCursor, hread]
    rfl

theorem mgt_eq : mgt = ofFormat Mgt.format :=
  extended_eq fun id h => by
    simp only [guideHeader_eq, u16_eq, guideTables_eq (UInt16.toNat_lt _), loop_eq,
      ← exactly_ofCursor, ofCursor_bind, ofCursor_pure]

/-- The characters before the first NUL of seven units of UTF-16. -/
def channelName : CheckedCursor (List Char) := .field 14 fun bs => do
  let units ← Checked.units (← Checked.array 14 bs)
  return (Text.Utf16.decode units).takeWhile (· != '\x00')

def virtualChannel (kind : Transmission) : CheckedCursor VirtualChannel := do
  let shortName ← channelName
  let numbers := (← u24).toNat
  let modulationMode ← u8
  let carrierFrequency ← u32
  let transportStreamId ← u16
  let programNumber ← u16
  let flags := (← u16).toNat
  let sourceId ← u16
  let descriptors ← shortLoop
  return {
    shortName := shortName
    major := UInt16.ofNat (bits 10 10 numbers)
    minor := UInt16.ofNat (bits 0 10 numbers)
    modulationMode := modulationMode
    carrierFrequency := carrierFrequency
    transportStreamId := transportStreamId
    programNumber := programNumber
    etmLocation := UInt8.ofNat (bits 14 2 flags)
    accessControlled := flags.testBit 13
    hidden := flags.testBit 12
    pathSelect := kind == .cable && flags.testBit 11
    outOfBand := kind == .cable && flags.testBit 10
    hideGuide := flags.testBit 9
    serviceType := UInt8.ofNat (bits 0 6 flags)
    sourceId := sourceId
    descriptors := descriptors }

def vct : CheckedTable Vct :=
  extended (fun id => id == 0xC8 || id == 0xC9) fun id h => exactly do
    let header ← guideHeader h
    let count ← u8
    let channels ← repeated (virtualChannel (Vct.kindOf id)) count.toNat
    return ⟨Vct.kindOf id, header, channels, ← shortLoop⟩

theorem channelName_eq : channelName = ofCursor VirtualChannel.readName := by
  apply field_eq
  · intro bs h
    have hreads := (Cursor.reads_bytes bs).map fun bs =>
      (Text.Utf16.decode (Text.Utf16.units bs)).takeWhile (· != '\x00')
    rw [h] at hreads
    refine ⟨_, ?_, hreads⟩
    rw [Checked.array_eq h, Checked.ok_bind, Checked.units_eq]
    rfl
  · exact ((Cursor.takes_bytes 14).map _).needs

theorem virtualChannel_eq (kind : Transmission) :
    virtualChannel kind = ofCursor (VirtualChannel.read kind) := by
  simp only [virtualChannel, VirtualChannel.read, channelName_eq, u24_eq, u8, u32_eq, u16_eq,
    shortLoop_eq, ofCursor_bind, ofCursor_pure]

theorem vct_eq : vct = ofFormat Vct.format :=
  extended_eq fun id h => by
    simp only [guideHeader_eq, u8, virtualChannel_eq, repeated_ofCursor, shortLoop_eq,
      ← exactly_ofCursor, ofCursor_bind, ofCursor_pure]

def ratingValue : CheckedCursor RatingValue := do
  let abbreviation ← strings
  return ⟨abbreviation, ← strings⟩

def ratingDimension : CheckedCursor RatingDimension := do
  let name ← strings
  let b ← u8
  return ⟨name, flag 4 b, ← repeated ratingValue (field 0 4 b).toNat⟩

def rrt : CheckedTable Rrt := extended (· == 0xCA) fun _ h => exactly do
  let header ← guideHeader h
  let regionName ← strings
  let count ← u8
  let dimensions ← repeated ratingDimension count.toNat
  return ⟨header, regionName, dimensions, ← shortLoop⟩

theorem ratingValue_eq : ratingValue = ofCursor RatingValue.read := by
  simp only [ratingValue, RatingValue.read, strings_eq, ofCursor_bind, ofCursor_pure]

theorem ratingDimension_eq : ratingDimension = ofCursor RatingDimension.read := by
  simp only [ratingDimension, RatingDimension.read, strings_eq, u8, ratingValue_eq,
    repeated_ofCursor, ofCursor_bind, ofCursor_pure]

theorem rrt_eq : rrt = ofFormat Rrt.format :=
  extended_eq fun id h => by
    simp only [guideHeader_eq, strings_eq, u8, ratingDimension_eq, repeated_ofCursor,
      shortLoop_eq, ← exactly_ofCursor, ofCursor_bind, ofCursor_pure]

def guideEvent : CheckedCursor GuideEvent := do
  let id := UInt16.ofNat (bits 0 14 (← u16).toNat)
  let startTime := ⟨← u32⟩
  let length := (← u24).toNat
  let title ← strings
  return ⟨id, startTime, UInt8.ofNat (bits 20 2 length), UInt32.ofNat (bits 0 20 length), title,
    ← loop⟩

def guideEit : CheckedTable GuideEit := extended (· == 0xCB) fun _ h => exactly do
  let header ← guideHeader h
  let count ← u8
  return ⟨header, ← repeated guideEvent count.toNat⟩

theorem guideEvent_eq : guideEvent = ofCursor GuideEvent.read := by
  simp only [guideEvent, GuideEvent.read, u16_eq, u32_eq, u24_eq, strings_eq, loop_eq,
    ofCursor_bind, ofCursor_pure]

theorem guideEit_eq : guideEit = ofFormat GuideEit.format :=
  extended_eq fun id h => by
    simp only [guideHeader_eq, u8, guideEvent_eq, repeated_ofCursor, ← exactly_ofCursor,
      ofCursor_bind, ofCursor_pure]

def ett : CheckedTable Ett := extended (· == 0xCC) fun _ h => do
  let header ← guideHeader h
  let etmId ← u32
  return ⟨header, etmId, ← decode (Decoding.multipleString (← rest))⟩

theorem ett_eq : ett = ofFormat Ett.format :=
  extended_eq fun id h => by
    simp only [guideHeader_eq, u32_eq, rest, Decoding.multipleString_eq, decode_ofResult,
      ofCursor_bind, ofCursor_pure]

def stt : CheckedTable Stt := extended (· == 0xCD) fun _ h => do
  let header ← guideHeader h
  let systemTime := ⟨← u32⟩
  let leapSeconds ← u8
  let daylightSaving ← u16
  return ⟨header, systemTime, leapSeconds, daylightSaving, ← restLoop⟩

theorem stt_eq : stt = ofFormat Stt.format :=
  extended_eq fun id h => by
    simp only [guideHeader_eq, u32_eq, u8, u16_eq, restLoop_eq, ofCursor_bind, ofCursor_pure,
      bind_assoc]

end CheckedTable

/-! ## All tables -/

namespace Table

open CheckedTable

/-- The formats of all tables, in the order in which they are tried. -/
def checkedFormats : List (CheckedTable Table) :=
  [CheckedTable.pat.map pat, CheckedTable.cat.map cat, CheckedTable.pmt.map pmt,
   CheckedTable.tsdt.map tsdt, CheckedTable.nit.map nit, CheckedTable.sdt.map sdt,
   CheckedTable.bat.map bat, CheckedTable.eit.map eit, CheckedTable.tdt.map tdt,
   CheckedTable.rst.map rst, (ofFormat StuffingTable.format).map stuffing,
   CheckedTable.tot.map tot, (ofFormat Dit.format).map dit, CheckedTable.sit.map sit,
   CheckedTable.mgt.map mgt, CheckedTable.vct.map vct, CheckedTable.rrt.map rrt,
   CheckedTable.guideEit.map guideEit, CheckedTable.ett.map ett, CheckedTable.stt.map stt]

/-- The table of a section. -/
def readChecked (s : Section) : Decoding Table :=
  match checkedFormats.find? fun f => f.accepts s.tableId with
  | some f => f.body s
  | none => throw (.unsupportedTableId s.tableId)

/-- The table in the section at the front of a byte string. -/
def decodeChecked (bs : Bytes) (verifyCrc : Bool) : Decoding (Table × Nat) := do
  let (s, size) ← Decoding.sectionAt bs verifyCrc
  return (← readChecked s, size)

theorem checkedFormats_eq : checkedFormats = formats.map ofFormat := by
  simp only [checkedFormats, formats, List.map_cons, List.map_nil, pat_eq, cat_eq, pmt_eq, tsdt_eq,
    nit_eq, sdt_eq, bat_eq, eit_eq, tdt_eq, rst_eq, tot_eq, sit_eq, mgt_eq, vct_eq, rrt_eq,
    guideEit_eq, ett_eq, stt_eq, map_ofFormat]

/-- No table faults, and each is the library's. -/
theorem readChecked_eq (s : Section) : readChecked s = .ofResult (read s) := by
  have hfind : checkedFormats.find? (fun f => f.accepts s.tableId) =
      (formats.find? fun f => f.accepts s.tableId).map ofFormat := by
    rw [checkedFormats_eq, List.find?_map]
    rfl
  rw [readChecked, read, hfind]
  cases hformat : formats.find? fun f => f.accepts s.tableId with
  | none => rfl
  | some f =>
    have haccepts := List.find?_some hformat
    have hread : f.read s = f.body s := if_pos haccepts
    exact congrArg Decoding.ofResult hread.symm

theorem decodeChecked_eq (bs : Bytes) (verifyCrc : Bool) :
    decodeChecked bs verifyCrc = .ofResult (decode bs verifyCrc) := by
  simp only [decodeChecked, decode, Decoding.sectionAt_eq, readChecked_eq, Decoding.ofResult_bind]
  rfl

end Table

end DvbHost
