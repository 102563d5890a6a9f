import DvbHost.Proofs.Layout.Field
import DvbHost.Table.Clock
import DvbHost.Table.Event
import DvbHost.Table.Network
import DvbHost.Table.Program
import DvbHost.Table.Service

/-!
# Layouts of the tables of programs, networks, services and events

The body of each table as the concatenation of its fields. The main statement says that a section is
read exactly if its body has the layout of its table, and that the table read has the fields and the
entries written there, in their order.
-/

namespace DvbHost

set_option autoImplicit false

open BitFields Cursor

/-! ## Sections of a table -/

namespace TableFormat

variable {α : Type} {accepts : UInt8 → Bool} {ids : UInt8 → Prop}
  {L : UInt8 → ExtendedHeader → Layout α}

/-- The format reads the sections of the extended form with such a table id whose body is a layout
of a table, as that table, and no others. -/
def ReadsExactly (f : TableFormat α) (ids : UInt8 → Prop)
    (L : UInt8 → ExtendedHeader → Layout α) : Prop :=
  ∀ s t, f.read s = .ok t ↔
    ids s.tableId ∧ ∃ h, s.extended = some h ∧ L s.tableId h s.data t

theorem extended_readsExactly {p : UInt8 → ExtendedHeader → Cursor α}
    (hids : ∀ id, accepts id = true ↔ ids id) (hp : ∀ id h, Exhausts (p id h) (L id h)) :
    (extended accepts p).ReadsExactly ids L := by
  intro s t
  rw [read, ← hids]
  by_cases haccepts : accepts s.tableId = true
  · rw [extended, if_pos haccepts, and_iff_right haccepts]
    simp only [Section.extendedHeader]
    cases s.extended with
    | none => simp [bind, Except.bind]
    | some h =>
      change (p s.tableId h).run s.data = .ok t ↔ _
      rw [(hp _ _).run_eq_ok_iff]
      simp
  · rw [extended, if_neg haccepts]
    simp [haccepts]

theorem plain_read_eq_ok {id : UInt8} {p : Cursor α} {M : Layout α} (hp : Exhausts p M)
    (s : Section) (t : α) : (plain id p).read s = .ok t ↔ s.tableId = id ∧ M s.data t := by
  rw [read, ← hp.run_eq_ok_iff]
  by_cases hid : s.tableId = id
  · simp [plain, hid]
  · simp [plain, hid]

end TableFormat

/-! ## Programs -/

/-- A number and a PID. -/
def Pat.EntryWritten (bs : Bytes) (e : UInt16 × Pid) : Prop :=
  ∃ pid, bs = Bytes.ofUInt16 e.1 ++ pid ∧ Pid.Written pid e.2

/-- Entries to the end. -/
def Pat.Written (h : ExtendedHeader) (bs : Bytes) (t : Pat) : Prop :=
  ∃ entries, Many EntryWritten bs entries ∧ t = ofEntries h entries

/-- Descriptors to the end. -/
def Cat.Written (h : ExtendedHeader) (bs : Bytes) (t : Cat) : Prop :=
  t.info = h.info ∧ bs = t.descriptors.toBytes

theorem Pid.Written.length {bs : Bytes} {p : Pid} (h : Written bs p) : bs.length = 2 := by
  obtain ⟨r, hbs⟩ := h
  exact hbs.length rfl

theorem Pat.EntryWritten.length (bs : Bytes) (e : UInt16 × Pid) (h : EntryWritten bs e) :
    bs.length = 4 := by
  obtain ⟨pid, rfl, hpid⟩ := h
  rw [List.length_append, Bytes.length_ofUInt16, hpid.length]

theorem Pat.parses_readEntry : Parses readEntry EntryWritten := by
  refine (parses_u16.bind fun number => Pid.parses.map fun pid => (number, pid)).congr
    fun bs e => ⟨?_, ?_⟩
  · rintro ⟨number, _, rfl, pid, rfl, _, hpid, rfl⟩
    exact ⟨pid, rfl, hpid⟩
  · obtain ⟨number, mapPid⟩ := e
    rintro ⟨pid, rfl, hpid⟩
    exact ⟨number, _, rfl, pid, rfl, mapPid, hpid, rfl⟩

theorem Pat.readsExactly : format.ReadsExactly (· = 0x00) fun _ => Written := by
  have hentries := parses_readEntry.entries (by decide) EntryWritten.length
  refine TableFormat.extended_readsExactly (fun _ => beq_iff_eq) fun _ h =>
    (hentries.map (ofEntries h)).congr fun bs t => ⟨?_, ?_⟩
  · rintro ⟨entries, hmany, rfl⟩
    exact ⟨entries, hmany, rfl⟩
  · rintro ⟨entries, hmany, rfl⟩
    exact ⟨entries, hmany, rfl⟩

theorem Cat.readsExactly : format.ReadsExactly (· = 0x01) fun _ => Written := by
  refine TableFormat.extended_readsExactly (fun _ => beq_iff_eq) fun _ h =>
    ((exhausts_part DescriptorLoop.ofBytes_eq_ok).map (Cat.mk h.info)).assoc.congr
      fun bs t => ⟨?_, ?_⟩
  · rintro ⟨l, hl, rfl⟩
    exact ⟨rfl, hl⟩
  · obtain ⟨info, descriptors⟩ := t
    rintro ⟨rfl, hl⟩
    exact ⟨descriptors, hl, rfl⟩

/-- A stream type, a PID and descriptors. -/
def PmtStream.Written (bs : Bytes) (s : PmtStream) : Prop :=
  ∃ pid loop, bs = [s.streamType.code] ++ pid ++ loop ∧ Pid.Written pid s.pid ∧
    DescriptorLoop.Written loop s.descriptors

/-- The PID of the clock, descriptors, and streams to the end. -/
def Pmt.Written (h : ExtendedHeader) (bs : Bytes) (t : Pmt) : Prop :=
  t.programNumber = h.extension ∧ t.info = h.info ∧
    ∃ pid loop streams, bs = pid ++ loop ++ streams ∧ Pid.Written pid t.pcrPid ∧
      DescriptorLoop.Written loop t.descriptors ∧ Many PmtStream.Written streams t.streams

theorem PmtStream.parses : Parses read Written := by
  have htype := parses_u8.map StreamType.mk
  refine (htype.bind fun _ => Pid.parses.bind fun _ => DescriptorLoop.parses.map _).congr
    fun bs s => ⟨?_, ?_⟩
  · rintro ⟨_, _, ⟨code, rfl, rfl⟩, _, rfl, _, pid, hpid, loop, rfl, _, hloop, rfl⟩
    exact ⟨pid, loop, rfl, hpid, hloop⟩
  · rintro ⟨pid, loop, rfl, hpid, hloop⟩
    exact ⟨s.streamType, _, ⟨_, rfl, rfl⟩, _, rfl, s.pid, pid, hpid, loop, rfl, _, hloop, rfl⟩

theorem PmtStream.Written.ne_nil (bs : Bytes) (s : PmtStream) (h : Written bs s) : bs ≠ [] := by
  obtain ⟨pid, loop, rfl, _⟩ := h
  exact List.cons_ne_nil _ _

theorem Pmt.readsExactly : format.ReadsExactly (· = 0x02) fun _ => Written := by
  have hstreams := PmtStream.parses.untilEnd PmtStream.Written.ne_nil
  refine TableFormat.extended_readsExactly (fun _ => beq_iff_eq) fun _ h =>
    (Pid.parses.bindAll fun _ => DescriptorLoop.parses.bindAll fun _ => hstreams.map _).congr
      fun bs t => ⟨?_, ?_⟩
  · rintro ⟨_, pid, hpid, _, rfl, _, loop, hloop, streams, rfl, _, hstreams, rfl⟩
    exact ⟨rfl, rfl, pid, loop, streams, (List.append_assoc ..).symm, hpid, hloop, hstreams⟩
  · obtain ⟨programNumber, info, pcrPid, descriptors, entries⟩ := t
    rintro ⟨rfl, rfl, pid, loop, streams, rfl, hpid, hloop, hstreams⟩
    exact ⟨pcrPid, pid, hpid, _, List.append_assoc .., descriptors, loop, hloop, streams, rfl, _,
      hstreams, rfl⟩

/-! ## Networks and bouquets -/

/-- Two ids and descriptors. -/
def TransportStream.Written (bs : Bytes) (t : TransportStream) : Prop :=
  ∃ loop, bs = Bytes.ofUInt16 t.id ++ Bytes.ofUInt16 t.originalNetworkId ++ loop ∧
    DescriptorLoop.Written loop t.descriptors

/-- Descriptors, and transport streams behind their length of 12 bits. -/
def TransportStream.AllWritten (bs : Bytes) (l : DescriptorLoop) (ts : List TransportStream) :
    Prop :=
  ∃ loop tail streams, bs = loop ++ tail ∧ DescriptorLoop.Written loop l ∧
    Measured 4 12 tail streams ∧ Many Written streams ts

def Nit.Written (id : UInt8) (h : ExtendedHeader) (bs : Bytes) (t : Nit) : Prop :=
  t.actual = (id == 0x40) ∧ t.networkId = h.extension ∧ t.info = h.info ∧
    TransportStream.AllWritten bs t.descriptors t.transportStreams

def Bat.Written (h : ExtendedHeader) (bs : Bytes) (t : Bat) : Prop :=
  t.bouquetId = h.extension ∧ t.info = h.info ∧
    TransportStream.AllWritten bs t.descriptors t.transportStreams

namespace TransportStream

theorem parses : Parses read Written := by
  refine (parses_u16.bind fun _ => parses_u16.bind fun _ => DescriptorLoop.parses.map _).congr
    fun bs t => ⟨?_, ?_⟩
  · rintro ⟨id, _, rfl, _, rfl, network, _, rfl, loop, rfl, _, hloop, rfl⟩
    exact ⟨loop, (List.append_assoc ..).symm, hloop⟩
  · rintro ⟨loop, rfl, hloop⟩
    exact ⟨t.id, _, rfl, _, List.append_assoc .., t.originalNetworkId, _, rfl, loop, rfl, _, hloop,
      rfl⟩

theorem Written.ne_nil (bs : Bytes) (t : TransportStream) (h : Written bs t) : bs ≠ [] := by
  obtain ⟨loop, rfl, _⟩ := h
  exact List.cons_ne_nil _ _

theorem parses_readAll :
    Parses readAll fun bs ts => ∃ streams, Measured 4 12 bs streams ∧ Many Written streams ts :=
  parses_length12 fun n => (parses.untilEnd Written.ne_nil).within n

/-- Both tables have the same body. -/
theorem exhausts_body {α : Type} (g : DescriptorLoop → List TransportStream → α) :
    Exhausts (exactly do
      let descriptors ← DescriptorLoop.read
      return g descriptors (← readAll)) fun bs t => ∃ l ts, AllWritten bs l ts ∧ t = g l ts := by
  refine (DescriptorLoop.parses.bind fun _ => parses_readAll.map _).exactly.congr
    fun bs t => ⟨?_, ?_⟩
  · rintro ⟨l, loop, hloop, tail, rfl, ts, ⟨streams, htail, hstreams⟩, rfl⟩
    exact ⟨l, ts, ⟨loop, tail, streams, rfl, hloop, htail, hstreams⟩, rfl⟩
  · rintro ⟨l, ts, ⟨loop, tail, streams, rfl, hloop, htail, hstreams⟩, rfl⟩
    exact ⟨l, loop, hloop, tail, rfl, ts, ⟨streams, htail, hstreams⟩, rfl⟩

end TransportStream

theorem Nit.readsExactly : format.ReadsExactly (fun id => id = 0x40 ∨ id = 0x41) Written := by
  refine TableFormat.extended_readsExactly (fun id => by simp) fun id h =>
    (TransportStream.exhausts_body _).congr fun bs t => ⟨?_, ?_⟩
  · rintro ⟨l, ts, hbody, rfl⟩
    exact ⟨rfl, rfl, rfl, hbody⟩
  · obtain ⟨actual, networkId, info, l, ts⟩ := t
    rintro ⟨rfl, rfl, rfl, hbody⟩
    exact ⟨l, ts, hbody, rfl⟩

theorem Bat.readsExactly : format.ReadsExactly (· = 0x4A) fun _ => Written := by
  refine TableFormat.extended_readsExactly (fun _ => beq_iff_eq) fun id h =>
    (TransportStream.exhausts_body _).congr fun bs t => ⟨?_, ?_⟩
  · rintro ⟨l, ts, hbody, rfl⟩
    exact ⟨rfl, rfl, hbody⟩
  · obtain ⟨bouquetId, info, l, ts⟩ := t
    rintro ⟨rfl, rfl, hbody⟩
    exact ⟨l, ts, hbody, rfl⟩

/-! ## Services -/

/-- A running status, a scrambling flag, and descriptors whose length is in the same word. -/
def Broadcast.Written (bs : Bytes) (b : Broadcast) : Prop :=
  ∃ head code, bs = head ++ b.descriptors.toBytes ∧
    Packed [(3, code), (1, b.scrambled.toNat), (12, b.descriptors.toBytes.length)] head ∧
      b.status = .ofCode (UInt8.ofNat code)

/-- An id, two flags below six reserved bits, and a broadcast. -/
def SdtService.Written (bs : Bytes) (s : SdtService) : Prop :=
  ∃ flags r broadcast, bs = Bytes.ofUInt16 s.id ++ flags ++ broadcast ∧
    Packed [(6, r), (1, s.eitSchedule.toNat), (1, s.eitPresentFollowing.toNat)] flags ∧
      Broadcast.Written broadcast s.broadcast

/-- The original network, a reserved octet, and services to the end. -/
def Sdt.Written (id : UInt8) (h : ExtendedHeader) (bs : Bytes) (t : Sdt) : Prop :=
  t.actual = (id == 0x42) ∧ t.transportStreamId = h.extension ∧ t.info = h.info ∧
    ∃ (reserved : UInt8) (services : Bytes),
      bs = Bytes.ofUInt16 t.originalNetworkId ++ [reserved] ++ services ∧
        Many SdtService.Written services t.services

/-- An id, a running status below a reserved bit, and descriptors whose length is in the same word. -/
def SitService.Written (bs : Bytes) (s : SitService) : Prop :=
  ∃ head r code, bs = Bytes.ofUInt16 s.id ++ head ++ s.descriptors.toBytes ∧
    Packed [(1, r), (3, code), (12, s.descriptors.toBytes.length)] head ∧
      s.status = .ofCode (UInt8.ofNat code)

/-- Descriptors, and services to the end. -/
def Sit.Written (h : ExtendedHeader) (bs : Bytes) (t : Sit) : Prop :=
  t.info = h.info ∧ ∃ loop services, bs = loop ++ services ∧
    DescriptorLoop.Written loop t.descriptors ∧ Many SitService.Written services t.services

theorem Broadcast.head_iff {code length n : Nat} {scrambled : Bool} :
    [code, scrambled.toNat, length] = values [3, 1, 12] n ↔
      code = bits 13 3 n ∧ scrambled = n.testBit 12 ∧ length = bits 0 12 n := by
  simp [values, flag_eq_bits_iff]

theorem Broadcast.parses : Parses read Written := by
  refine (parses_u16.bind fun w =>
    (DescriptorLoop.parses_ofLength (bits 0 12 w.toNat)).map _).congr fun bs b => ⟨?_, ?_⟩
  · rintro ⟨w, _, rfl, _, rfl, l, ⟨hlength, rfl⟩, rfl⟩
    exact ⟨Bytes.ofUInt16 w, _, rfl,
      (packed_word rfl).mpr ⟨w, rfl, head_iff.mpr ⟨rfl, rfl, hlength⟩⟩, rfl⟩
  · obtain ⟨status, scrambled, l⟩ := b
    rintro ⟨_, code, rfl, hhead, rfl⟩
    obtain ⟨w, rfl, hvalues⟩ := (packed_word rfl).mp hhead
    obtain ⟨rfl, rfl, hlength⟩ := head_iff.mp hvalues
    exact ⟨w, _, rfl, _, rfl, l, ⟨hlength, rfl⟩, rfl⟩

theorem SdtService.flags_iff {r n : Nat} {schedule present : Bool} :
    [r, schedule.toNat, present.toNat] = values [6, 1, 1] n ↔
      r = bits 2 6 n ∧ schedule = n.testBit 1 ∧ present = n.testBit 0 := by
  simp only [values, List.cons.injEq, and_true]
  exact and_congr_right fun _ => and_congr flag_eq_bits_iff flag_eq_bits_iff

theorem SdtService.parses : Parses read Written := by
  refine (parses_u16.bind fun _ => parses_u8.bind fun _ => Broadcast.parses.map _).congr
    fun bs s => ⟨?_, ?_⟩
  · rintro ⟨id, _, rfl, _, rfl, flags, _, rfl, tail, rfl, broadcast, hbroadcast, rfl⟩
    exact ⟨[flags], _, tail, (List.append_assoc ..).symm,
      (packed_octet rfl).mpr ⟨flags, rfl, flags_iff.mpr ⟨rfl, rfl, rfl⟩⟩, hbroadcast⟩
  · obtain ⟨id, schedule, present, broadcast⟩ := s
    rintro ⟨_, r, tail, rfl, hflags, hbroadcast⟩
    obtain ⟨flags, rfl, hvalues⟩ := (packed_octet rfl).mp hflags
    obtain ⟨rfl, rfl, rfl⟩ := flags_iff.mp hvalues
    exact ⟨id, _, rfl, _, List.append_assoc .., flags, _, rfl, tail, rfl, broadcast, hbroadcast, rfl⟩

theorem SdtService.Written.ne_nil (bs : Bytes) (s : SdtService) (h : Written bs s) : bs ≠ [] := by
  obtain ⟨_, _, _, rfl, _⟩ := h
  exact List.cons_ne_nil _ _

theorem Sdt.readsExactly : format.ReadsExactly (fun id => id = 0x42 ∨ id = 0x46) Written := by
  have hservices := SdtService.parses.untilEnd SdtService.Written.ne_nil
  refine TableFormat.extended_readsExactly (fun id => by simp) fun id h =>
    (parses_u16.bindAll fun _ => parses_u8.bindAll fun _ => hservices.map _).congr
      fun bs t => ⟨?_, ?_⟩
  · rintro ⟨network, _, rfl, _, rfl, reserved, _, rfl, services, rfl, _, hservices, rfl⟩
    exact ⟨rfl, rfl, rfl, reserved, services, (List.append_assoc ..).symm, hservices⟩
  · obtain ⟨actual, transportStreamId, info, network, entries⟩ := t
    rintro ⟨rfl, rfl, rfl, reserved, services, rfl, hservices⟩
    exact ⟨network, _, rfl, _, List.append_assoc .., reserved, _, rfl, services, rfl, _, hservices,
      rfl⟩

theorem SitService.head_iff {r code length n : Nat} :
    [r, code, length] = values [1, 3, 12] n ↔
      r = bits 15 1 n ∧ code = bits 12 3 n ∧ length = bits 0 12 n := by
  simp [values]

theorem SitService.parses : Parses read Written := by
  refine (parses_u16.bind fun _ => parses_u16.bind fun w =>
    (DescriptorLoop.parses_ofLength (bits 0 12 w.toNat)).map _).congr fun bs s => ⟨?_, ?_⟩
  · rintro ⟨id, _, rfl, _, rfl, w, _, rfl, _, rfl, l, ⟨hlength, rfl⟩, rfl⟩
    exact ⟨Bytes.ofUInt16 w, _, _, (List.append_assoc ..).symm,
      (packed_word rfl).mpr ⟨w, rfl, head_iff.mpr ⟨rfl, rfl, hlength⟩⟩, rfl⟩
  · obtain ⟨id, status, l⟩ := s
    rintro ⟨_, r, code, rfl, hhead, rfl⟩
    obtain ⟨w, rfl, hvalues⟩ := (packed_word rfl).mp hhead
    obtain ⟨rfl, rfl, hlength⟩ := head_iff.mp hvalues
    exact ⟨id, _, rfl, _, List.append_assoc .., w, _, rfl, _, rfl, l, ⟨hlength, rfl⟩, rfl⟩

theorem SitService.Written.ne_nil (bs : Bytes) (s : SitService) (h : Written bs s) : bs ≠ [] := by
  obtain ⟨_, _, _, rfl, _⟩ := h
  exact List.cons_ne_nil _ _

theorem Sit.readsExactly : format.ReadsExactly (· = 0x7F) fun _ => Written := by
  have hservices := SitService.parses.untilEnd SitService.Written.ne_nil
  refine TableFormat.extended_readsExactly (fun _ => beq_iff_eq) fun _ h =>
    (DescriptorLoop.parses.bindAll fun _ => hservices.map _).congr fun bs t => ⟨?_, ?_⟩
  · rintro ⟨_, loop, hloop, services, rfl, _, hservices, rfl⟩
    exact ⟨rfl, loop, services, rfl, hloop, hservices⟩
  · obtain ⟨info, descriptors, entries⟩ := t
    rintro ⟨rfl, loop, services, rfl, hloop, hservices⟩
    exact ⟨descriptors, loop, hloop, services, rfl, entries, hservices, rfl⟩

/-! ## Events -/

namespace EitEvent

/-- A time, or octets of ones only for an undefined start. -/
def StartWritten (bs : Bytes) (start : Option DateTime) : Prop :=
  bs = noStart ∧ start = none ∨ bs ≠ noStart ∧ ∃ t, start = some t ∧ DateTime.Written bs t

/-- An id, a start, three octets of hours, minutes and seconds, and a broadcast. -/
def Written (bs : Bytes) (e : EitEvent) : Prop :=
  ∃ (start broadcast : Bytes) (h m s : UInt8),
    bs = Bytes.ofUInt16 e.id ++ start ++ [h, m, s] ++ broadcast ∧ StartWritten start e.startTime ∧
      e.duration = Bcd.duration h m s ∧ Broadcast.Written broadcast e.broadcast

/-- What the five octets of a start say. -/
def startOf (octets : Bytes) : Except SiError (Option DateTime) :=
  if octets = noStart then .ok none else (DateTime.read.run octets).map some

end EitEvent

/-- Two ids, two octets, and events to the end. -/
def Eit.Written (id : UInt8) (h : ExtendedHeader) (bs : Bytes) (t : Eit) : Prop :=
  t.tableId = id ∧ t.serviceId = h.extension ∧ t.info = h.info ∧
    ∃ events, bs = Bytes.ofUInt16 t.transportStreamId ++ Bytes.ofUInt16 t.originalNetworkId ++
        [t.segmentLastSectionNumber, t.lastTableId] ++ events ∧
      Many EitEvent.Written events t.events

/-- A time and descriptors. -/
def Tot.Written (bs : Bytes) (t : Tot) : Prop :=
  ∃ time loop, bs = time ++ loop ∧ DateTime.Written time t.utcTime ∧
    DescriptorLoop.Written loop t.descriptors

theorem DateTime.run_eq_ok {bs : Bytes} (h : bs.length = 5) (t : DateTime) :
    read.run bs = .ok t ↔ Written bs t := by
  constructor
  · intro hrun
    obtain ⟨taken, htaken, ht⟩ := (DateTime.parses bs t (read bs).2).mp (Prod.ext hrun rfl)
    have hrest : (read bs).2 = [] := by
      have hlength := congrArg List.length htaken
      rw [List.length_append, ht.length, h] at hlength
      exact List.eq_nil_of_length_eq_zero (by omega)
    rw [hrest, List.append_nil] at htaken
    exact htaken ▸ ht
  · intro ht
    exact congrArg Prod.fst ((DateTime.parses bs t []).mpr ⟨bs, (List.append_nil bs).symm, ht⟩)

theorem EitEvent.startOf_eq_ok {bs : Bytes} (h : bs.length = 5) (start : Option DateTime) :
    startOf bs = .ok start ↔ StartWritten bs start := by
  rw [startOf, StartWritten]
  by_cases hones : bs = noStart
  · simp [hones, eq_comm]
  · simp only [hones, if_false, false_and, false_or, ne_eq, not_false_iff, true_and,
      ← DateTime.run_eq_ok h]
    cases DateTime.read.run bs <;> simp [Except.map, eq_comm]

theorem EitEvent.parses_readStart :
    Parses readStart fun bs start => bs.length = 5 ∧ StartWritten bs start := by
  have hread : readStart = (bytes 5 >>= fun octets => lift (startOf octets)) := by
    refine congrArg (bytes 5 >>= ·) (funext fun octets => ?_)
    rw [startOf]
    split
    · rfl
    · rw [← lift_map]
  rw [hread]
  refine (parses_part (L := fun bs start => startOf bs = .ok start) (fun _ _ => Iff.rfl)
    (parses_bytes 5)).congr fun bs start => ⟨?_, ?_⟩
  · rintro ⟨_, ⟨hlength, rfl⟩, hstart⟩
    exact ⟨hlength, (startOf_eq_ok hlength start).mp hstart⟩
  · rintro ⟨hlength, hstart⟩
    exact ⟨bs, ⟨hlength, rfl⟩, (startOf_eq_ok hlength start).mpr hstart⟩

theorem EitEvent.StartWritten.length {bs : Bytes} {start : Option DateTime}
    (h : StartWritten bs start) : bs.length = 5 := by
  obtain ⟨rfl, _⟩ | ⟨_, t, _, ht⟩ := h
  · rfl
  · exact ht.length

theorem EitEvent.parses_readDuration :
    Parses readDuration fun bs d => ∃ h m s, bs = [h, m, s] ∧ d = Bcd.duration h m s := by
  refine (parses_u8.bind fun _ => parses_u8.bind fun _ => parses_u8.map _).congr
    fun bs d => ⟨?_, ?_⟩
  · rintro ⟨h, _, rfl, _, rfl, m, _, rfl, _, rfl, s, rfl, rfl⟩
    exact ⟨h, m, s, rfl, rfl⟩
  · rintro ⟨h, m, s, rfl, rfl⟩
    exact ⟨h, _, rfl, _, rfl, m, _, rfl, _, rfl, s, rfl, rfl⟩

theorem EitEvent.parses : Parses read Written := by
  refine (parses_u16.bind fun _ => parses_readStart.bind fun _ => parses_readDuration.bind fun _ =>
    Broadcast.parses.map _).congr fun bs e => ⟨?_, ?_⟩
  · rintro ⟨id, _, rfl, _, rfl, _, start, ⟨_, hstart⟩, _, rfl, _, _, ⟨h, m, s, rfl, rfl⟩, tail, rfl,
      broadcast, hbroadcast, rfl⟩
    exact ⟨start, tail, h, m, s, by simp only [List.append_assoc], hstart, rfl, hbroadcast⟩
  · obtain ⟨id, startTime, duration, broadcast⟩ := e
    rintro ⟨start, tail, h, m, s, rfl, hstart, rfl, hbroadcast⟩
    simp only [List.append_assoc]
    exact ⟨id, _, rfl, _, rfl, startTime, start, ⟨hstart.length, hstart⟩, _, rfl, _, _,
      ⟨h, m, s, rfl, rfl⟩, tail, rfl, broadcast, hbroadcast, rfl⟩

theorem EitEvent.Written.ne_nil (bs : Bytes) (e : EitEvent) (h : Written bs e) : bs ≠ [] := by
  obtain ⟨_, _, _, _, _, rfl, _⟩ := h
  exact List.cons_ne_nil _ _

theorem Eit.readsExactly :
    format.ReadsExactly (fun id => 0x4E ≤ id ∧ id ≤ 0x6F) Written := by
  have hevents := EitEvent.parses.untilEnd EitEvent.Written.ne_nil
  refine TableFormat.extended_readsExactly (fun id => by simp [isTableId]) fun id h =>
    (parses_u16.bindAll fun _ => parses_u16.bindAll fun _ => parses_u8.bindAll fun _ =>
      parses_u8.bindAll fun _ => hevents.map _).congr fun bs t => ⟨?_, ?_⟩
  · rintro ⟨stream, _, rfl, _, rfl, network, _, rfl, _, rfl, segment, _, rfl, _, rfl, last, _, rfl,
      events, rfl, _, hevents, rfl⟩
    exact ⟨rfl, rfl, rfl, events, by simp only [List.append_assoc, List.cons_append, List.nil_append],
      hevents⟩
  · obtain ⟨tableId, serviceId, info, stream, network, segment, last, entries⟩ := t
    rintro ⟨rfl, rfl, rfl, events, rfl, hevents⟩
    simp only [List.append_assoc]
    exact ⟨stream, _, rfl, _, rfl, network, _, rfl, _, rfl, segment, _, rfl, _, rfl, last, _, rfl,
      events, rfl, entries, hevents, rfl⟩

theorem Tot.read_eq_ok (s : Section) (t : Tot) :
    format.read s = .ok t ↔ s.tableId = 0x73 ∧ Written s.data t := by
  refine TableFormat.plain_read_eq_ok ((DateTime.parses.bind fun _ =>
    DescriptorLoop.parses.map _).exactly.congr fun bs t => ⟨?_, ?_⟩) s t
  · rintro ⟨_, time, htime, loop, rfl, _, hloop, rfl⟩
    exact ⟨time, loop, rfl, htime, hloop⟩
  · rintro ⟨time, loop, rfl, htime, hloop⟩
    exact ⟨t.utcTime, time, htime, loop, rfl, t.descriptors, hloop, rfl⟩

/-! ## The tables together -/

/-- Each table is read from exactly the sections with its id whose body is a layout of it: no octet of
the body is left over, stands for two fields, or comes from outside the loop it is read in. -/
theorem Table.broadcast_tables_readExactly :
    Pmt.format.ReadsExactly (· = 0x02) (fun _ => Pmt.Written) ∧
    Nit.format.ReadsExactly (fun id => id = 0x40 ∨ id = 0x41) Nit.Written ∧
    Bat.format.ReadsExactly (· = 0x4A) (fun _ => Bat.Written) ∧
    Sdt.format.ReadsExactly (fun id => id = 0x42 ∨ id = 0x46) Sdt.Written ∧
    Eit.format.ReadsExactly (fun id => 0x4E ≤ id ∧ id ≤ 0x6F) Eit.Written ∧
    (∀ s t, Tot.format.read s = .ok t ↔ s.tableId = 0x73 ∧ Tot.Written s.data t) ∧
    Sit.format.ReadsExactly (· = 0x7F) (fun _ => Sit.Written) :=
  ⟨Pmt.readsExactly, Nit.readsExactly, Bat.readsExactly, Sdt.readsExactly, Eit.readsExactly,
    Tot.read_eq_ok, Sit.readsExactly⟩

end DvbHost
