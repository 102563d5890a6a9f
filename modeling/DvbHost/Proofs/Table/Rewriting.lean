import DvbHost.Proofs.Calendar.Rewriting
import DvbHost.Proofs.Layout.Table
import DvbHost.Proofs.Section.Framing
import DvbHost.Proofs.Table.Clock
import DvbHost.Proofs.Table.Event
import DvbHost.Proofs.Table.Network
import DvbHost.Proofs.Table.Program
import DvbHost.Proofs.Table.Service

/-!
# Tables that were read are written again

A table that was read takes no more octets than the section it was read from, so it can always be
written (`TableFormat.ReadsExactly.layout_of_decode`, and the lengths of the layouts). It is read back
as its `rewritten` form. For the tables without times that is the table; for the others it is the
table exactly if their octets can say each time and duration.
-/

namespace DvbHost

set_option autoImplicit false

open BitFields Cursor

/-! ## Sections that were read -/

/-- A section whose length a header can state, and whose version five bits hold. -/
structure Section.Bounded (s : Section) : Prop where
  length : (if s.extended.isSome then 5 else 0) + s.data.length +
    (if s.extended.isSome || s.tableId == shortWithChecksum then 4 else 0) ≤ maxLength
  version : ∀ h, s.extended = some h → h.info.version.toNat ≤ 31

theorem Section.bounded_of_ofBytes {bs : Bytes} {verifyCrc : Bool} {s : Section} {n : Nat}
    (h : ofBytes bs verifyCrc = .ok (s, n)) : s.Bounded := by
  obtain ⟨id, b1, b2, tail, rest, -, -, -, -, hmax, form⟩ := ofBytes_form h
  cases form with
  | @extended e1 e2 v number lastNumber data crc form hcrc verified =>
    refine ⟨?_, fun h hh => ?_⟩
    · simp only [List.length_cons, List.length_append, hcrc] at hmax
      change 5 + data.length + 4 ≤ maxLength
      omega
    · obtain rfl := Option.some.inj hh
      change (Octet.field 1 5 v).toNat ≤ 31
      rw [Octet.field, UInt8.toNat_ofNat', bits_eq]
      omega
  | @checked data crc form id hcrc verified =>
    refine ⟨?_, fun h hh => absurd hh.symm (Option.some_ne_none h)⟩
    rw [List.length_append, hcrc] at hmax
    rw [id]
    change 0 + data.length + 4 ≤ maxLength
    omega
  | plain form hid =>
    refine ⟨?_, fun h hh => absurd hh.symm (Option.some_ne_none h)⟩
    rw [beq_false_of_ne hid]
    change 0 + tail.length + 0 ≤ maxLength
    omega

namespace TableFormat

variable {α : Type} {f : TableFormat α} {t t' : α}

theorem read_of_decode {bs : Bytes} {verifyCrc : Bool} (h : f.decode bs verifyCrc = .ok t) :
    ∃ s : Section, s.Bounded ∧ f.read s = .ok t := by
  obtain ⟨⟨s, n⟩, hbytes, hread⟩ := Outcome.ok_of_bind h
  exact ⟨s, Section.bounded_of_ofBytes hbytes, hread⟩

/-- A table of the extended form that was read has a body that a section can hold. -/
theorem ReadsExactly.layout_of_decode {ids : UInt8 → Prop} {L : UInt8 → ExtendedHeader → Layout α}
    (hf : f.ReadsExactly ids L) {bs : Bytes} {verifyCrc : Bool}
    (h : f.decode bs verifyCrc = .ok t) :
    ∃ id header body, ids id ∧ L id header body t ∧ 9 + body.length ≤ Section.maxLength ∧
      header.info.version.toNat ≤ 31 := by
  obtain ⟨s, ⟨hlength, hversion⟩, hread⟩ := read_of_decode h
  obtain ⟨hid, header, hheader, hbody⟩ := (hf s t).mp hread
  rw [hheader] at hlength
  change 5 + s.data.length + 4 ≤ Section.maxLength at hlength
  exact ⟨s.tableId, header, s.data, hid, hbody, by omega, hversion header hheader⟩

/-- Every table that is read can be written, and its section is read as the same table exactly if
the property holds. -/
def Rewrites (f : TableFormat α) (write : α → Except SiError Bytes) (Tellable : α → Prop) : Prop :=
  ∀ bs t, f.decode bs true = .ok t →
    ∃ s, write t = .ok s ∧ (f.decode s true = .ok t ↔ Tellable t)

/-- A table that comes back as another is the same exactly if that one is. -/
theorem ReadsBack.rewrites {written : Except SiError Bytes} {n : Nat} {P : Prop}
    (h : f.ReadsBack written n t') (hlength : n ≤ Section.maxLength) (hsame : t' = t ↔ P) :
    ∃ s, written = .ok s ∧ (f.decode s true = .ok t ↔ P) := by
  rw [ReadsBack, if_pos hlength] at h
  obtain ⟨s, hwritten, -, hdecode⟩ := h
  refine ⟨s, hwritten, ?_⟩
  rw [hdecode, Except.ok.injEq, hsame]

end TableFormat

/-! ## What the fields that were read measure -/

theorem Measured.length {reserved width : Nat} (h : reserved + width = 16) {bs part : Bytes}
    (hbs : Measured reserved width bs part) : bs.length = 2 + part.length := by
  obtain ⟨w, rfl, -⟩ := (measured_word h).mp hbs
  rw [List.length_append, Bytes.length_ofUInt16]

theorem DescriptorLoop.Written.length {bs : Bytes} {l : DescriptorLoop} (h : Written bs l) :
    bs.length = 2 + l.toBytes.length := Measured.length rfl h

theorem PmtStream.Written.length (bs : Bytes) (s : PmtStream) (h : Written bs s) :
    bs.length = s.size := by
  obtain ⟨pid, loop, rfl, hpid, hloop⟩ := h
  rw [List.length_append, List.length_append, hpid.length, hloop.length, size,
    List.length_singleton]
  omega

theorem TransportStream.Written.length (bs : Bytes) (t : TransportStream) (h : Written bs t) :
    bs.length = t.size := by
  obtain ⟨loop, rfl, hloop⟩ := h
  rw [List.length_append, List.length_append, Bytes.length_ofUInt16, Bytes.length_ofUInt16,
    hloop.length, size]
  omega

theorem TransportStream.AllWritten.length {bs : Bytes} {l : DescriptorLoop}
    {ts : List TransportStream} (h : AllWritten bs l ts) :
    bs.length = 2 + l.toBytes.length + allSize ts := by
  obtain ⟨loop, tail, streams, rfl, hloop, htail, hstreams⟩ := h
  rw [List.length_append, hloop.length, htail.length rfl, hstreams.length Written.length, allSize]

/-- Three bits tell a status. -/
theorem RunningStatus.ofCode_inRange {c : UInt8} (h : c.toNat < 8) : (ofCode c).InRange := by
  unfold ofCode
  split
  case h_7 _ h0 h1 h2 h3 h4 h5 =>
    have hcode : c.toNat = 6 ∨ c.toNat = 7 := by
      simp only [imp_false] at h0 h1 h2 h3 h4 h5
      omega
    exact hcode.imp UInt8.toNat_inj.mp UInt8.toNat_inj.mp
  all_goals exact trivial

theorem Broadcast.Written.length {bs : Bytes} {b : Broadcast} (h : Written bs b) :
    bs.length = b.size := by
  obtain ⟨head, code, rfl, hhead, -⟩ := h
  have hlength : head.length = 2 := hhead.length rfl
  rw [List.length_append, hlength, size]

theorem Broadcast.Written.inRange {bs : Bytes} {b : Broadcast} (h : Written bs b) :
    b.status.InRange := by
  obtain ⟨head, code, -, hhead, hstatus⟩ := h
  have hcode : code < 2 ^ 3 := (fit_cons.mp hhead.fit).1
  rw [hstatus]
  apply RunningStatus.ofCode_inRange
  rw [UInt8.toNat_ofNat']
  omega

theorem SdtService.Written.inRange (bs : Bytes) (s : SdtService) (h : Written bs s) :
    s.broadcast.status.InRange := by
  obtain ⟨-, -, broadcast, -, -, hbroadcast⟩ := h
  exact hbroadcast.inRange

theorem SdtService.Written.length (bs : Bytes) (s : SdtService) (h : Written bs s) :
    bs.length = s.size := by
  obtain ⟨flags, r, broadcast, rfl, hflags, hbroadcast⟩ := h
  have hlength : flags.length = 1 := hflags.length rfl
  rw [List.length_append, List.length_append, Bytes.length_ofUInt16, hlength, hbroadcast.length,
    size]

theorem EitEvent.Written.length (bs : Bytes) (e : EitEvent) (h : Written bs e) :
    bs.length = e.size := by
  obtain ⟨start, broadcast, h, m, s, rfl, hstart, -, hbroadcast⟩ := h
  simp only [List.length_append, Bytes.length_ofUInt16, hstart.length, hbroadcast.length,
    List.length_cons, List.length_nil, size]

/-! ## The tables -/

/-- Of the entries for the network one is written at most. -/
theorem Pat.length_entryList_ofEntries (h : ExtendedHeader) (entries : List (UInt16 × Pid)) :
    (ofEntries h entries).entryList.length ≤ entries.length := by
  have hnetwork : ∀ es : List (UInt16 × Pid),
      (es.getLast?.map Prod.snd).toList.length ≤ es.length := by
    intro es
    cases es with
    | nil => exact Nat.le_refl 0
    | cons e es =>
      rw [List.length_cons]
      exact Option.length_toList_le.trans (Nat.le_add_left 1 _)
  calc (ofEntries h entries).entryList.length
      = ((entries.filter fun e => e.1 == 0).getLast?.map Prod.snd).toList.length +
          (entries.filter fun e => e.1 != 0).length := by
        rw [entryList, List.length_append, List.length_map, List.length_map, ofEntries,
          List.length_map]
    _ ≤ (entries.filter fun e => e.1 == 0).length + (entries.filter fun e => e.1 != 0).length :=
        Nat.add_le_add_right (hnetwork _) _
    _ = entries.length := (entries.length_eq_length_filter_add fun e => e.1 == 0).symm

theorem Pat.ofEntries_inRange {h : ExtendedHeader} (hversion : h.info.version.toNat ≤ 31)
    (entries : List (UInt16 × Pid)) : (ofEntries h entries).InRange := by
  refine ⟨hversion, fun p hp => ?_⟩
  obtain ⟨e, he, rfl⟩ := List.mem_map.mp hp
  exact bne_iff_ne.mp (List.mem_filter.mp he).2

theorem Pat.rewrites : format.Rewrites write fun _ => True := by
  intro bs t h
  obtain ⟨id, header, body, -, ⟨entries, hentries, rfl⟩, hlength, hversion⟩ :=
    readsExactly.layout_of_decode h
  have hbody : body.length = entries.length * 4 := by
    rw [hentries.length EntryWritten.length, List.map_const', List.sum_replicate, smul_eq_mul]
  have hshorter := length_entryList_ofEntries header entries
  refine (readsBack (ofEntries_inRange hversion entries)).rewrites ?_ (iff_of_true rfl trivial)
  rw [sectionLength]
  omega

theorem Cat.rewrites : format.Rewrites write fun _ => True := by
  intro bs t h
  obtain ⟨id, header, body, -, ⟨hinfo, rfl⟩, hlength, hversion⟩ := readsExactly.layout_of_decode h
  rw [← hinfo] at hversion
  exact (readsBack hversion).rewrites hlength (iff_of_true rfl trivial)

theorem Pmt.rewrites : format.Rewrites write fun _ => True := by
  intro bs t h
  obtain ⟨id, header, body, -, ⟨-, hinfo, pid, loop, streams, rfl, hpid, hloop, hstreams⟩, hlength,
    hversion⟩ := readsExactly.layout_of_decode h
  rw [← hinfo] at hversion
  rw [List.length_append, List.length_append, hpid.length, hloop.length,
    hstreams.length PmtStream.Written.length] at hlength
  exact (readsBack hversion).rewrites hlength (iff_of_true rfl trivial)

theorem Nit.rewrites : format.Rewrites write fun _ => True := by
  intro bs t h
  obtain ⟨id, header, body, -, ⟨-, -, hinfo, hbody⟩, hlength, hversion⟩ :=
    readsExactly.layout_of_decode h
  rw [← hinfo] at hversion
  rw [hbody.length] at hlength
  exact (readsBack hversion).rewrites hlength (iff_of_true rfl trivial)

theorem Sdt.rewrites : format.Rewrites write fun _ => True := by
  intro bs t h
  obtain ⟨id, header, body, -, ⟨-, -, hinfo, reserved, services, rfl, hservices⟩, hlength,
    hversion⟩ := readsExactly.layout_of_decode h
  rw [← hinfo] at hversion
  rw [List.length_append, List.length_append, Bytes.length_ofUInt16, List.length_singleton,
    hservices.length SdtService.Written.length] at hlength
  have hstatus := hservices.forall SdtService.Written.inRange
  exact (readsBack ⟨hversion, hstatus⟩).rewrites hlength (iff_of_true rfl trivial)

/-! ## The tables with times -/

theorem DateTime.Written.rewritten_eq_iff {bs : Bytes} {t : DateTime} (h : Written bs t) :
    t.rewritten = t ↔ t.Tellable := by
  obtain ⟨day, h, m, s, -, rfl⟩ := h
  exact DateTime.rewritten_eq_iff (Date.rewritten_eq_iff day.toNat_lt)

/-- An event that its octets can say. -/
structure EitEvent.Tellable (e : EitEvent) : Prop where
  startTime : ∀ t, e.startTime = some t → t.Tellable
  duration : e.duration ≤ Bcd.maxDuration

/-- What is known of an event that was read, besides its size. -/
structure EitEvent.Received (e : EitEvent) : Prop where
  status : e.broadcast.status.InRange
  startTime : ∀ t, e.startTime = some t → (t.rewritten = t ↔ t.Tellable)

theorem EitEvent.Written.received (bs : Bytes) (e : EitEvent) (h : Written bs e) : e.Received := by
  obtain ⟨start, broadcast, h, m, s, -, hstart, -, hbroadcast⟩ := h
  refine ⟨hbroadcast.inRange, fun t ht => ?_⟩
  obtain ⟨-, hnone⟩ | ⟨-, u, hu, hwritten⟩ := hstart
  · rw [hnone] at ht
    cases ht
  · rw [ht] at hu
    exact Option.some.inj hu ▸ hwritten.rewritten_eq_iff

theorem EitEvent.Received.rewritten_eq_iff {e : EitEvent} (h : e.Received) :
    e.rewritten = e ↔ e.Tellable := by
  obtain ⟨id, startTime, duration, broadcast⟩ := e
  have hstart : startTime.map .rewritten = startTime ↔ ∀ t, startTime = some t → t.Tellable := by
    cases startTime with
    | none => exact iff_of_true rfl nofun
    | some t =>
      rw [Option.map_some, Option.some.injEq, h.startTime t rfl]
      exact ⟨fun ht u hu => Option.some.inj hu ▸ ht, fun hall => hall t rfl⟩
  rw [rewritten, mk.injEq, hstart]
  exact ⟨fun h => ⟨h.2.1, min_eq_left_iff.mp h.2.2.1⟩,
    fun h => ⟨rfl, h.startTime, Nat.min_eq_left h.duration, rfl⟩⟩

theorem Eit.rewritten_eq_iff {t : Eit} (h : ∀ e ∈ t.events, e.Received) :
    t.rewritten = t ↔ ∀ e ∈ t.events, e.Tellable := by
  have hevents : t.events.map .rewritten = t.events ↔ ∀ e ∈ t.events, e.rewritten = e :=
    (Eq.congr_right (List.map_id t.events).symm).trans List.map_inj_left
  have hsame : t.rewritten = t ↔ t.events.map .rewritten = t.events :=
    ⟨congrArg events, congrArg fun es => { t with events := es }⟩
  rw [hsame, hevents]
  exact forall₂_congr fun e he => (h e he).rewritten_eq_iff

theorem Eit.rewrites : format.Rewrites write fun t => ∀ e ∈ t.events, e.Tellable := by
  intro bs t h
  obtain ⟨id, header, body, hid, ⟨htable, -, hinfo, events, rfl, hevents⟩, hlength, hversion⟩ :=
    readsExactly.layout_of_decode h
  rw [← hinfo] at hversion
  have hreceived := hevents.forall EitEvent.Written.received
  have haccepts : isTableId t.tableId = true := by
    rw [htable, isTableId, decide_eq_true hid.1, decide_eq_true hid.2]
    rfl
  simp only [List.length_append, Bytes.length_ofUInt16, List.length_cons, List.length_nil,
    hevents.length EitEvent.Written.length] at hlength
  exact (readsBack_rewritten haccepts hversion fun e he => (hreceived e he).status).rewrites hlength
    (rewritten_eq_iff hreceived)

theorem Tdt.rewrites : format.Rewrites write fun t => t.utcTime.Tellable := by
  intro bs t h
  obtain ⟨s, -, hread⟩ := TableFormat.read_of_decode h
  have hexact := (DateTime.parses.map Tdt.mk).exactly
  obtain ⟨-, utcTime, hwritten, rfl⟩ := (TableFormat.plain_read_eq_ok hexact s t).mp hread
  refine (Tdt.mk utcTime).readsBack_rewritten.rewrites (by decide) ?_
  rw [rewritten, mk.injEq, hwritten.rewritten_eq_iff]

theorem Tot.rewrites : format.Rewrites write fun t => t.utcTime.Tellable := by
  intro bs t h
  obtain ⟨s, ⟨hlength, -⟩, hread⟩ := TableFormat.read_of_decode h
  obtain ⟨hid, time, loop, hdata, htime, hloop⟩ := (read_eq_ok s t).mp hread
  have hchecksum : (s.extended.isSome || s.tableId == Section.shortWithChecksum) = true := by
    rw [hid]
    exact Bool.or_true _
  rw [hchecksum, hdata, List.length_append, htime.length, hloop.length] at hlength
  refine t.readsBack_rewritten.rewrites ?_ ?_
  · rw [sectionLength]
    exact Nat.le_trans (Nat.add_le_add_right (Nat.le_add_left ..) 4) hlength
  · exact Iff.trans ⟨congrArg utcTime, congrArg fun time => { t with utcTime := time }⟩
      htime.rewritten_eq_iff

/-! ## The tables together -/

namespace Table

/-- Every table that is read can be written again. It is read back as the same table, but a table
with times exactly if each is from 1900-03-01 on, its parts of the day are below 160, and each
duration is one of at most 99:59:59. -/
theorem writable_rewrites :
    Pat.format.Rewrites Pat.write (fun _ => True) ∧
    Cat.format.Rewrites Cat.write (fun _ => True) ∧
    Pmt.format.Rewrites Pmt.write (fun _ => True) ∧
    Nit.format.Rewrites Nit.write (fun _ => True) ∧
    Sdt.format.Rewrites Sdt.write (fun _ => True) ∧
    Eit.format.Rewrites Eit.write (fun t => ∀ e ∈ t.events, e.Tellable) ∧
    Tdt.format.Rewrites Tdt.write (fun t => t.utcTime.Tellable) ∧
    Tot.format.Rewrites Tot.write (fun t => t.utcTime.Tellable) :=
  ⟨Pat.rewrites, Cat.rewrites, Pmt.rewrites, Nit.rewrites, Sdt.rewrites, Eit.rewrites, Tdt.rewrites,
    Tot.rewrites⟩

/-- Two entries for the network, and one for a program. -/
def twoNetworks : Bytes :=
  [0x00, 0xB0, 0x15, 0x00, 0x01, 0xC1, 0x00, 0x00, 0x00, 0x00, 0xE0, 0x10, 0x00, 0x00, 0xE0, 0x11,
   0x00, 0x65, 0xE1, 0x00, 0x48, 0x74, 0x5B, 0x32]

/-- The second entry is the network's. -/
def secondNetwork : Pat :=
  ⟨1, ⟨0, true, 0, 0⟩, some (.ofLow 0x11), [⟨0x65, .ofLow 0x100⟩]⟩

/-- A table of one event with that start and duration, and with a status that has no name. -/
def eventFrom (start : Option DateTime) (duration : Nat) : Eit :=
  ⟨0x4E, 0x65, ⟨0, true, 0, 0⟩, 1, 4, 0, 0x4E, [⟨7, start, duration, ⟨.reserved 7, false, .empty⟩⟩]⟩

/-- An event of 90 minutes with an undefined start. -/
def undefinedStart : Bytes :=
  [0x4E, 0xF0, 0x1B, 0x00, 0x65, 0xC1, 0x00, 0x00, 0x00, 0x01, 0x00, 0x04, 0x00, 0x4E, 0x00, 0x07,
   0xFF, 0xFF, 0xFF, 0xFF, 0xFF, 0x01, 0x30, 0x00, 0xE0, 0x00, 0x8E, 0x90, 0x66, 0xFF]

/-- The first day that comes back, at 105 hours. -/
def firstDay : Bytes := [0x70, 0x70, 0x05, 0x3A, 0xE7, 0x9F, 0x00, 0x00]

theorem writable_rewrites_instances :
    Pat.format.decode twoNetworks true = .ok secondNetwork ∧
    (∃ s, secondNetwork.write = .ok s ∧ Pat.format.decode s true = .ok secondNetwork) ∧
    Eit.format.decode undefinedStart true = .ok (eventFrom none 5400) ∧
    (∃ s, (eventFrom none 5400).write = .ok s ∧
      Eit.format.decode s true = .ok (eventFrom none 5400)) ∧
    Tdt.format.decode firstDay true = .ok ⟨⟨.first, 105, 0, 0⟩⟩ ∧
    (∃ s, (Tdt.mk ⟨.first, 105, 0, 0⟩).write = .ok s ∧
      Tdt.format.decode s true = .ok ⟨⟨.first, 105, 0, 0⟩⟩) := by
  obtain ⟨pat, -, -, -, -, eit, tdt, -⟩ := writable_rewrites
  have hpat : Pat.format.decode twoNetworks true = .ok secondNetwork := by decide +kernel
  have heit : Eit.format.decode undefinedStart true = .ok (eventFrom none 5400) := by
    decide +kernel
  have htdt : Tdt.format.decode firstDay true = .ok ⟨⟨.first, 105, 0, 0⟩⟩ := by decide +kernel
  obtain ⟨s, hs, hsame⟩ := pat _ _ hpat
  obtain ⟨s', hs', hsame'⟩ := eit _ _ heit
  obtain ⟨s'', hs'', hsame''⟩ := tdt _ _ htdt
  refine ⟨hpat, ⟨s, hs, hsame.mpr trivial⟩, heit, ⟨s', hs', hsame'.mpr fun e he => ?_⟩, htdt,
    ⟨s'', hs'', hsame''.mpr ⟨.inr (by decide), by decide, by decide, by decide⟩⟩⟩
  obtain rfl := List.mem_singleton.mp he
  exact ⟨nofun, by decide⟩

/-- An event of 167 hours, 47 minutes and 45 seconds, in half octets that are no digits. -/
def overlong : Bytes :=
  [0x4E, 0xF0, 0x1B, 0x00, 0x65, 0xC1, 0x00, 0x00, 0x00, 0x01, 0x00, 0x04, 0x00, 0x4E, 0x00, 0x07,
   0xC0, 0x79, 0x12, 0x45, 0x00, 0xFF, 0xFF, 0xFF, 0xE0, 0x00, 0x7C, 0x6F, 0x4C, 0xA9]

/-- The same event, cut to 99:59:59. -/
def cutOverlong : Bytes :=
  [0x4E, 0xF0, 0x1B, 0x00, 0x65, 0xC1, 0x00, 0x00, 0x00, 0x01, 0x00, 0x04, 0x00, 0x4E, 0x00, 0x07,
   0xC0, 0x79, 0x12, 0x45, 0x00, 0x99, 0x59, 0x59, 0xE0, 0x00, 0x94, 0x5E, 0x25, 0x83]

/-- A day before 1900-03-01, an hour of two half octets above 9, and a duration of more than 99:59:59
do not come back. -/
theorem times_not_rewritten :
    (Tdt.format.decode [0x70, 0x70, 0x05, 0x3A, 0xE6, 0x00, 0x00, 0x00] true =
        .ok ⟨⟨⟨0, 2, 31, 3⟩, 0, 0, 0⟩⟩ ∧
      (Tdt.mk ⟨⟨0, 2, 31, 3⟩, 0, 0, 0⟩).write =
        .ok [0x70, 0x70, 0x05, 0x3A, 0xE9, 0x00, 0x00, 0x00] ∧
      Tdt.format.decode [0x70, 0x70, 0x05, 0x3A, 0xE9, 0x00, 0x00, 0x00] true ≠
        .ok ⟨⟨⟨0, 2, 31, 3⟩, 0, 0, 0⟩⟩) ∧
    (Tdt.format.decode [0x70, 0x70, 0x05, 0xC0, 0x79, 0xFF, 0x45, 0x00] true =
        .ok ⟨⟨⟨93, 10, 13, 3⟩, 165, 45, 0⟩⟩ ∧
      (Tdt.mk ⟨⟨93, 10, 13, 3⟩, 165, 45, 0⟩).write =
        .ok [0x70, 0x70, 0x05, 0xC0, 0x79, 0x05, 0x45, 0x00] ∧
      Tdt.format.decode [0x70, 0x70, 0x05, 0xC0, 0x79, 0x05, 0x45, 0x00] true ≠
        .ok ⟨⟨⟨93, 10, 13, 3⟩, 165, 45, 0⟩⟩) ∧
    (Eit.format.decode overlong true =
        .ok (eventFrom (some ⟨⟨93, 10, 13, 3⟩, 12, 45, 0⟩) 604065) ∧
      (eventFrom (some ⟨⟨93, 10, 13, 3⟩, 12, 45, 0⟩) 604065).write = .ok cutOverlong ∧
      Eit.format.decode cutOverlong true ≠
        .ok (eventFrom (some ⟨⟨93, 10, 13, 3⟩, 12, 45, 0⟩) 604065)) := by
  refine ⟨⟨?_, ?_, ?_⟩, ⟨?_, ?_, ?_⟩, ?_, ?_, ?_⟩ <;> decide +kernel

end Table

end DvbHost
