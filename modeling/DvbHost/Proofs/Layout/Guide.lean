import DvbHost.Proofs.Layout.Table

/-!
# Layouts of the program guide tables

The tables that begin with a protocol version, with loops that end by a count, texts behind lengths
of 8 bits, and descriptor loops behind lengths of 10 or 12 bits. The main statement is the one of the
other tables. The master guide table is refused early if its octets are too few for the number of
entries that it states, and that refuses no layout.
-/

namespace DvbHost

set_option autoImplicit false

open BitFields Cursor

/-! ## Numbers of some bits -/

theorem octet_eq_bits_iff {low width n : Nat} {b : UInt8} (h : width ≤ 8) :
    b.toNat = bits low width n ↔ b = UInt8.ofNat (bits low width n) := by
  have hlt : bits low width n < 2 ^ 8 :=
    Nat.lt_of_lt_of_le (bits_lt low width n) (Nat.pow_le_pow_right (by decide) h)
  rw [← UInt8.toNat_inj, UInt8.toNat_ofNat_of_lt' hlt]

theorem word_eq_bits_iff {low width n : Nat} {w : UInt16} (h : width ≤ 16) :
    w.toNat = bits low width n ↔ w = UInt16.ofNat (bits low width n) := by
  have hlt : bits low width n < 2 ^ 16 :=
    Nat.lt_of_lt_of_le (bits_lt low width n) (Nat.pow_le_pow_right (by decide) h)
  rw [← UInt16.toNat_inj, UInt16.toNat_ofNat_of_lt' hlt]

theorem long_eq_bits_iff {low width n : Nat} {w : UInt32} (h : width ≤ 32) :
    w.toNat = bits low width n ↔ w = UInt32.ofNat (bits low width n) := by
  have hlt : bits low width n < 2 ^ 32 :=
    Nat.lt_of_lt_of_le (bits_lt low width n) (Nat.pow_le_pow_right (by decide) h)
  rw [← UInt32.toNat_inj, UInt32.toNat_ofNat_of_lt' hlt]

/-- A number of three octets as a word. -/
theorem long_of_lt {n : Nat} (h : n < 256 ^ 3) :
    ∃ w : UInt32, w.toNat = n ∧ w.toNat < 256 ^ 3 ∧ Bytes.ofNumber 3 n = Bytes.ofNumber 3 w.toNat := by
  have htoNat : (UInt32.ofNat n).toNat = n :=
    UInt32.toNat_ofNat_of_lt' (Nat.lt_trans h (by decide))
  exact ⟨UInt32.ofNat n, htoNat, htoNat.symm ▸ h, by rw [htoNat]⟩

/-! ## The common header -/

/-- The fields of the section, and the protocol version in an octet of the body. -/
def GuideHeader.Written (h : ExtendedHeader) (bs : Bytes) (g : GuideHeader) : Prop :=
  g.extension = h.extension ∧ g.info = h.info ∧ bs = [g.protocolVersion]

theorem GuideHeader.parses (h : ExtendedHeader) : Parses (read h) (Written h) := by
  refine (parses_u8.map (GuideHeader.mk h.extension h.info)).congr fun bs g => ⟨?_, ?_⟩
  · rintro ⟨version, rfl, rfl⟩
    exact ⟨rfl, rfl, rfl⟩
  · obtain ⟨extension, info, version⟩ := g
    rintro ⟨rfl, rfl, rfl⟩
    exact ⟨version, rfl, rfl⟩

/-! ## Tables of the guide -/

/-- A type, a PID, a version below three reserved bits, a size and descriptors. -/
def GuideTable.Written (bs : Bytes) (g : GuideTable) : Prop :=
  ∃ pid version r loop,
    bs = Bytes.ofUInt16 g.tableType ++ pid ++ version ++ Bytes.ofUInt32 g.size ++ loop ∧
      Pid.Written pid g.pid ∧ Packed [(3, r), (5, g.version.toNat)] version ∧
      DescriptorLoop.Written loop g.descriptors

/-- The header, entries behind their number, and descriptors. -/
def Mgt.Written (h : ExtendedHeader) (bs : Bytes) (t : Mgt) : Prop :=
  ∃ header tables loop, bs = header ++ tables ++ loop ∧ GuideHeader.Written h header t.header ∧
    Counted 16 GuideTable.Written tables t.tables ∧ DescriptorLoop.Written loop t.descriptors

theorem GuideTable.version_iff {r n : Nat} {version : UInt8} :
    [r, version.toNat] = values [3, 5] n ↔
      r = bits 5 3 n ∧ version = UInt8.ofNat (bits 0 5 n) := by
  simp [values, octet_eq_bits_iff]

theorem GuideTable.parses : Parses read Written := by
  refine (parses_u16.bind fun _ => Pid.parses.bind fun _ => parses_u8.bind fun _ =>
    parses_u32.bind fun _ => DescriptorLoop.parses.map _).congr fun bs g => ⟨?_, ?_⟩
  · rintro ⟨type, _, rfl, _, rfl, _, pid, hpid, _, rfl, version, _, rfl, _, rfl, size, _, rfl, loop,
      rfl, _, hloop, rfl⟩
    exact ⟨pid, [version], _, loop, by simp only [List.append_assoc], hpid,
      (packed_octet rfl).mpr ⟨version, rfl, version_iff.mpr ⟨rfl, rfl⟩⟩, hloop⟩
  · rintro ⟨pid, _, r, loop, rfl, hpid, hversion, hloop⟩
    obtain ⟨type, pidNumber, low, size, l⟩ := g
    obtain ⟨version, rfl, hvalues⟩ := (packed_octet rfl).mp hversion
    obtain ⟨rfl, rfl⟩ := version_iff.mp hvalues
    simp only [List.append_assoc]
    exact ⟨type, _, rfl, _, rfl, pidNumber, pid, hpid, _, rfl, version, _, rfl, _, rfl, size, _, rfl,
      loop, rfl, l, hloop, rfl⟩

theorem GuideTable.Written.le_length {bs : Bytes} {g : GuideTable} (h : Written bs g) :
    Mgt.leastEntry ≤ bs.length := by
  obtain ⟨pid, version, r, loop, rfl, ⟨_, hpid⟩, hversion, ⟨head, _, hhead, rfl⟩⟩ := h
  have hpid : pid.length = 2 := hpid.length rfl
  have hversion : version.length = 1 := hversion.length rfl
  have hhead : head.length = 2 := hhead.length rfl
  simp only [List.length_append, Bytes.length_ofUInt16, Bytes.length_ofUInt32, Mgt.leastEntry]
  omega

theorem Cursor.Many.le_length {α : Type} {L : Layout α} {least : Nat}
    (hL : ∀ bs a, L bs a → least ≤ bs.length) {bs : Bytes} {as : List α} (h : Many L bs as) :
    as.length * least ≤ bs.length := by
  induction as generalizing bs with
  | nil => simp
  | cons a as ih =>
    obtain ⟨cs, ds, rfl, hcs, hds⟩ := many_cons.mp h
    have hfirst := hL cs a hcs
    have hrest := ih hds
    rw [List.length_cons, List.length_append, Nat.succ_mul]
    omega

/-- The early check refuses nothing that the entries would have accepted. -/
theorem Mgt.readTables_eq_ok (n : Nat) (s : Bytes) (ts : List GuideTable) (rest : Bytes) :
    readTables n s = (.ok ts, rest) ↔ repeated GuideTable.read n s = (.ok ts, rest) := by
  change (if s.length < n * leastEntry then fail .truncatedData else _ : Cursor _) s = _ ↔ _
  by_cases hshort : s.length < n * leastEntry
  · rw [if_pos hshort, GuideTable.parses.repeated n s ts rest]
    constructor
    · intro hfail
      cases (Prod.mk.inj hfail).1
    · rintro ⟨bs, rfl, rfl, hbs⟩
      have hlength := hbs.le_length fun _ _ => GuideTable.Written.le_length
      rw [List.length_append] at hshort
      omega
  · rw [if_neg hshort]

theorem Mgt.parses_tables :
    Parses (u16 >>= fun n => readTables n.toNat) (Counted 16 GuideTable.Written) := by
  have htables (n : Nat) : Parses (readTables n) _ := fun s ts rest =>
    (readTables_eq_ok n s ts rest).trans (GuideTable.parses.repeated n s ts rest)
  refine (parses_u16.bind fun n => htables n.toNat).congr fun bs ts => ?_
  rw [counted_word]
  constructor
  · rintro ⟨n, _, rfl, entries, rfl, hlength, hentries⟩
    exact ⟨n, entries, rfl, hlength, hentries⟩
  · rintro ⟨n, entries, rfl, hlength, hentries⟩
    exact ⟨n, _, rfl, entries, rfl, hlength, hentries⟩

theorem Mgt.readsExactly : format.ReadsExactly (· = 0xC7) fun _ => Written := by
  refine TableFormat.extended_readsExactly (fun _ => beq_iff_eq) fun _ h =>
    ((GuideHeader.parses h).bind fun _ => (parses_tables.bind fun _ =>
      DescriptorLoop.parses.map _).assoc).exactly.congr fun bs t => ⟨?_, ?_⟩
  · rintro ⟨_, header, hheader, _, rfl, _, tables, htables, loop, rfl, _, hloop, rfl⟩
    exact ⟨header, tables, loop, (List.append_assoc ..).symm, hheader, htables, hloop⟩
  · rintro ⟨header, tables, loop, rfl, hheader, htables, hloop⟩
    exact ⟨t.header, header, hheader, _, List.append_assoc .., t.tables, tables, htables, loop, rfl,
      t.descriptors, hloop, rfl⟩

/-! ## Virtual channels -/

namespace VirtualChannel

/-- Seven units of UTF-16, filled up with NUL. -/
def NameWritten (bs : Bytes) (name : List Char) : Prop :=
  bs.length = 14 ∧ name = (Text.Utf16.decode (Text.Utf16.units bs)).takeWhile (· != '\x00')

/-- The two channel numbers below four reserved bits. -/
def NumbersWritten (bs : Bytes) (c : VirtualChannel) : Prop :=
  ∃ r, Packed [(4, r), (10, c.major.toNat), (10, c.minor.toNat)] bs

/-- The flags of a channel; two of them mean something for cable only. -/
def FlagsWritten (kind : Transmission) (bs : Bytes) (c : VirtualChannel) : Prop :=
  ∃ (pathSelect outOfBand : Bool) (r : Nat),
    Packed [(2, c.etmLocation.toNat), (1, c.accessControlled.toNat), (1, c.hidden.toNat),
      (1, pathSelect.toNat), (1, outOfBand.toNat), (1, c.hideGuide.toNat), (3, r),
      (6, c.serviceType.toNat)] bs ∧
    c.pathSelect = (kind == .cable && pathSelect) ∧ c.outOfBand = (kind == .cable && outOfBand)

/-- A name, numbers, modulation, frequency, two ids, flags, a source and descriptors. -/
def Written (kind : Transmission) (bs : Bytes) (c : VirtualChannel) : Prop :=
  ∃ name numbers flags loop,
    bs = name ++ numbers ++ [c.modulationMode] ++ Bytes.ofUInt32 c.carrierFrequency ++
        Bytes.ofUInt16 c.transportStreamId ++ Bytes.ofUInt16 c.programNumber ++ flags ++
        Bytes.ofUInt16 c.sourceId ++ loop ∧
      NameWritten name c.shortName ∧ NumbersWritten numbers c ∧ FlagsWritten kind flags c ∧
      DescriptorLoop.ShortWritten loop c.descriptors

theorem parses_readName : Parses readName NameWritten := by
  refine ((parses_bytes 14).map _).congr fun bs name => ⟨?_, ?_⟩
  · rintro ⟨_, ⟨hlength, rfl⟩, rfl⟩
    exact ⟨hlength, rfl⟩
  · rintro ⟨hlength, rfl⟩
    exact ⟨bs, ⟨hlength, rfl⟩, rfl⟩

theorem numbers_iff {r n : Nat} {major minor : UInt16} :
    [r, major.toNat, minor.toNat] = values [4, 10, 10] n ↔
      r = bits 20 4 n ∧ major = UInt16.ofNat (bits 10 10 n) ∧
        minor = UInt16.ofNat (bits 0 10 n) := by
  simp [values, word_eq_bits_iff]

theorem flags_iff {r n : Nat} {etm service : UInt8} {access hidden path band guide : Bool} :
    [etm.toNat, access.toNat, hidden.toNat, path.toNat, band.toNat, guide.toNat, r,
        service.toNat] = values [2, 1, 1, 1, 1, 1, 3, 6] n ↔
      etm = UInt8.ofNat (bits 14 2 n) ∧ access = n.testBit 13 ∧ hidden = n.testBit 12 ∧
        path = n.testBit 11 ∧ band = n.testBit 10 ∧ guide = n.testBit 9 ∧ r = bits 6 3 n ∧
        service = UInt8.ofNat (bits 0 6 n) := by
  simp [values, octet_eq_bits_iff, flag_eq_bits_iff]

theorem parses (kind : Transmission) : Parses (read kind) (Written kind) := by
  refine (parses_readName.bind fun _ => parses_u24.bind fun _ => parses_u8.bind fun _ =>
    parses_u32.bind fun _ => parses_u16.bind fun _ => parses_u16.bind fun _ =>
    parses_u16.bind fun _ => parses_u16.bind fun _ =>
    DescriptorLoop.parses_readShort.map _).congr fun bs c => ⟨?_, ?_⟩
  · rintro ⟨_, name, hname, _, rfl, numbers, _, ⟨hnumbers, rfl⟩, _, rfl, mode, _, rfl, _, rfl,
      frequency, _, rfl, _, rfl, stream, _, rfl, _, rfl, program, _, rfl, _, rfl, flags, _, rfl, _,
      rfl, source, _, rfl, loop, rfl, _, hloop, rfl⟩
    refine ⟨name, Bytes.ofNumber 3 numbers.toNat, Bytes.ofUInt16 flags, loop,
      by simp only [List.append_assoc], hname, ?_, ?_, hloop⟩
    · exact ⟨_, (packed_number 3 rfl).mpr ⟨_, hnumbers, rfl, numbers_iff.mpr ⟨rfl, rfl, rfl⟩⟩⟩
    · exact ⟨_, _, _, (packed_word rfl).mpr
        ⟨flags, rfl, flags_iff.mpr ⟨rfl, rfl, rfl, rfl, rfl, rfl, rfl, rfl⟩⟩, rfl, rfl⟩
  · obtain ⟨shortName, major, minor, mode, frequency, stream, program, etm, access, hidden, path, band,
      guide, service, source, l⟩ := c
    rintro ⟨name, _, _, loop, rfl, hname, ⟨r, hnumbers⟩, ⟨path', band', r', hflags, rfl, rfl⟩, hloop⟩
    obtain ⟨n, hn, rfl, hvalues⟩ := (packed_number 3 rfl).mp hnumbers
    obtain ⟨rfl, rfl, rfl⟩ := numbers_iff.mp hvalues
    obtain ⟨flags, rfl, hvalues⟩ := (packed_word rfl).mp hflags
    obtain ⟨rfl, rfl, rfl, rfl, rfl, rfl, rfl, rfl⟩ := flags_iff.mp hvalues
    obtain ⟨numbers, hnumbers, hn, hword⟩ := long_of_lt hn
    simp only [List.append_assoc]
    exact ⟨shortName, name, hname, _, rfl, numbers, _, ⟨hn, hword⟩, _, rfl, mode, _, rfl, _, rfl,
      frequency, _, rfl, _, rfl, stream, _, rfl, _, rfl, program, _, rfl, _, rfl, flags, _, rfl, _,
      rfl, source, _, rfl, loop, rfl, l, hloop, by rw [hnumbers]⟩

end VirtualChannel

/-- The header, channels behind their number, and descriptors; the id gives the kind. -/
def Vct.Written (id : UInt8) (h : ExtendedHeader) (bs : Bytes) (t : Vct) : Prop :=
  t.kind = kindOf id ∧ ∃ header channels loop, bs = header ++ channels ++ loop ∧
    GuideHeader.Written h header t.header ∧
    Counted 8 (VirtualChannel.Written t.kind) channels t.channels ∧
    DescriptorLoop.ShortWritten loop t.descriptors

theorem Vct.readsExactly : format.ReadsExactly (fun id => id = 0xC8 ∨ id = 0xC9) Written := by
  refine TableFormat.extended_readsExactly (fun id => by simp) fun id h =>
    ((GuideHeader.parses h).bind fun _ => ((parses_repeated (VirtualChannel.parses (kindOf id))).bind
      fun _ => DescriptorLoop.parses_readShort.map _).assoc).exactly.congr fun bs t => ⟨?_, ?_⟩
  · rintro ⟨_, header, hheader, _, rfl, _, channels, hchannels, loop, rfl, _, hloop, rfl⟩
    exact ⟨rfl, header, channels, loop, (List.append_assoc ..).symm, hheader, hchannels, hloop⟩
  · obtain ⟨kind, g, entries, l⟩ := t
    rintro ⟨rfl, header, channels, loop, rfl, hheader, hchannels, hloop⟩
    exact ⟨g, header, hheader, _, List.append_assoc .., entries, channels, hchannels, loop, rfl, l,
      hloop, rfl⟩

/-! ## Rating regions -/

/-- Two texts. -/
def RatingValue.Written (bs : Bytes) (v : RatingValue) : Prop :=
  ∃ abbreviation name, bs = abbreviation ++ name ∧
    MultipleString.CountedWritten abbreviation v.abbreviation ∧
    MultipleString.CountedWritten name v.name

/-- A text, a flag and the number of values in one octet below three reserved bits, and the values. -/
def RatingDimension.Written (bs : Bytes) (d : RatingDimension) : Prop :=
  ∃ name head r ratings, bs = name ++ head ++ ratings ∧ MultipleString.CountedWritten name d.name ∧
    Packed [(3, r), (1, d.graduated.toNat), (4, d.values.length)] head ∧
    Many RatingValue.Written ratings d.values

/-- The header, a text, dimensions behind their number, and descriptors. -/
def Rrt.Written (h : ExtendedHeader) (bs : Bytes) (t : Rrt) : Prop :=
  ∃ header name dimensions loop, bs = header ++ name ++ dimensions ++ loop ∧
    GuideHeader.Written h header t.header ∧ MultipleString.CountedWritten name t.regionName ∧
    Counted 8 RatingDimension.Written dimensions t.dimensions ∧
    DescriptorLoop.ShortWritten loop t.descriptors

theorem RatingValue.parses : Parses read Written := by
  refine (MultipleString.parses_counted.bind fun _ => MultipleString.parses_counted.map _).congr
    fun bs v => ⟨?_, ?_⟩
  · rintro ⟨_, abbreviation, habbreviation, name, rfl, _, hname, rfl⟩
    exact ⟨abbreviation, name, rfl, habbreviation, hname⟩
  · rintro ⟨abbreviation, name, rfl, habbreviation, hname⟩
    exact ⟨v.abbreviation, abbreviation, habbreviation, name, rfl, v.name, hname, rfl⟩

theorem RatingDimension.head_iff {r count n : Nat} {graduated : Bool} :
    [r, graduated.toNat, count] = BitFields.values [3, 1, 4] n ↔
      r = bits 5 3 n ∧ graduated = n.testBit 4 ∧ count = bits 0 4 n := by
  simp [BitFields.values, flag_eq_bits_iff]

theorem RatingDimension.parses : Parses read Written := by
  refine (MultipleString.parses_counted.bind fun _ => parses_u8.bind fun b =>
    (RatingValue.parses.repeated (Octet.field 0 4 b).toNat).map _).congr fun bs d => ?_
  have hcount (b : UInt8) : (Octet.field 0 4 b).toNat = bits 0 4 b.toNat :=
    (octet_eq_bits_iff (by decide)).mpr rfl
  simp only [hcount]
  constructor
  · rintro ⟨_, name, hname, _, rfl, b, _, rfl, ratings, rfl, _, ⟨hlength, hratings⟩, rfl⟩
    exact ⟨name, [b], _, ratings, (List.append_assoc ..).symm, hname,
      (packed_octet rfl).mpr ⟨b, rfl, head_iff.mpr ⟨rfl, rfl, hlength⟩⟩, hratings⟩
  · obtain ⟨text, graduated, entries⟩ := d
    rintro ⟨name, _, r, ratings, rfl, hname, hhead, hratings⟩
    obtain ⟨b, rfl, hvalues⟩ := (packed_octet rfl).mp hhead
    obtain ⟨rfl, rfl, hlength⟩ := head_iff.mp hvalues
    exact ⟨text, name, hname, _, List.append_assoc .., b, _, rfl, ratings, rfl, entries,
      ⟨hlength, hratings⟩, rfl⟩

theorem Rrt.readsExactly : format.ReadsExactly (· = 0xCA) fun _ => Written := by
  refine TableFormat.extended_readsExactly (fun _ => beq_iff_eq) fun _ h =>
    ((GuideHeader.parses h).bind fun _ => MultipleString.parses_counted.bind fun _ =>
      ((parses_repeated RatingDimension.parses).bind fun _ =>
        DescriptorLoop.parses_readShort.map _).assoc).exactly.congr fun bs t => ⟨?_, ?_⟩
  · rintro ⟨_, header, hheader, _, rfl, _, name, hname, _, rfl, _, dimensions, hdimensions, loop, rfl,
      _, hloop, rfl⟩
    exact ⟨header, name, dimensions, loop, by simp only [List.append_assoc], hheader, hname,
      hdimensions, hloop⟩
  · rintro ⟨header, name, dimensions, loop, rfl, hheader, hname, hdimensions, hloop⟩
    simp only [List.append_assoc]
    exact ⟨t.header, header, hheader, _, rfl, t.regionName, name, hname, _, rfl, t.dimensions,
      dimensions, hdimensions, loop, rfl, t.descriptors, hloop, rfl⟩

/-! ## Events and their texts -/

/-- An id below two reserved bits, a start, a place of further text and a length below two reserved
bits, a title and descriptors. -/
def GuideEvent.Written (bs : Bytes) (e : GuideEvent) : Prop :=
  ∃ id r length q title loop,
    bs = id ++ Bytes.ofUInt32 e.startTime.seconds ++ length ++ title ++ loop ∧
      Packed [(2, r), (14, e.id.toNat)] id ∧
      Packed [(2, q), (2, e.etmLocation.toNat), (20, e.length.toNat)] length ∧
      MultipleString.CountedWritten title e.title ∧ DescriptorLoop.Written loop e.descriptors

/-- The header, and events behind their number. -/
def GuideEit.Written (h : ExtendedHeader) (bs : Bytes) (t : GuideEit) : Prop :=
  ∃ header events, bs = header ++ events ∧ GuideHeader.Written h header t.header ∧
    Counted 8 GuideEvent.Written events t.events

/-- The header, what the text is about, and a text that fills the rest. -/
def Ett.Written (h : ExtendedHeader) (bs : Bytes) (t : Ett) : Prop :=
  ∃ header text, bs = header ++ Bytes.ofUInt32 t.etmId ++ text ∧
    GuideHeader.Written h header t.header ∧ MultipleString.Written text t.message

/-- The header, the time, two fields of the clock, and a descriptor loop that fills the rest. -/
def Stt.Written (h : ExtendedHeader) (bs : Bytes) (t : Stt) : Prop :=
  ∃ header, bs = header ++ Bytes.ofUInt32 t.systemTime.seconds ++ [t.leapSeconds] ++
      Bytes.ofUInt16 t.daylightSaving ++ t.descriptors.toBytes ∧
    GuideHeader.Written h header t.header

theorem GuideEvent.id_iff {r n : Nat} {id : UInt16} :
    [r, id.toNat] = values [2, 14] n ↔ r = bits 14 2 n ∧ id = UInt16.ofNat (bits 0 14 n) := by
  simp [values, word_eq_bits_iff]

theorem GuideEvent.length_iff {q n : Nat} {etm : UInt8} {length : UInt32} :
    [q, etm.toNat, length.toNat] = values [2, 2, 20] n ↔
      q = bits 22 2 n ∧ etm = UInt8.ofNat (bits 20 2 n) ∧ length = UInt32.ofNat (bits 0 20 n) := by
  simp [values, octet_eq_bits_iff, long_eq_bits_iff]

theorem GuideEvent.parses : Parses read Written := by
  refine (parses_u16.bind fun _ => parses_u32.bind fun _ => parses_u24.bind fun _ =>
    MultipleString.parses_counted.bind fun _ => DescriptorLoop.parses.map _).congr
      fun bs e => ⟨?_, ?_⟩
  · rintro ⟨id, _, rfl, _, rfl, start, _, rfl, _, rfl, length, _, ⟨hlength, rfl⟩, _, rfl, _, title,
      htitle, loop, rfl, _, hloop, rfl⟩
    exact ⟨_, _, _, _, title, loop, by simp only [List.append_assoc],
      (packed_word rfl).mpr ⟨id, rfl, id_iff.mpr ⟨rfl, rfl⟩⟩,
      (packed_number 3 rfl).mpr ⟨_, hlength, rfl, length_iff.mpr ⟨rfl, rfl, rfl⟩⟩, htitle, hloop⟩
  · obtain ⟨id, ⟨start⟩, etm, length, text, l⟩ := e
    rintro ⟨_, r, _, q, title, loop, rfl, hid, hlength, htitle, hloop⟩
    obtain ⟨w, rfl, hvalues⟩ := (packed_word rfl).mp hid
    obtain ⟨rfl, rfl⟩ := id_iff.mp hvalues
    obtain ⟨n, hn, rfl, hvalues⟩ := (packed_number 3 rfl).mp hlength
    obtain ⟨rfl, rfl, rfl⟩ := length_iff.mp hvalues
    obtain ⟨long, hlong, hn, hword⟩ := long_of_lt hn
    simp only [List.append_assoc]
    exact ⟨w, _, rfl, _, rfl, start, _, rfl, _, rfl, long, _, ⟨hn, hword⟩, _, rfl, text, title,
      htitle, loop, rfl, l, hloop, by rw [hlong]⟩

theorem GuideEit.readsExactly : format.ReadsExactly (· = 0xCB) fun _ => Written := by
  refine TableFormat.extended_readsExactly (fun _ => beq_iff_eq) fun _ h =>
    ((GuideHeader.parses h).bind fun _ =>
      ((parses_repeated GuideEvent.parses).map _).assoc).exactly.congr fun bs t => ⟨?_, ?_⟩
  · rintro ⟨_, header, hheader, events, rfl, _, hevents, rfl⟩
    exact ⟨header, events, rfl, hheader, hevents⟩
  · rintro ⟨header, events, rfl, hheader, hevents⟩
    exact ⟨t.header, header, hheader, events, rfl, t.events, hevents, rfl⟩

theorem Ett.readsExactly : format.ReadsExactly (· = 0xCC) fun _ => Written := by
  have htext := (exhausts_part MultipleString.read_eq_ok)
  refine TableFormat.extended_readsExactly (fun _ => beq_iff_eq) fun _ h =>
    ((GuideHeader.parses h).bindAll fun _ => parses_u32.bindAll fun _ =>
      (htext.map _).assoc).congr fun bs t => ⟨?_, ?_⟩
  · rintro ⟨_, header, hheader, _, rfl, etmId, _, rfl, text, rfl, _, htext, rfl⟩
    exact ⟨header, text, (List.append_assoc ..).symm, hheader, htext⟩
  · rintro ⟨header, text, rfl, hheader, htext⟩
    exact ⟨t.header, header, hheader, _, List.append_assoc .., t.etmId, _, rfl, text, rfl, t.message,
      htext, rfl⟩

theorem Stt.readsExactly : format.ReadsExactly (· = 0xCD) fun _ => Written := by
  have hloop := (exhausts_part DescriptorLoop.ofBytes_eq_ok)
  refine TableFormat.extended_readsExactly (fun _ => beq_iff_eq) fun _ h =>
    ((GuideHeader.parses h).bindAll fun _ => parses_u32.bindAll fun _ => parses_u8.bindAll fun _ =>
      parses_u16.bindAll fun _ => (hloop.map _).assoc).congr fun bs t => ⟨?_, ?_⟩
  · rintro ⟨_, header, hheader, _, rfl, time, _, rfl, _, rfl, leap, _, rfl, _, rfl, daylight, _, rfl,
      _, rfl, l, rfl, rfl⟩
    exact ⟨header, by simp only [List.append_assoc], hheader⟩
  · obtain ⟨g, ⟨time⟩, leap, daylight, l⟩ := t
    rintro ⟨header, rfl, hheader⟩
    simp only [List.append_assoc]
    exact ⟨g, header, hheader, _, rfl, time, _, rfl, _, rfl, leap, _, rfl, _, rfl, daylight, _, rfl,
      _, rfl, l, rfl, rfl⟩

/-! ## The tables together -/

end DvbHost
