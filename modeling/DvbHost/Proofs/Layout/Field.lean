import DvbHost.Proofs.Descriptor.Loop
import DvbHost.Proofs.Layout.Basic
import DvbHost.Table.Guide

/-!
# Layouts of the fields that tables share

Packet identifiers, times, parts behind their length, entries behind their count, descriptor loops,
and texts in several languages.
-/

namespace DvbHost

set_option autoImplicit false

open BitFields Cursor

variable {α : Type} {L : Layout α}

/-! ## Lengths and counts -/

/-- A part behind its length, which has `width` bits below `reserved` others. -/
def Measured (reserved width : Nat) : Layout Bytes := fun bs part =>
  ∃ head r, Packed [(reserved, r), (width, part.length)] head ∧ bs = head ++ part

/-- Entries behind their number, which has `width` bits. -/
def Counted (width : Nat) (L : Layout α) : Layout (List α) := fun bs as =>
  ∃ head entries, Packed [(width, as.length)] head ∧ bs = head ++ entries ∧ Many L entries as

theorem measured_octet {bs part : Bytes} :
    Measured 0 8 bs part ↔ ∃ n : UInt8, bs = n :: part ∧ part.length = n.toNat := by
  have hvalues (r : Nat) (n : UInt8) :
      [r, part.length] = values [0, 8] n.toNat ↔ r = 0 ∧ part.length = n.toNat := by
    simp [values, bits_eq, Nat.mod_one]
  constructor
  · rintro ⟨_, r, hhead, rfl⟩
    obtain ⟨n, rfl, hn⟩ := (packed_octet rfl).mp hhead
    exact ⟨n, rfl, ((hvalues r n).mp hn).2⟩
  · rintro ⟨n, rfl, hn⟩
    exact ⟨[n], 0, (packed_octet rfl).mpr ⟨n, rfl, (hvalues 0 n).mpr ⟨rfl, hn⟩⟩, rfl⟩

theorem measured_word {reserved width : Nat} (h : reserved + width = 16) {bs part : Bytes} :
    Measured reserved width bs part ↔
      ∃ w : UInt16, bs = Bytes.ofUInt16 w ++ part ∧ part.length = bits 0 width w.toNat := by
  have hwidth (r n : Nat) : BitFields.width [(reserved, r), (width, n)] = 16 := h
  constructor
  · rintro ⟨_, r, hhead, rfl⟩
    obtain ⟨w, rfl, hw⟩ := (packed_word (hwidth ..)).mp hhead
    obtain ⟨_, hw⟩ := List.cons.inj hw
    exact ⟨w, rfl, (List.cons.inj hw).1⟩
  · rintro ⟨w, rfl, hw⟩
    refine ⟨_, bits width reserved w.toNat, (packed_word (hwidth ..)).mpr ⟨w, rfl, ?_⟩, rfl⟩
    change [_, _] = [bits width reserved w.toNat, bits 0 width w.toNat]
    rw [hw]

theorem counted_octet {bs : Bytes} {as : List α} :
    Counted 8 L bs as ↔
      ∃ (n : UInt8) (entries : Bytes), bs = n :: entries ∧ as.length = n.toNat ∧
        Many L entries as := by
  have hvalues (n : UInt8) : [as.length] = values [8] n.toNat ↔ as.length = n.toNat := by
    simp [values, bits_eq]
  constructor
  · rintro ⟨_, entries, hhead, rfl, hentries⟩
    obtain ⟨n, rfl, hn⟩ := (packed_octet rfl).mp hhead
    exact ⟨n, entries, rfl, (hvalues n).mp hn, hentries⟩
  · rintro ⟨n, entries, rfl, hn, hentries⟩
    exact ⟨[n], entries, (packed_octet rfl).mpr ⟨n, rfl, (hvalues n).mpr hn⟩, rfl, hentries⟩

theorem length_eq_toNat_iff {as : List α} {n : UInt8} :
    as.length = n.toNat ↔ as.length ≤ 255 ∧ n = UInt8.ofNat as.length := by
  constructor
  · intro h
    have hn := n.toNat_lt
    exact ⟨by omega, by rw [h, UInt8.ofNat_toNat]⟩
  · rintro ⟨hlength, rfl⟩
    exact (UInt8.toNat_ofNat_of_lt' (Nat.lt_succ_of_le hlength)).symm

/-- Entries with one written form each have one behind their number. -/
theorem counted_iff_flatMap {P : α → Prop} {write : α → Bytes}
    (hL : ∀ bs a, L bs a ↔ P a ∧ bs = write a) {bs : Bytes} {as : List α} :
    Counted 8 L bs as ↔ (as.length ≤ 255 ∧ ∀ a ∈ as, P a) ∧
      bs = UInt8.ofNat as.length :: as.flatMap write := by
  rw [counted_octet]
  constructor
  · rintro ⟨n, entries, rfl, hlength, hentries⟩
    obtain ⟨hfits, rfl⟩ := length_eq_toNat_iff.mp hlength
    obtain ⟨has, rfl⟩ := (many_iff_flatMap hL).mp hentries
    exact ⟨⟨hfits, has⟩, rfl⟩
  · rintro ⟨⟨hfits, has⟩, rfl⟩
    exact ⟨_, _, rfl, length_eq_toNat_iff.mpr ⟨hfits, rfl⟩, (many_iff_flatMap hL).mpr ⟨has, rfl⟩⟩

theorem counted_word {bs : Bytes} {as : List α} :
    Counted 16 L bs as ↔
      ∃ (n : UInt16) (entries : Bytes), bs = Bytes.ofUInt16 n ++ entries ∧ as.length = n.toNat ∧
        Many L entries as := by
  have hvalues (n : UInt16) : [as.length] = values [16] n.toNat ↔ as.length = n.toNat := by
    simp [values, bits_eq]
  constructor
  · rintro ⟨_, entries, hhead, rfl, hentries⟩
    obtain ⟨n, rfl, hn⟩ := (packed_word rfl).mp hhead
    exact ⟨n, entries, rfl, (hvalues n).mp hn, hentries⟩
  · rintro ⟨n, entries, rfl, hn, hentries⟩
    exact ⟨_, entries, (packed_word rfl).mpr ⟨n, rfl, (hvalues n).mpr hn⟩, rfl, hentries⟩

namespace Cursor

theorem parses_counted : Parses counted (Measured 0 8) := by
  refine (parses_u8.bind fun n => parses_bytes n.toNat).congr fun bs part => ?_
  rw [measured_octet]
  constructor
  · rintro ⟨n, _, rfl, _, rfl, hlength, rfl⟩
    exact ⟨n, rfl, hlength⟩
  · rintro ⟨n, rfl, hlength⟩
    exact ⟨n, _, rfl, _, rfl, hlength, rfl⟩

/-- A part of a length that the low bits of a word give. -/
theorem parses_measured {q : Nat → Cursor α}
    (hq : ∀ n, Parses (q n) fun bs a => bs.length = n ∧ L bs a) (reserved width : Nat)
    (h : reserved + width = 16) :
    Parses (u16 >>= fun w => q (bits 0 width w.toNat)) fun bs a =>
      ∃ part, Measured reserved width bs part ∧ L part a := by
  refine (parses_u16.bind fun w => hq (bits 0 width w.toNat)).congr fun bs a => ?_
  simp only [measured_word h]
  constructor
  · rintro ⟨w, _, rfl, part, rfl, hlength, hL⟩
    exact ⟨part, ⟨w, rfl, hlength⟩, hL⟩
  · rintro ⟨part, ⟨w, rfl, hlength⟩, hL⟩
    exact ⟨w, _, rfl, part, rfl, hlength, hL⟩

theorem parses_length12 {q : Nat → Cursor α}
    (hq : ∀ n, Parses (q n) fun bs a => bs.length = n ∧ L bs a) :
    Parses (length12 >>= q) fun bs a => ∃ part, Measured 4 12 bs part ∧ L part a := by
  rw [length12, bind_assoc]
  exact parses_measured hq 4 12 rfl

/-- Entries after their number in one octet. -/
theorem parses_repeated {p : Cursor α} (h : Parses p L) :
    Parses (u8 >>= fun n => repeated p n.toNat) (Counted 8 L) := by
  refine (parses_u8.bind fun n => h.repeated n.toNat).congr fun bs as => ?_
  rw [counted_octet]
  constructor
  · rintro ⟨n, _, rfl, entries, rfl, hlength, hentries⟩
    exact ⟨n, entries, rfl, hlength, hentries⟩
  · rintro ⟨n, entries, rfl, hlength, hentries⟩
    exact ⟨n, _, rfl, entries, rfl, hlength, hentries⟩

end Cursor

/-! ## Packet identifiers and times -/

/-- Three reserved bits and the number. -/
def Pid.Written (bs : Bytes) (p : Pid) : Prop := ∃ r, Packed [(3, r), (13, p.number)] bs

theorem Pid.parses : Parses read Written := by
  refine (parses_u16.map fun w => ofLow w.toNat).congr fun bs p => ⟨?_, ?_⟩
  · rintro ⟨w, rfl, rfl⟩
    exact ⟨bits 13 3 w.toNat, (packed_word rfl).mpr ⟨w, rfl, rfl⟩⟩
  · rintro ⟨r, hbs⟩
    obtain ⟨w, rfl, hw⟩ := (packed_word rfl).mp hbs
    have hnumber : p.number = bits 0 13 w.toNat := (List.cons.inj (List.cons.inj hw).2).1
    obtain ⟨number, lt⟩ := p
    subst hnumber
    exact ⟨w, rfl, rfl⟩

/-- The day count, and hours, minutes and seconds in decimal digits. -/
def DateTime.Written (bs : Bytes) (t : DateTime) : Prop :=
  ∃ (day : UInt16) (h m s : UInt8), bs = Bytes.ofUInt16 day ++ [h, m, s] ∧
    t = ⟨.ofDay day.toNat, UInt8.ofNat (Bcd.value h), UInt8.ofNat (Bcd.value m),
      UInt8.ofNat (Bcd.value s)⟩

theorem DateTime.parses : Parses read Written := by
  have hdate := parses_u16.map fun w => Date.ofDay w.toNat
  refine (hdate.bind fun _ => parses_u8.bind fun _ => parses_u8.bind fun _ =>
    parses_u8.map _).congr fun bs t => ⟨?_, ?_⟩
  · rintro ⟨_, _, ⟨day, rfl, rfl⟩, _, rfl, h, _, rfl, _, rfl, m, _, rfl, _, rfl, s, rfl, rfl⟩
    exact ⟨day, h, m, s, rfl, rfl⟩
  · rintro ⟨day, h, m, s, rfl, rfl⟩
    exact ⟨_, _, ⟨day, rfl, rfl⟩, _, rfl, h, _, rfl, _, rfl, m, _, rfl, _, rfl, s, rfl, rfl⟩

theorem DateTime.Written.length {bs : Bytes} {t : DateTime} (h : Written bs t) : bs.length = 5 := by
  obtain ⟨day, h, m, s, rfl, _⟩ := h
  rw [List.length_append, Bytes.length_ofUInt16]
  rfl

/-! ## Descriptor loops -/

theorem RawDescriptor.parses : Parses read fun bs d => bs = d.toBytes := by
  intro s d rest
  constructor
  · intro h
    obtain _ | ⟨tag, _ | ⟨len, tail⟩⟩ := s
    · cases (Prod.mk.inj h).1
    · cases (Prod.mk.inj h).1
    · rw [read] at h
      split at h
      · rename_i hle
        obtain ⟨hok, rfl⟩ := Prod.mk.inj h
        obtain rfl := Except.ok.inj hok
        have hlen : UInt8.ofNat (tail.take len.toNat).length = len := by
          rw [List.length_take_of_le hle, UInt8.ofNat_toNat]
        refine ⟨_, ?_, rfl⟩
        change tag :: len :: tail = tag :: UInt8.ofNat (tail.take len.toNat).length ::
          (tail.take len.toNat ++ tail.drop len.toNat)
        rw [hlen, List.take_append_drop]
      · cases (Prod.mk.inj h).1
  · rintro ⟨_, rfl, rfl⟩
    exact d.reads rest

namespace DescriptorLoop

/-- A loop after its length of 12 bits, with four bits above. -/
def Written (bs : Bytes) (l : DescriptorLoop) : Prop := Measured 4 12 bs l.toBytes

/-- A loop after its length of 10 bits, with six bits above. -/
def ShortWritten (bs : Bytes) (l : DescriptorLoop) : Prop := Measured 6 10 bs l.toBytes

variable {bs : Bytes} {l : DescriptorLoop}

/-- The octets of a loop are its descriptors, each a tag, a length and that many octets. -/
theorem many_iff : Many (fun bs d => bs = RawDescriptor.toBytes d) bs l.items ↔ bs = l.toBytes := by
  have hone (bs : Bytes) (d : RawDescriptor) : bs = d.toBytes ↔ True ∧ bs = d.toBytes :=
    (and_iff_right trivial).symm
  rw [many_iff_flatMap hone]
  exact and_iff_right fun _ _ => trivial

theorem ofBytes_eq_ok (bs : Bytes) (l : DescriptorLoop) : ofBytes bs = .ok l ↔ bs = l.toBytes := by
  have hexhausts := RawDescriptor.parses.untilEnd fun bs d h => h ▸ List.cons_ne_nil _ _
  rw [← many_iff, ← hexhausts.run_eq_ok_iff, ofBytes]
  cases (untilEnd RawDescriptor.read).run bs with
  | error e => simp [Except.map]
  | ok items =>
    obtain ⟨expected⟩ := l
    simp [Except.map]

theorem parses_ofLength (n : Nat) :
    Parses (ofLength n) fun bs l => bs.length = n ∧ bs = l.toBytes := by
  refine (parses_part ofBytes_eq_ok (parses_bytes n)).congr fun bs l => ⟨?_, ?_⟩
  · rintro ⟨_, ⟨hlength, rfl⟩, hl⟩
    exact ⟨hlength, hl⟩
  · rintro ⟨hlength, hl⟩
    exact ⟨bs, ⟨hlength, rfl⟩, hl⟩

theorem parses : Parses read Written := by
  refine (parses_length12 parses_ofLength).congr fun bs l => ?_
  simp [Written]

theorem parses_readShort : Parses readShort ShortWritten := by
  refine (parses_measured parses_ofLength 6 10 rfl).congr fun bs l => ?_
  simp [ShortWritten]

end DescriptorLoop

/-! ## Texts -/

/-- A compression type, a mode and the octets behind their number. -/
def Segment.Written (bs : Bytes) (s : Segment) : Prop :=
  ∃ data, bs = [s.compression, s.mode] ++ data ∧ Measured 0 8 data s.bytes

/-- A language and segments behind their number. -/
def LocalString.Written (bs : Bytes) (s : LocalString) : Prop :=
  ∃ segments, bs = s.language.toBytes ++ segments ∧ Counted 8 Segment.Written segments s.segments

namespace MultipleString

/-- Strings behind their number, or no octets at all for no strings. -/
def Written (bs : Bytes) (m : MultipleString) : Prop :=
  bs = [] ∧ m.strings = [] ∨ Counted 8 LocalString.Written bs m.strings

/-- A structure after its length in one octet. -/
def CountedWritten (bs : Bytes) (m : MultipleString) : Prop :=
  ∃ text, Measured 0 8 bs text ∧ Written text m

end MultipleString

theorem Segment.parses : Parses read Written := by
  refine (parses_u8.bind fun _ => parses_u8.bind fun _ => parses_counted.map _).congr
    fun bs s => ⟨?_, ?_⟩
  · rintro ⟨compression, _, rfl, _, rfl, mode, _, rfl, data, rfl, octets, hdata, rfl⟩
    exact ⟨data, rfl, hdata⟩
  · rintro ⟨data, rfl, hdata⟩
    exact ⟨s.compression, _, rfl, _, rfl, s.mode, _, rfl, data, rfl, s.bytes, hdata, rfl⟩

theorem Language.parses : Parses read fun bs l => bs = l.toBytes := by
  refine (parses_u8.bind fun _ => parses_u8.bind fun _ => parses_u8.map _).congr
    fun bs l => ⟨?_, ?_⟩
  · rintro ⟨first, _, rfl, _, rfl, second, _, rfl, _, rfl, third, rfl, rfl⟩
    rfl
  · rintro rfl
    exact ⟨l.first, _, rfl, _, rfl, l.second, _, rfl, _, rfl, l.third, rfl, rfl⟩

theorem LocalString.parses : Parses read Written := by
  refine (Language.parses.bind fun _ => ((parses_repeated Segment.parses).map _).assoc).congr
    fun bs s => ⟨?_, ?_⟩
  · rintro ⟨_, _, rfl, entries, rfl, _, hentries, rfl⟩
    exact ⟨entries, rfl, hentries⟩
  · rintro ⟨entries, rfl, hentries⟩
    exact ⟨s.language, _, rfl, entries, rfl, s.segments, hentries, rfl⟩

namespace MultipleString

theorem parses_cursor : Parses cursor fun bs m => Counted 8 LocalString.Written bs m.strings := by
  refine ((parses_repeated LocalString.parses).map _).assoc.congr fun bs m => ⟨?_, ?_⟩
  · rintro ⟨_, hstrings, rfl⟩
    exact hstrings
  · intro hstrings
    exact ⟨m.strings, hstrings, rfl⟩

theorem read_eq_ok (bs : Bytes) (m : MultipleString) : read bs = .ok m ↔ Written bs m := by
  cases bs with
  | nil =>
    have hcount : ¬Counted 8 LocalString.Written [] m.strings := by
      rw [counted_octet]
      rintro ⟨_, _, hnil, _⟩
      cases hnil
    obtain ⟨strings⟩ := m
    simp [read, Written, hcount, eq_comm]
  | cons b bs =>
    change cursor.exactly.run (b :: bs) = .ok m ↔ _
    rw [parses_cursor.exactly.run_eq_ok_iff, Written]
    simp

theorem parses_counted : Parses counted CountedWritten :=
  parses_part read_eq_ok Cursor.parses_counted

end MultipleString

end DvbHost
