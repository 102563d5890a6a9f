import DvbHost.Descriptor.Event
import DvbHost.Descriptor.Guide
import DvbHost.Proofs.Checked.Field
import DvbHost.Proofs.Layout.Guide

/-!
# Layouts of descriptors with nested entries

Counts that share their octet with reserved bits, entries in a part behind its length, texts in
entries, and entries in entries. A descriptor is read from the octets that are a layout of it and
from no others, so no entry takes octets of its neighbour and none are left at the end
(`nested_descriptors_readExactly`).
-/

namespace DvbHost

set_option autoImplicit false

open BitFields Cursor
open Octet (field flag)

/-! ## Lengths and counts -/

section

variable {α : Type} {L : Layout α} {p : Cursor α}

/-- Entries behind their number, which has `width` bits below `reserved` others. -/
def CountedBelow (reserved width : Nat) (L : Layout α) : Layout (List α) := fun bs as =>
  ∃ head r entries, Packed [(reserved, r), (width, as.length)] head ∧ bs = head ++ entries ∧
    Many L entries as

/-- A part behind its length in one octet, which a layout fills. -/
def Enclosed (L : Layout α) : Layout α := fun bs a => ∃ part, Measured 0 8 bs part ∧ L part a

theorem Cursor.parses_repeatedBelow (h : Parses p L) (reserved width : Nat)
    (hwidth : reserved + width = 8) :
    Parses (u8 >>= fun n => repeated p (field 0 width n).toNat) (CountedBelow reserved width L) := by
  have hcount (b : UInt8) : (field 0 width b).toNat = bits 0 width b.toNat :=
    (octet_eq_bits_iff (by omega)).mpr rfl
  have hoctet (r count : Nat) : BitFields.width [(reserved, r), (width, count)] = 8 := hwidth
  have hvalues (r count n : Nat) :
      [r, count] = values [reserved, width] n ↔
        r = bits width reserved n ∧ count = bits 0 width n := by
    simp [values]
  refine (parses_u8.bind fun n => h.repeated (field 0 width n).toNat).congr fun bs as => ?_
  simp only [hcount]
  constructor
  · rintro ⟨b, _, rfl, entries, rfl, hlength, hentries⟩
    exact ⟨[b], _, entries,
      (packed_octet (hoctet ..)).mpr ⟨b, rfl, (hvalues ..).mpr ⟨rfl, hlength⟩⟩, rfl, hentries⟩
  · rintro ⟨_, r, entries, hhead, rfl, hentries⟩
    obtain ⟨b, rfl, hb⟩ := (packed_octet (hoctet ..)).mp hhead
    exact ⟨b, _, rfl, entries, rfl, ((hvalues ..).mp hb).2, hentries⟩

theorem Cursor.parses_enclosed (h : Exhausts p L) :
    Parses (u8 >>= fun n => within n.toNat p) (Enclosed L) := by
  refine (parses_u8.bind fun n => h.within n.toNat).congr fun bs a => ⟨?_, ?_⟩
  · rintro ⟨n, _, rfl, part, rfl, hlength, hpart⟩
    exact ⟨part, measured_octet.mpr ⟨n, rfl, hlength⟩, hpart⟩
  · rintro ⟨part, hmeasured, hpart⟩
    obtain ⟨n, rfl, hlength⟩ := measured_octet.mp hmeasured
    exact ⟨n, [n], rfl, part, rfl, hlength, hpart⟩

end

/-- A text behind its length in one octet. -/
def DvbText.Written (bs : Bytes) (t : DvbText) : Prop := Measured 0 8 bs t.bytes

theorem DvbText.parses : Parses counted Written := by
  refine (parses_counted.map DvbText.mk).congr fun bs t => ⟨?_, ?_⟩
  · rintro ⟨octets, hoctets, rfl⟩
    exact hoctets
  · intro ht
    exact ⟨t.bytes, ht, rfl⟩

namespace Descriptor

/-! ## Extended events -/

/-- Two texts. -/
def EventItem.Written (bs : Bytes) (i : EventItem) : Prop :=
  ∃ description item, bs = description ++ item ∧ DvbText.Written description i.description ∧
    DvbText.Written item i.item

/-- Two numbers of four bits, a language, items that fill a part behind its length, and a text. -/
def ExtendedEvent.Written (bs : Bytes) (d : ExtendedEvent) : Prop :=
  ∃ numbers items text, bs = numbers ++ d.language.toBytes ++ items ++ text ∧
    Packed [(4, d.number.toNat), (4, d.lastNumber.toNat)] numbers ∧
    Enclosed (Many EventItem.Written) items d.items ∧ DvbText.Written text d.text

theorem EventItem.parses : Parses read Written := by
  refine (DvbText.parses.bind fun _ => DvbText.parses.map _).congr fun bs i => ⟨?_, ?_⟩
  · rintro ⟨_, description, hdescription, item, rfl, _, hitem, rfl⟩
    exact ⟨description, item, rfl, hdescription, hitem⟩
  · rintro ⟨description, item, rfl, hdescription, hitem⟩
    exact ⟨i.description, description, hdescription, item, rfl, i.item, hitem, rfl⟩

/-- An item has at least the lengths of its texts. -/
theorem EventItem.Written.ne_nil {bs : Bytes} {i : EventItem} (h : Written bs i) : bs ≠ [] := by
  obtain ⟨description, item, rfl, hdescription, -⟩ := h
  obtain ⟨n, rfl, -⟩ := measured_octet.mp hdescription
  exact List.cons_ne_nil _ _

theorem ExtendedEvent.numbers_iff {number last : UInt8} {n : Nat} :
    [number.toNat, last.toNat] = values [4, 4] n ↔
      number = UInt8.ofNat (bits 4 4 n) ∧ last = UInt8.ofNat (bits 0 4 n) := by
  simp [values, octet_eq_bits_iff]

theorem ExtendedEvent.exhausts : Exhausts format.cursor Written := by
  have hitems := EventItem.parses.untilEnd fun _ _ h => h.ne_nil
  refine (parses_u8.bind fun _ => Language.parses.bind fun _ =>
    ((parses_enclosed hitems).bind fun _ => DvbText.parses.map _).assoc).exactly.congr
      fun bs d => ⟨?_, ?_⟩
  · rintro ⟨b, _, rfl, _, rfl, language, _, rfl, _, rfl, _, items, hitems, text, rfl, _, htext, rfl⟩
    exact ⟨[b], items, text, by simp only [List.append_assoc],
      (packed_octet rfl).mpr ⟨b, rfl, numbers_iff.mpr ⟨rfl, rfl⟩⟩, hitems, htext⟩
  · obtain ⟨number, last, language, entries, t⟩ := d
    rintro ⟨_, items, text, rfl, hnumbers, hitems, htext⟩
    obtain ⟨b, rfl, hvalues⟩ := (packed_octet rfl).mp hnumbers
    obtain ⟨rfl, rfl⟩ := numbers_iff.mp hvalues
    simp only [List.append_assoc]
    exact ⟨b, _, rfl, _, rfl, language, _, rfl, _, rfl, entries, items, hitems, text, rfl, t, htext,
      rfl⟩

/-! ## Captions -/

/-- A language, a number below a flag and a reserved bit, and two flags above 14 reserved bits. -/
def Caption.Written (bs : Bytes) (c : Caption) : Prop :=
  ∃ r q number flags, bs = c.language.toBytes ++ number ++ flags ∧
    Packed [(1, c.digital.toNat), (1, r), (6, c.serviceNumber.toNat)] number ∧
    Packed [(1, c.easyReader.toNat), (1, c.wideAspect.toNat), (14, q)] flags

/-- Captions behind their number, which has five bits. -/
def CaptionService.Written (bs : Bytes) (d : CaptionService) : Prop :=
  CountedBelow 3 5 Caption.Written bs d.services

theorem Caption.number_iff {digital : Bool} {r n : Nat} {number : UInt8} :
    [digital.toNat, r, number.toNat] = values [1, 1, 6] n ↔
      digital = n.testBit 7 ∧ r = bits 6 1 n ∧ number = UInt8.ofNat (bits 0 6 n) := by
  simp [values, flag_eq_bits_iff, octet_eq_bits_iff]

/-- Both flags stand in the first of the two octets. -/
theorem Caption.flags_iff {easy wide : Bool} {q : Nat} {a b : UInt8} :
    Packed [(1, easy.toNat), (1, wide.toNat), (14, q)] [a, b] ↔
      easy = flag 7 a ∧ wide = flag 6 a ∧ q = bits 0 14 (a.toNat * 256 + b.toNat) := by
  have heasy := Octet.testBit_pair a b 7
  have hwide := Octet.testBit_pair a b 6
  rw [packed_iff rfl, Bytes.number_pair]
  simp [values, flag_eq_bits_iff, heasy, hwide]

theorem Caption.parses : Parses read Written := by
  refine (Language.parses.bind fun _ => parses_u8.bind fun _ => parses_u8.bind fun _ =>
    parses_u8.map _).congr fun bs c => ⟨?_, ?_⟩
  · rintro ⟨language, _, rfl, _, rfl, number, _, rfl, _, rfl, flags, _, rfl, _, rfl, reserved, rfl,
      rfl⟩
    exact ⟨_, _, [number], [flags, reserved],
      by simp only [List.append_assoc, List.singleton_append],
      (packed_octet rfl).mpr ⟨number, rfl, number_iff.mpr ⟨rfl, rfl, rfl⟩⟩,
      flags_iff.mpr ⟨rfl, rfl, rfl⟩⟩
  · obtain ⟨language, digital, serviceNumber, easy, wide⟩ := c
    rintro ⟨r, q, _, flags, rfl, hnumber, hflags⟩
    obtain ⟨number, rfl, hvalues⟩ := (packed_octet rfl).mp hnumber
    obtain ⟨rfl, rfl, rfl⟩ := number_iff.mp hvalues
    have hlength : flags.length = 2 := hflags.length rfl
    obtain ⟨a, b, rfl⟩ := List.length_eq_two.mp hlength
    obtain ⟨rfl, rfl, -⟩ := flags_iff.mp hflags
    rw [List.append_assoc]
    exact ⟨language, _, rfl, _, rfl, number, _, rfl, _, rfl, a, _, rfl, _, rfl, b, rfl, rfl⟩

theorem CaptionService.exhausts : Exhausts format.cursor Written := by
  refine ((parses_repeatedBelow Caption.parses 3 5 rfl).map CaptionService.mk).assoc.exactly.congr
    fun bs d => ⟨?_, ?_⟩
  · rintro ⟨_, hservices, rfl⟩
    exact hservices
  · intro hservices
    exact ⟨d.services, hservices, rfl⟩

/-! ## Ratings -/

/-- A dimension, and a value of four bits. -/
def RatedDimension.Written (bs : Bytes) (d : RatedDimension) : Prop :=
  ∃ r value, bs = d.dimension :: value ∧ Packed [(4, r), (4, d.value.toNat)] value

/-- A region, dimensions behind their number, and a text. -/
def RatedRegion.Written (bs : Bytes) (d : RatedRegion) : Prop :=
  ∃ dimensions description, bs = d.region :: dimensions ++ description ∧
    Counted 8 RatedDimension.Written dimensions d.dimensions ∧
    MultipleString.CountedWritten description d.description

/-- Regions behind their number, which has six bits. -/
def ContentAdvisory.Written (bs : Bytes) (d : ContentAdvisory) : Prop :=
  CountedBelow 2 6 RatedRegion.Written bs d.regions

theorem RatedDimension.value_iff {r n : Nat} {value : UInt8} :
    [r, value.toNat] = values [4, 4] n ↔ r = bits 4 4 n ∧ value = UInt8.ofNat (bits 0 4 n) := by
  simp [values, octet_eq_bits_iff]

theorem RatedDimension.parses : Parses read Written := by
  refine (parses_u8.bind fun _ => parses_u8.map _).congr fun bs d => ⟨?_, ?_⟩
  · rintro ⟨dimension, _, rfl, _, rfl, b, rfl, rfl⟩
    exact ⟨_, [b], rfl, (packed_octet rfl).mpr ⟨b, rfl, value_iff.mpr ⟨rfl, rfl⟩⟩⟩
  · obtain ⟨dimension, value⟩ := d
    rintro ⟨r, _, rfl, hvalue⟩
    obtain ⟨b, rfl, hvalues⟩ := (packed_octet rfl).mp hvalue
    obtain ⟨rfl, rfl⟩ := value_iff.mp hvalues
    exact ⟨dimension, _, rfl, _, rfl, b, rfl, rfl⟩

theorem RatedRegion.parses : Parses read Written := by
  refine (parses_u8.bind fun _ => ((parses_repeated RatedDimension.parses).bind fun _ =>
    MultipleString.parses_counted.map _).assoc).congr fun bs d => ⟨?_, ?_⟩
  · rintro ⟨region, _, rfl, _, rfl, _, dimensions, hdimensions, description, rfl, _, hdescription,
      rfl⟩
    exact ⟨dimensions, description, rfl, hdimensions, hdescription⟩
  · rintro ⟨dimensions, description, rfl, hdimensions, hdescription⟩
    exact ⟨d.region, _, rfl, _, rfl, d.dimensions, dimensions, hdimensions, description, rfl,
      d.description, hdescription, rfl⟩

theorem ContentAdvisory.exhausts : Exhausts format.cursor Written := by
  refine ((parses_repeatedBelow RatedRegion.parses 2 6 rfl).map
    ContentAdvisory.mk).assoc.exactly.congr fun bs d => ⟨?_, ?_⟩
  · rintro ⟨_, hregions, rfl⟩
    exact hregions
  · intro hregions
    exact ⟨d.regions, hregions, rfl⟩

/-! ## Service locations -/

/-- The type of a stream, its packets, and a language. -/
def LocatedElement.Written (bs : Bytes) (e : LocatedElement) : Prop :=
  ∃ pid, bs = e.streamType.code :: pid ++ e.language.toBytes ∧ Pid.Written pid e.pid

/-- The packets of the clock, and elements behind their number. -/
def ServiceLocation.Written (bs : Bytes) (d : ServiceLocation) : Prop :=
  ∃ pid elements, bs = pid ++ elements ∧ Pid.Written pid d.pcrPid ∧
    Counted 8 LocatedElement.Written elements d.elements

theorem LocatedElement.parses : Parses read Written := by
  refine ((parses_u8.map StreamType.mk).bind fun _ => Pid.parses.bind fun _ =>
    Language.parses.map _).congr fun bs e => ⟨?_, ?_⟩
  · rintro ⟨_, _, ⟨code, rfl, rfl⟩, _, rfl, _, pid, hpid, _, rfl, language, rfl, rfl⟩
    exact ⟨pid, rfl, hpid⟩
  · rintro ⟨pid, rfl, hpid⟩
    exact ⟨e.streamType, _, ⟨e.streamType.code, rfl, rfl⟩, _, rfl, e.pid, pid, hpid, _, rfl,
      e.language, rfl, rfl⟩

theorem ServiceLocation.exhausts : Exhausts format.cursor Written := by
  refine (Pid.parses.bind fun _ =>
    ((parses_repeated LocatedElement.parses).map _).assoc).exactly.congr fun bs d => ⟨?_, ?_⟩
  · rintro ⟨_, pid, hpid, elements, rfl, _, helements, rfl⟩
    exact ⟨pid, elements, rfl, hpid, helements⟩
  · rintro ⟨pid, elements, rfl, hpid, helements⟩
    exact ⟨d.pcrPid, pid, hpid, elements, rfl, d.elements, helements, rfl⟩

/-! ## The descriptors together -/

/-- Each of the descriptors with nested entries is read from exactly the data that is a layout of
it, whatever stands in the reserved bits. -/
theorem nested_descriptors_readExactly (data : Bytes) :
    (∀ d, ExtendedEvent.format.read data = .ok d ↔ ExtendedEvent.Written data d) ∧
    (∀ d, CaptionService.format.read data = .ok d ↔ CaptionService.Written data d) ∧
    (∀ d, ContentAdvisory.format.read data = .ok d ↔ ContentAdvisory.Written data d) ∧
    ∀ d, ServiceLocation.format.read data = .ok d ↔ ServiceLocation.Written data d :=
  ⟨fun _ => ExtendedEvent.exhausts.run_eq_ok_iff, fun _ => CaptionService.exhausts.run_eq_ok_iff,
    fun _ => ContentAdvisory.exhausts.run_eq_ok_iff, fun _ => ServiceLocation.exhausts.run_eq_ok_iff⟩

end Descriptor

end DvbHost
