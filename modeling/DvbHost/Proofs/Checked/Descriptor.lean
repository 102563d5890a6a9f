import DvbHost.Descriptor.Standard
import DvbHost.Proofs.Checked.Text

/-!
# Descriptors with faults

Descriptors of a fixed layout are read by index behind a check of their length, those in entries
entry by entry, and the others field by field. A check that is too weak for the indices behind it
would be a fault here. Formats that only match octets by pattern are taken from the library.
-/

namespace DvbHost

set_option autoImplicit false

open Descriptor Checked
open Octet (field flag)

variable {α β : Type}

/-- How descriptors with one tag are read, with the faults of reading. -/
structure CheckedDescriptor (α : Type) where
  tag : UInt8
  read : Bytes → Decoding α

namespace CheckedDescriptor

open Decoding

/-- A format of the library. -/
def ofFormat (f : DescriptorFormat α) : CheckedDescriptor α :=
  ⟨f.tag, fun data => ofResult (f.read data)⟩

def map (g : α → β) (c : CheckedDescriptor α) : CheckedDescriptor β :=
  ⟨c.tag, fun data => g <$> c.read data⟩

/-- A format that is read field by field. -/
def reading (tag : UInt8) (p : CheckedCursor α) : CheckedDescriptor α := ⟨tag, p.run⟩

/-- A format of entries of `size` octets each. -/
def listing (tag : UInt8) (size : Nat) (g : Bytes → Checked α) (make : List α → β) :
    CheckedDescriptor β :=
  reading tag do return make (← CheckedCursor.entries size g)

/-- A format of exactly `size` octets. -/
def sized (tag : UInt8) (size : Nat) (g : Bytes → Checked α) : CheckedDescriptor α :=
  ⟨tag, fun data => do
    require (data.length = size) .lengthMismatch
    check (g data)⟩

/-- A format of at least `size` octets. -/
def headed (tag : UInt8) (size : Nat) (g : Bytes → Checked α) : CheckedDescriptor α :=
  ⟨tag, fun data => do
    require (size ≤ data.length) .truncatedData
    check (g data)⟩

theorem map_ofFormat (g : α → β) (f : DescriptorFormat α) :
    (ofFormat f).map g = ofFormat (f.map g) := by
  have hread : ∀ data, g <$> ofResult (f.read data) = ofResult ((f.map g).read data) := by
    intro data
    have hmap : (f.map g).read data = (f.read data).map g := by
      change ((f.cursor >>= fun a => pure (g a)) data).1 = (f.cursor data).1.map g
      cases hstep : f.cursor data with
      | mk outcome tail =>
        cases outcome with
        | ok a => rw [Cursor.bind_ok hstep]; rfl
        | error e => rw [Cursor.bind_error hstep]; rfl
    rw [hmap, ofResult_map]
  rw [map, ofFormat, ofFormat]
  simp only [hread]
  rfl

theorem reading_eq (tag : UInt8) (p : Cursor α) :
    reading tag (CheckedCursor.ofCursor p) = ofFormat ⟨tag, p⟩ := by
  rw [reading, ofFormat]
  exact congrArg _ (funext fun data => CheckedCursor.run_ofCursor p data)

theorem listing_eq {tag : UInt8} {size : Nat} {g : Bytes → Checked α} {make : List α → β}
    {p : Cursor α} (hsize : 0 < size)
    (hentry : ∀ part : Bytes, part.length = size → ∃ a, g part = .ok a ∧ p.Reads part a) :
    listing tag size g make = ofFormat ⟨tag, do return make (← Cursor.entries size p)⟩ := by
  rw [listing, ← reading_eq, CheckedCursor.entries_eq hsize hentry, CheckedCursor.ofCursor_bind]
  rfl

theorem sized_eq {tag : UInt8} {size : Nat} {g : Bytes → Checked α} {p : Cursor α}
    (hfull : ∀ data : Bytes, data.length = size → ∃ a, g data = .ok a ∧ p.run data = .ok a) :
    sized tag size g = ofFormat ⟨tag, Cursor.sized size p⟩ := by
  rw [sized, ofFormat]
  congr 1
  funext data
  by_cases h : data.length = size
  · obtain ⟨a, ha, hrun⟩ := hfull data h
    have hread : DescriptorFormat.read ⟨tag, Cursor.sized size p⟩ data = .ok a := by
      change (Cursor.sized size p data).1 = _
      rw [Cursor.sized, if_pos h]
      exact hrun
    rw [require_true h, ha, hread]
    rfl
  · have hread : DescriptorFormat.read ⟨tag, Cursor.sized size p⟩ data = .error .lengthMismatch := by
      change (Cursor.sized size p data).1 = _
      rw [Cursor.sized, if_neg h]
    rw [require_false h, hread]
    rfl

theorem headed_eq {tag : UInt8} {size : Nat} {g : Bytes → Checked α} {p : Cursor α}
    (hfull : ∀ head tail : Bytes, head.length = size →
      ∃ a, g (head ++ tail) = .ok a ∧ p.run (head ++ tail) = .ok a)
    (hshort : p.Needs size) :
    headed tag size g = ofFormat ⟨tag, p⟩ := by
  rw [headed, ofFormat]
  congr 1
  funext data
  by_cases h : size ≤ data.length
  · obtain ⟨a, ha, hrun⟩ := hfull (data.take size) (data.drop size) (by
      rw [List.length_take, Nat.min_eq_left h])
    rw [List.take_append_drop] at ha hrun
    rw [require_true h, ha, DescriptorFormat.read, hrun]
    rfl
  · obtain ⟨rest, hrest⟩ := hshort data (Nat.not_le.mp h)
    have hrun : p.run data = .error .truncatedData := congrArg Prod.fst hrest
    rw [require_false h, DescriptorFormat.read, hrun]
    rfl

/-! ## Systems -/

def conditionalAccess : CheckedDescriptor ConditionalAccess := headed 0x09 4 fun data => do
  let systemId ← u16 (← slice data 0 2)
  let pid ← pid (← slice data 2 4)
  return ⟨systemId, pid, ← suffix data 4⟩

theorem conditionalAccess_eq : conditionalAccess = ofFormat ConditionalAccess.format := by
  apply headed_eq
  · intro head tail h
    match head, h with
    | [a, b, c, d], _ => exact ⟨_, rfl, rfl⟩
  · exact Cursor.takes_u16.needs_bind fun _ => Pid.takes_read.needs_bind fun _ =>
      Cursor.needs_zero _

def languages : CheckedDescriptor Languages :=
  listing 0x0A 4 (fun part => do return ⟨← language part, ← octet part 3⟩) Languages.mk

theorem languages_eq : languages = ofFormat Languages.format :=
  listing_eq (by decide) fun part h => by
    match part, h with
    | [a, b, c, d], _ => exact ⟨_, rfl, fun tail => rfl⟩

def maximumBitrate : CheckedDescriptor MaximumBitrate := sized 0x0E 3 fun data => do
  return ⟨UInt32.ofNat (bits 0 22 (← u24 data).toNat)⟩

theorem maximumBitrate_eq : maximumBitrate = ofFormat MaximumBitrate.format := by
  apply sized_eq
  intro data h
  match data, h with
  | [a, b, c], _ => exact ⟨_, rfl, rfl⟩

/-! ## Services -/

def serviceList : CheckedDescriptor ServiceList :=
  listing 0x41 3 (fun part => do return ⟨← u16 (← slice part 0 2), ⟨← octet part 2⟩⟩) ServiceList.mk

theorem serviceList_eq : serviceList = ofFormat ServiceList.format :=
  listing_eq (by decide) fun part h => by
    match part, h with
    | [a, b, c], _ => exact ⟨_, rfl, fun tail => rfl⟩

def service : CheckedDescriptor Service := reading 0x48 <| CheckedCursor.exactly do
  let serviceType ← CheckedCursor.u8
  let provider ← CheckedCursor.text
  return ⟨⟨serviceType⟩, provider, ← CheckedCursor.text⟩

theorem service_eq : service = ofFormat Service.format := by
  rw [service, Service.format, ← reading_eq]
  simp only [ServiceType.read, CheckedCursor.u8, CheckedCursor.text_eq,
    ← CheckedCursor.exactly_ofCursor, CheckedCursor.ofCursor_bind, CheckedCursor.ofCursor_pure,
    bind_assoc, pure_bind]

def linkage : CheckedDescriptor Linkage := headed 0x4A 7 fun data => do
  let transportStreamId ← u16 (← slice data 0 2)
  let originalNetworkId ← u16 (← slice data 2 4)
  let serviceId ← u16 (← slice data 4 6)
  let linkageType ← octet data 6
  return ⟨transportStreamId, originalNetworkId, serviceId, linkageType, ← suffix data 7⟩

theorem linkage_eq : linkage = ofFormat Linkage.format := by
  apply headed_eq
  · intro head tail h
    match head, h with
    | [a, b, c, d, e, f, g], _ => exact ⟨_, rfl, rfl⟩
  · exact Cursor.takes_u16.needs_bind fun _ => Cursor.takes_u16.needs_bind fun _ =>
      Cursor.takes_u16.needs_bind fun _ => Cursor.takes_u8.needs_bind fun _ => Cursor.needs_zero _

def caIdentifier : CheckedDescriptor CaIdentifier := listing 0x53 2 u16 CaIdentifier.mk

theorem caIdentifier_eq : caIdentifier = ofFormat CaIdentifier.format :=
  listing_eq (by decide) fun part h => by
    match part, h with
    | [a, b], _ => exact ⟨_, rfl, fun tail => rfl⟩

def privateDataSpecifier : CheckedDescriptor PrivateDataSpecifier := sized 0x5F 4 fun data => do
  return ⟨← u32 data⟩

theorem privateDataSpecifier_eq : privateDataSpecifier = ofFormat PrivateDataSpecifier.format := by
  apply sized_eq
  intro data h
  match data, h with
  | [a, b, c, d], _ => exact ⟨_, rfl, rfl⟩

/-! ## Delivery systems -/

def satelliteDelivery : CheckedDescriptor SatelliteDelivery := sized 0x43 11 fun data => do
  let frequency ← decimal 8 (← slice data 0 4)
  let position ← decimal 4 (← slice data 4 6)
  let b ← octet data 6
  let symbolRate ← decimal 7 (← slice data 7 11)
  let last ← octet data 10
  return {
    frequency := frequency
    orbitalPosition := position % 2 ^ 16
    east := flag 7 b
    polarization := .ofCode (field 5 2 b)
    rollOff := field 3 2 b
    secondGeneration := flag 2 b
    modulationType := field 0 2 b
    symbolRate := symbolRate
    fecInner := field 0 4 last }

theorem satelliteDelivery_eq : satelliteDelivery = ofFormat SatelliteDelivery.format := by
  apply sized_eq
  intro data h
  match data, h with
  | [a, b, c, d, e, f, g, h, i, j, k], _ =>
    have hfrequency := decimal_eq (show 8 ≤ 2 * [a, b, c, d].length by simp) (by decide)
    have hrate := decimal_eq (show 7 ≤ 2 * [h, i, j, k].length by simp) (by decide)
    obtain ⟨hposition, hlt⟩ := decimal_fits (show 4 ≤ 2 * [e, f].length by simp) (by decide)
    have hword : Bcd.number 4 [e, f] % 2 ^ 16 = Bcd.number 4 [e, f] := Nat.mod_eq_of_lt (by omega)
    refine ⟨_, ?_, rfl⟩
    change (decimal 8 [a, b, c, d] >>= fun frequency => decimal 4 [e, f] >>= fun position =>
      decimal 7 [h, i, j, k] >>= fun symbolRate => _) = _
    rw [hfrequency, hposition, hrate, ok_bind, ok_bind, ok_bind, hword]
    rfl

def cableDelivery : CheckedDescriptor CableDelivery := sized 0x44 11 fun data => do
  let frequency ← decimal 8 (← slice data 0 4)
  let outer ← octet data 5
  let modulation ← octet data 6
  let symbolRate ← decimal 7 (← slice data 7 11)
  let last ← octet data 10
  return {
    frequency := frequency
    fecOuter := field 0 4 outer
    modulation := modulation
    symbolRate := symbolRate
    fecInner := field 0 4 last }

theorem cableDelivery_eq : cableDelivery = ofFormat CableDelivery.format := by
  apply sized_eq
  intro data h
  match data, h with
  | [a, b, c, d, e, f, g, h, i, j, k], _ =>
    have hfrequency := decimal_eq (show 8 ≤ 2 * [a, b, c, d].length by simp) (by decide)
    have hrate := decimal_eq (show 7 ≤ 2 * [h, i, j, k].length by simp) (by decide)
    refine ⟨_, ?_, rfl⟩
    change (decimal 8 [a, b, c, d] >>= fun frequency => decimal 7 [h, i, j, k] >>=
      fun symbolRate => _) = _
    rw [hfrequency, hrate, ok_bind, ok_bind]
    rfl

def terrestrialDelivery : CheckedDescriptor TerrestrialDelivery := sized 0x5A 11 fun data => do
  let centreFrequency ← u32 (← slice data 0 4)
  let b ← octet data 4
  let c ← octet data 5
  let d ← octet data 6
  return {
    centreFrequency := centreFrequency
    bandwidth := field 5 3 b
    priority := flag 4 b
    timeSlicing := flag 3 b
    mpeFec := flag 2 b
    constellation := field 6 2 c
    hierarchy := field 3 3 c
    codeRateHigh := field 0 3 c
    codeRateLow := field 5 3 d
    guardInterval := field 3 2 d
    transmissionMode := field 1 2 d
    otherFrequency := flag 0 d }

theorem terrestrialDelivery_eq : terrestrialDelivery = ofFormat TerrestrialDelivery.format := by
  apply sized_eq
  intro data h
  match data, h with
  | [a, b, c, d, e, f, g, h, i, j, k], _ => exact ⟨_, rfl, rfl⟩

/-- Of the four octets of a frequency, those of satellite and cable are decimal digits. -/
def frequency (codingType : UInt8) (part : Bytes) : Checked Nat :=
  if codingType = 1 ∨ codingType = 2 then decimal 8 part
  else do return (← u32 part).toNat

def frequencyList : CheckedDescriptor FrequencyList := reading 0x62 do
  let codingType := field 0 2 (← CheckedCursor.u8)
  return ⟨codingType, ← CheckedCursor.entries 4 (frequency codingType)⟩

theorem frequency_eq (codingType : UInt8) {part : Bytes} (h : part.length = 4) :
    ∃ n, frequency codingType part = .ok n ∧ (FrequencyList.frequency codingType).Reads part n := by
  refine ⟨if codingType = 1 ∨ codingType = 2 then Bcd.number 8 part else part.number, ?_, ?_⟩
  · rw [frequency]
    split
    · exact decimal_eq (by omega) (by decide)
    · have hlt : part.number < 2 ^ 32 := by
        have hpart := Bytes.number_lt part
        rwa [h] at hpart
      rw [u32, number_eq h]
      exact congrArg Except.ok (UInt32.toNat_ofNat_of_lt' hlt)
  · have hreads := (Cursor.reads_bytes part).map fun bs =>
      if codingType = 1 ∨ codingType = 2 then Bcd.number 8 bs else bs.number
    rwa [h] at hreads

theorem frequencyList_eq : frequencyList = ofFormat FrequencyList.format := by
  have hentries : ∀ codingType, CheckedCursor.entries 4 (frequency codingType) =
      .ofCursor (Cursor.entries 4 (FrequencyList.frequency codingType)) := fun codingType =>
    CheckedCursor.entries_eq (by decide) fun part h => frequency_eq codingType h
  rw [frequencyList, FrequencyList.format, ← reading_eq]
  simp only [hentries, CheckedCursor.u8, CheckedCursor.ofCursor_bind, CheckedCursor.ofCursor_pure]

/-! ## Events -/

def shortEvent : CheckedDescriptor ShortEvent := reading 0x4D <| CheckedCursor.exactly do
  let language ← CheckedCursor.language
  let name ← CheckedCursor.text
  return ⟨language, name, ← CheckedCursor.text⟩

theorem shortEvent_eq : shortEvent = ofFormat ShortEvent.format := by
  rw [shortEvent, ShortEvent.format, ← reading_eq]
  simp only [CheckedCursor.language_eq, CheckedCursor.text_eq, ← CheckedCursor.exactly_ofCursor,
    CheckedCursor.ofCursor_bind, CheckedCursor.ofCursor_pure]

def eventItem : CheckedCursor EventItem := do
  let description ← CheckedCursor.text
  return ⟨description, ← CheckedCursor.text⟩

theorem eventItem_eq : eventItem = .ofCursor EventItem.read := by
  simp only [eventItem, EventItem.read, CheckedCursor.text_eq, CheckedCursor.ofCursor_bind,
    CheckedCursor.ofCursor_pure]

def extendedEvent : CheckedDescriptor ExtendedEvent := reading 0x4E <| CheckedCursor.exactly do
  let numbers ← CheckedCursor.u8
  let language ← CheckedCursor.language
  let length ← CheckedCursor.u8
  let items ← CheckedCursor.within length.toNat (CheckedCursor.untilEnd eventItem)
  return ⟨field 4 4 numbers, field 0 4 numbers, language, items, ← CheckedCursor.text⟩

theorem extendedEvent_eq : extendedEvent = ofFormat ExtendedEvent.format := by
  rw [extendedEvent, ExtendedEvent.format, ← reading_eq]
  simp only [CheckedCursor.u8, CheckedCursor.language_eq, CheckedCursor.text_eq, eventItem_eq,
    CheckedCursor.untilEnd_ofCursor, CheckedCursor.within_ofCursor,
    ← CheckedCursor.exactly_ofCursor, CheckedCursor.ofCursor_bind, CheckedCursor.ofCursor_pure]

def content : CheckedDescriptor Content :=
  listing 0x54 2 (fun part => do
    let levels ← octet part 0
    return ⟨field 4 4 levels, field 0 4 levels, ← octet part 1⟩) Content.mk

theorem content_eq : content = ofFormat Content.format :=
  listing_eq (by decide) fun part h => by
    match part, h with
    | [a, b], _ => exact ⟨_, rfl, fun tail => rfl⟩

def parentalRating : CheckedDescriptor ParentalRating :=
  listing 0x55 4 (fun part => do return ⟨← language part, ← octet part 3⟩) ParentalRating.mk

theorem parentalRating_eq : parentalRating = ofFormat ParentalRating.format :=
  listing_eq (by decide) fun part h => by
    match part, h with
    | [a, b, c, d], _ => exact ⟨_, rfl, fun tail => rfl⟩

/-- One of the offsets of local time, in 13 octets. -/
def timeOffset (part : Bytes) : Checked TimeOffset := do
  let country ← language part
  let b ← octet part 3
  let offset ← minutes (← octet part 4) (← octet part 5)
  let timeOfChange ← dateTime [← octet part 6, ← octet part 7, ← octet part 8, ← octet part 9,
    ← octet part 10]
  let nextOffset ← minutes (← octet part 11) (← octet part 12)
  return ⟨country, field 2 6 b, flag 0 b, offset, timeOfChange, nextOffset⟩

def localTimeOffset : CheckedDescriptor LocalTimeOffset :=
  listing 0x58 13 timeOffset LocalTimeOffset.mk

theorem localTimeOffset_eq : localTimeOffset = ofFormat LocalTimeOffset.format :=
  listing_eq (by decide) fun part h => by
    match part, h with
    | [c0, c1, c2, b, oh, om, a, a', h, m, s, nh, nm], _ =>
      refine ⟨⟨⟨c0, c1, c2⟩, field 2 6 b, flag 0 b, Bcd.minutes oh om,
        ⟨Date.ofDay (UInt16.ofNat (Bytes.number [a, a'])).toNat, UInt8.ofNat (Bcd.value h),
          UInt8.ofNat (Bcd.value m), UInt8.ofNat (Bcd.value s)⟩, Bcd.minutes nh nm⟩, ?_,
        fun tail => rfl⟩
      change (minutes oh om >>= fun offset => dateTime [a, a', h, m, s] >>= fun time =>
        minutes nh nm >>= fun next => _) = _
      rw [minutes_eq, dateTime_eq, minutes_eq]
      rfl

/-! ## Components -/

def component : CheckedDescriptor Component := headed 0x50 6 fun data => do
  let content ← octet data 0
  let componentType ← octet data 1
  let componentTag ← octet data 2
  let language := ⟨← octet data 3, ← octet data 4, ← octet data 5⟩
  return ⟨field 4 4 content, field 0 4 content, componentType, componentTag, language,
    ⟨← suffix data 6⟩⟩

theorem component_eq : component = ofFormat Component.format := by
  apply headed_eq
  · intro head tail h
    match head, h with
    | [a, b, c, d, e, f], _ => exact ⟨_, rfl, rfl⟩
  · exact Cursor.takes_u8.needs_bind fun _ => Cursor.takes_u8.needs_bind fun _ =>
      Cursor.takes_u8.needs_bind fun _ => Language.takes_read.needs_bind fun _ =>
        Cursor.needs_zero _

def teletext : CheckedDescriptor Teletext :=
  listing 0x56 5 (fun part => do
    let language ← language part
    let b ← octet part 3
    return ⟨language, field 3 5 b, field 0 3 b, ← octet part 4⟩) Teletext.mk

theorem teletext_eq : teletext = ofFormat Teletext.format :=
  listing_eq (by decide) fun part h => by
    match part, h with
    | [a, b, c, d, e], _ => exact ⟨_, rfl, fun tail => rfl⟩

def subtitling : CheckedDescriptor Subtitling :=
  listing 0x59 8 (fun part => do
    let language ← language part
    let subtitlingType ← octet part 3
    let compositionPage ← u16 (← slice part 4 6)
    return ⟨language, subtitlingType, compositionPage, ← u16 (← slice part 6 8)⟩) Subtitling.mk

theorem subtitling_eq : subtitling = ofFormat Subtitling.format :=
  listing_eq (by decide) fun part h => by
    match part, h with
    | [a, b, c, d, e, f, g, h], _ => exact ⟨_, rfl, fun tail => rfl⟩

def dataBroadcastId : CheckedDescriptor DataBroadcastId := reading 0x66 do
  let id ← CheckedCursor.u16
  return ⟨id, ← CheckedCursor.rest⟩

theorem dataBroadcastId_eq : dataBroadcastId = ofFormat DataBroadcastId.format := by
  rw [dataBroadcastId, DataBroadcastId.format, ← reading_eq]
  simp only [CheckedCursor.u16_eq, CheckedCursor.rest, CheckedCursor.ofCursor_bind,
    CheckedCursor.ofCursor_pure]

/-- An octet that is there when its flag is set. -/
def optional (present : Bool) : CheckedCursor (Option UInt8) :=
  if present then do return some (← CheckedCursor.u8) else pure none

theorem optional_eq (present : Bool) : optional present = .ofCursor (Ac3.optional present) := by
  cases present with
  | false => rfl
  | true =>
    rw [optional, Ac3.optional]
    simp only [if_true, CheckedCursor.u8, CheckedCursor.ofCursor_bind, CheckedCursor.ofCursor_pure]

def ac3 : CheckedDescriptor Ac3 := reading 0x6A do
  let flags ← CheckedCursor.u8
  let componentType ← optional (flag 7 flags)
  let bsid ← optional (flag 6 flags)
  let mainId ← optional (flag 5 flags)
  let associatedService ← optional (flag 4 flags)
  return ⟨componentType, bsid, mainId, associatedService, ← CheckedCursor.rest⟩

theorem ac3_eq : ac3 = ofFormat Ac3.format := by
  rw [ac3, Ac3.format, ← reading_eq]
  simp only [optional_eq, CheckedCursor.u8, CheckedCursor.rest, CheckedCursor.ofCursor_bind,
    CheckedCursor.ofCursor_pure]

/-! ## Program guides -/

/-- The two flags at the top of a field of two octets. -/
def captionFlags : CheckedCursor (Bool × Bool) := CheckedCursor.field 2 fun bs => do
  let w ← u16 bs
  return (w.toNat.testBit 15, w.toNat.testBit 14)

theorem captionFlags_eq : captionFlags = .ofCursor (do
    let flags ← Cursor.u8
    let _reserved ← Cursor.u8
    return (flag 7 flags, flag 6 flags)) := by
  apply CheckedCursor.field_eq
  · intro bs h
    match bs, h with
    | [a, b], _ =>
      refine ⟨(flag 7 a, flag 6 a), ?_, fun tail => rfl⟩
      rw [u16, number_eq (show [a, b].length = 2 from rfl)]
      change Except.ok (_, _) = _
      rw [Octet.toNat_pair, Octet.testBit_pair a b 7, Octet.testBit_pair a b 6]
  · exact (Cursor.takes_u8.bind fun _ => Cursor.takes_u8.map _).needs

def caption : CheckedCursor Caption := do
  let language ← CheckedCursor.language
  let b ← CheckedCursor.u8
  let flags ← captionFlags
  return ⟨language, flag 7 b, field 0 6 b, flags.1, flags.2⟩

theorem caption_eq : caption = .ofCursor Caption.read := by
  simp only [caption, Caption.read, CheckedCursor.language_eq, CheckedCursor.u8, captionFlags_eq,
    CheckedCursor.ofCursor_bind, CheckedCursor.ofCursor_pure, bind_assoc, pure_bind]

def captionService : CheckedDescriptor CaptionService := reading 0x86 <| CheckedCursor.exactly do
  let count ← CheckedCursor.u8
  return ⟨← CheckedCursor.repeated caption (field 0 5 count).toNat⟩

theorem captionService_eq : captionService = ofFormat CaptionService.format := by
  rw [captionService, CaptionService.format, ← reading_eq]
  simp only [CheckedCursor.u8, caption_eq, CheckedCursor.repeated_ofCursor,
    ← CheckedCursor.exactly_ofCursor, CheckedCursor.ofCursor_bind, CheckedCursor.ofCursor_pure]

def ratedDimension : CheckedCursor RatedDimension := do
  let dimension ← CheckedCursor.u8
  return ⟨dimension, field 0 4 (← CheckedCursor.u8)⟩

def ratedRegion : CheckedCursor RatedRegion := do
  let region ← CheckedCursor.u8
  let count ← CheckedCursor.u8
  let dimensions ← CheckedCursor.repeated ratedDimension count.toNat
  return ⟨region, dimensions, ← CheckedCursor.strings⟩

theorem ratedDimension_eq : ratedDimension = .ofCursor RatedDimension.read := by
  simp only [ratedDimension, RatedDimension.read, CheckedCursor.u8, CheckedCursor.ofCursor_bind,
    CheckedCursor.ofCursor_pure]

theorem ratedRegion_eq : ratedRegion = .ofCursor RatedRegion.read := by
  simp only [ratedRegion, RatedRegion.read, CheckedCursor.u8, ratedDimension_eq,
    CheckedCursor.strings_eq, CheckedCursor.repeated_ofCursor, CheckedCursor.ofCursor_bind,
    CheckedCursor.ofCursor_pure]

def contentAdvisory : CheckedDescriptor ContentAdvisory := reading 0x87 <| CheckedCursor.exactly do
  let count ← CheckedCursor.u8
  return ⟨← CheckedCursor.repeated ratedRegion (field 0 6 count).toNat⟩

theorem contentAdvisory_eq : contentAdvisory = ofFormat ContentAdvisory.format := by
  rw [contentAdvisory, ContentAdvisory.format, ← reading_eq]
  simp only [CheckedCursor.u8, ratedRegion_eq, CheckedCursor.repeated_ofCursor,
    ← CheckedCursor.exactly_ofCursor, CheckedCursor.ofCursor_bind, CheckedCursor.ofCursor_pure]

def extendedChannelName : CheckedDescriptor ExtendedChannelName := reading 0xA0 do
  return ⟨← CheckedCursor.decode (multipleString (← CheckedCursor.rest))⟩

theorem extendedChannelName_eq : extendedChannelName = ofFormat ExtendedChannelName.format := by
  rw [extendedChannelName, ExtendedChannelName.format, ← reading_eq]
  simp only [CheckedCursor.rest, multipleString_eq, CheckedCursor.decode_ofResult,
    CheckedCursor.ofCursor_bind, CheckedCursor.ofCursor_pure]

def locatedElement : CheckedCursor LocatedElement := do
  let streamType ← CheckedCursor.u8
  let pid ← CheckedCursor.pid
  return ⟨⟨streamType⟩, pid, ← CheckedCursor.language⟩

theorem locatedElement_eq : locatedElement = .ofCursor LocatedElement.read := by
  simp only [locatedElement, LocatedElement.read, StreamType.read, CheckedCursor.u8,
    CheckedCursor.pid_eq, CheckedCursor.language_eq, CheckedCursor.ofCursor_bind,
    CheckedCursor.ofCursor_pure, bind_assoc, pure_bind]

def serviceLocation : CheckedDescriptor ServiceLocation := reading 0xA1 <| CheckedCursor.exactly do
  let pcrPid ← CheckedCursor.pid
  let count ← CheckedCursor.u8
  return ⟨pcrPid, ← CheckedCursor.repeated locatedElement count.toNat⟩

theorem serviceLocation_eq : serviceLocation = ofFormat ServiceLocation.format := by
  rw [serviceLocation, ServiceLocation.format, ← reading_eq]
  simp only [CheckedCursor.u8, CheckedCursor.pid_eq, locatedElement_eq,
    CheckedCursor.repeated_ofCursor, ← CheckedCursor.exactly_ofCursor,
    CheckedCursor.ofCursor_bind, CheckedCursor.ofCursor_pure]

def componentName : CheckedDescriptor ComponentName := reading 0xA3 do
  return ⟨← CheckedCursor.decode (multipleString (← CheckedCursor.rest))⟩

theorem componentName_eq : componentName = ofFormat ComponentName.format := by
  rw [componentName, ComponentName.format, ← reading_eq]
  simp only [CheckedCursor.rest, multipleString_eq, CheckedCursor.decode_ofResult,
    CheckedCursor.ofCursor_bind, CheckedCursor.ofCursor_pure]

end CheckedDescriptor

/-! ## By standard -/

namespace Standard

open CheckedDescriptor

def checkedMpegFormats : List (CheckedDescriptor Descriptor) :=
  [(ofFormat VideoStream.format).map .videoStream,
   (ofFormat AudioStream.format).map .audioStream,
   (ofFormat Registration.format).map .registration,
   (ofFormat DataStreamAlignment.format).map .dataStreamAlignment,
   conditionalAccess.map .conditionalAccess,
   languages.map .languages,
   maximumBitrate.map .maximumBitrate]

def checkedDvbFormats : List (CheckedDescriptor Descriptor) :=
  [(ofFormat NetworkName.format).map .networkName,
   serviceList.map .serviceList,
   satelliteDelivery.map .satelliteDelivery,
   cableDelivery.map .cableDelivery,
   (ofFormat BouquetName.format).map .bouquetName,
   service.map .service,
   linkage.map .linkage,
   shortEvent.map .shortEvent,
   extendedEvent.map .extendedEvent,
   component.map .component,
   (ofFormat StreamIdentifier.format).map .streamIdentifier,
   caIdentifier.map .caIdentifier,
   content.map .content,
   parentalRating.map .parentalRating,
   teletext.map .teletext,
   localTimeOffset.map .localTimeOffset,
   subtitling.map .subtitling,
   terrestrialDelivery.map .terrestrialDelivery,
   privateDataSpecifier.map .privateDataSpecifier,
   frequencyList.map .frequencyList,
   dataBroadcastId.map .dataBroadcastId,
   ac3.map .ac3]

def checkedAtscFormats : List (CheckedDescriptor Descriptor) :=
  [(ofFormat Ac3Audio.format).map .ac3Audio,
   captionService.map .captionService,
   contentAdvisory.map .contentAdvisory,
   extendedChannelName.map .extendedChannelName,
   serviceLocation.map .serviceLocation,
   componentName.map .componentName]

/-- The formats a standard knows. -/
def checkedFormats : Standard → List (CheckedDescriptor Descriptor)
  | mpeg => checkedMpegFormats
  | dvb => checkedMpegFormats ++ checkedDvbFormats
  | atsc => checkedMpegFormats ++ checkedAtscFormats

/-- What a descriptor means under a standard. -/
def readChecked (s : Standard) (tag : UInt8) (data : Bytes) : Decoding Descriptor :=
  match s.checkedFormats.find? fun f => f.tag == tag with
  | some f => f.read data
  | none => pure (.unknown tag data)

theorem checkedMpegFormats_eq : checkedMpegFormats = mpegFormats.map ofFormat := by
  simp only [checkedMpegFormats, mpegFormats, List.map_cons, List.map_nil, conditionalAccess_eq,
    languages_eq, maximumBitrate_eq, map_ofFormat]

theorem checkedDvbFormats_eq : checkedDvbFormats = dvbFormats.map ofFormat := by
  simp only [checkedDvbFormats, dvbFormats, List.map_cons, List.map_nil, serviceList_eq,
    satelliteDelivery_eq, cableDelivery_eq, service_eq, linkage_eq, shortEvent_eq,
    extendedEvent_eq, component_eq, caIdentifier_eq, content_eq, parentalRating_eq, teletext_eq,
    localTimeOffset_eq, subtitling_eq, terrestrialDelivery_eq, privateDataSpecifier_eq,
    frequencyList_eq, dataBroadcastId_eq, ac3_eq, map_ofFormat]

theorem checkedAtscFormats_eq : checkedAtscFormats = atscFormats.map ofFormat := by
  simp only [checkedAtscFormats, atscFormats, List.map_cons, List.map_nil, captionService_eq,
    contentAdvisory_eq, extendedChannelName_eq, serviceLocation_eq, componentName_eq, map_ofFormat]

/-- No descriptor faults, and each means what the library says. -/
theorem readChecked_eq (s : Standard) (tag : UInt8) (data : Bytes) :
    s.readChecked tag data = .ofResult (s.read tag data) := by
  have hformats : s.checkedFormats = s.formats.map ofFormat := by
    cases s with
    | mpeg => exact checkedMpegFormats_eq
    | dvb => rw [checkedFormats, formats, List.map_append, checkedMpegFormats_eq,
        checkedDvbFormats_eq]
    | atsc => rw [checkedFormats, formats, List.map_append, checkedMpegFormats_eq,
        checkedAtscFormats_eq]
  have hfind : s.checkedFormats.find? (fun f => f.tag == tag) =
      (s.formats.find? fun f => f.tag == tag).map ofFormat := by
    rw [hformats, List.find?_map]
    rfl
  rw [readChecked, read, hfind]
  cases s.formats.find? fun f => f.tag == tag <;> rfl

end Standard

end DvbHost
