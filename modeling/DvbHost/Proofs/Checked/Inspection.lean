import DvbHost.Proofs.Checked.Descriptor
import DvbHost.Proofs.Checked.Query

/-!
# Inspecting malformed data

A receiver that gets any octets decodes the table at their front, reads every descriptor in the loops
of the table under some standard, and calls the accessors of all values. No index and no slice leaves
its octets on the way, and one sum leaves its word: the least age of a viewer, formed for a rating
above 252. So an inspection ends without a fault exactly if it meets no such rating, and gives what
the library says.
-/

namespace DvbHost

set_option autoImplicit false

open Descriptor (Rating TimeOffset LocalTimeOffset)

/-! ## Offsets fit a word -/

namespace Descriptor

/-- The offsets of local time are numbers of 16 bits. -/
def Bounded : Descriptor → Prop
  | localTimeOffset d => ∀ t ∈ d.offsets, t.offset < 2 ^ 16
  | _ => True

theorem TimeOffset.readMinutes_yields : TimeOffset.readMinutes.Yields fun n => n < 2 ^ 16 :=
  Cursor.yields_bind fun h => Cursor.yields_bind fun m => Cursor.yields_pure (Checked.minutes_lt h m)

theorem TimeOffset.read_yields : TimeOffset.read.Yields fun t => t.offset < 2 ^ 16 :=
  Cursor.yields_bind fun _ => Cursor.yields_bind fun _ =>
    TimeOffset.readMinutes_yields.bind fun _ hoffset => Cursor.yields_bind fun _ =>
      Cursor.yields_bind fun _ => Cursor.yields_pure hoffset

theorem LocalTimeOffset.format_yields :
    LocalTimeOffset.format.cursor.Yields fun d => ∀ t ∈ d.offsets, t.offset < 2 ^ 16 :=
  (TimeOffset.read_yields.entries 13).bind fun _ hoffsets => Cursor.yields_pure hoffsets

end Descriptor

namespace Standard

open Descriptor

variable {α : Type}

/-- Formats of descriptors that are bounded whatever is read. -/
theorem map_yields {f : DescriptorFormat α} {make : α → Descriptor} (h : ∀ a, (make a).Bounded) :
    (f.map make).cursor.Yields Descriptor.Bounded :=
  Cursor.yields_bind fun a => Cursor.yields_pure (h a)

theorem mpegFormats_yield : ∀ f ∈ mpegFormats, f.cursor.Yields Descriptor.Bounded := by
  simp only [mpegFormats, List.forall_mem_cons, List.not_mem_nil, false_imp_iff, implies_true,
    and_true]
  refine ⟨?_, ?_, ?_, ?_, ?_, ?_, ?_⟩ <;> exact map_yields fun _ => trivial

theorem dvbFormats_yield : ∀ f ∈ dvbFormats, f.cursor.Yields Descriptor.Bounded := by
  have hoffsets : (LocalTimeOffset.format.map Descriptor.localTimeOffset).cursor.Yields
      Descriptor.Bounded :=
    LocalTimeOffset.format_yields.bind fun _ h => Cursor.yields_pure h
  simp only [dvbFormats, List.forall_mem_cons, List.not_mem_nil, false_imp_iff, implies_true,
    and_true]
  refine ⟨?_, ?_, ?_, ?_, ?_, ?_, ?_, ?_, ?_, ?_, ?_, ?_, ?_, ?_, ?_, hoffsets, ?_, ?_, ?_, ?_, ?_,
    ?_⟩ <;> exact map_yields fun _ => trivial

theorem atscFormats_yield : ∀ f ∈ atscFormats, f.cursor.Yields Descriptor.Bounded := by
  simp only [atscFormats, List.forall_mem_cons, List.not_mem_nil, false_imp_iff, implies_true,
    and_true]
  refine ⟨?_, ?_, ?_, ?_, ?_, ?_⟩ <;> exact map_yields fun _ => trivial

theorem formats_yield (s : Standard) : ∀ f ∈ s.formats, f.cursor.Yields Descriptor.Bounded := by
  intro f hf
  cases s with
  | mpeg => exact mpegFormats_yield f hf
  | dvb => exact (List.mem_append.mp hf).elim (mpegFormats_yield f) (dvbFormats_yield f)
  | atsc => exact (List.mem_append.mp hf).elim (mpegFormats_yield f) (atscFormats_yield f)

/-- Every descriptor that is read is bounded. -/
theorem bounded_of_read {s : Standard} {tag : UInt8} {data : Bytes} {d : Descriptor}
    (h : s.read tag data = .ok d) : d.Bounded := by
  rw [read] at h
  cases hformat : s.formats.find? fun f => f.tag == tag with
  | none =>
    rw [hformat] at h
    cases h
    trivial
  | some f =>
    rw [hformat] at h
    have hf : f.cursor.Yields Descriptor.Bounded :=
      formats_yield s f (List.mem_of_find?_eq_some hformat)
    exact hf (Prod.ext h rfl)

end Standard

/-! ## One descriptor -/

namespace Descriptor

theorem TimeOffset.queries_safe {t : TimeOffset} (h : t.offset < 2 ^ 16) :
    ∀ q ∈ t.queries, q.Safe := by
  intro q hq
  obtain rfl | hq := List.mem_cons.mp hq
  · exact h
  · exact DateTime.queries_safe t.timeOfChange q hq

/-- Whatever a descriptor is asked is safe, but the ages of ratings. -/
theorem queries_safe {d : Descriptor} (h : d.Bounded) (hrating : ∀ p, d ≠ parentalRating p) :
    ∀ q ∈ d.queries, q.Safe := by
  have htext := DvbText.queries_safe
  have hstrings := MultipleString.queries_safe
  intro q hq
  cases d with
  | parentalRating p => exact absurd rfl (hrating p)
  | maximumBitrate d =>
    rw [List.mem_singleton.mp hq]
    trivial
  | networkName d => exact htext d.name q hq
  | bouquetName d => exact htext d.name q hq
  | service d => exact (List.mem_append.mp hq).elim (htext d.provider q) (htext d.name q)
  | shortEvent d => exact (List.mem_append.mp hq).elim (htext d.name q) (htext d.text q)
  | extendedEvent d =>
    obtain hq | hq := List.mem_append.mp hq
    · obtain ⟨i, -, hq⟩ := List.mem_flatMap.mp hq
      exact (List.mem_append.mp hq).elim (htext i.description q) (htext i.item q)
    · exact htext d.text q hq
  | component d => exact htext d.text q hq
  | localTimeOffset d =>
    obtain ⟨t, ht, hq⟩ := List.mem_flatMap.mp hq
    exact TimeOffset.queries_safe (h t ht) q hq
  | contentAdvisory d =>
    obtain ⟨r, -, hq⟩ := List.mem_flatMap.mp hq
    exact hstrings r.description q hq
  | extendedChannelName d => exact hstrings d.name q hq
  | componentName d => exact hstrings d.name q hq
  | _ => exact absurd hq List.not_mem_nil

/-- Of what a descriptor can be asked only the ages of its ratings may fault. -/
theorem mapM_ask {d : Descriptor} (h : d.Bounded) :
    d.queries.mapM Query.ask =
      if d.ratings.all Rating.fits then .ok (d.queries.map Query.answer) else .error .overflow := by
  by_cases hrating : ∃ p, d = parentalRating p
  · obtain ⟨p, rfl⟩ := hrating
    have hages := Checked.mapM_ite fun r (_ : r ∈ p.ratings) => Query.ask_minimumAge r
    rw [queries, List.mapM_map, List.map_map]
    exact hages
  · have hsafe := queries_safe h fun p hp => hrating ⟨p, hp⟩
    have hnone : d.ratings = [] := by
      cases d with
      | parentalRating p => exact absurd ⟨p, rfl⟩ hrating
      | _ => rfl
    rw [Checked.mapM_eq fun q hq => Query.ask_of_safe (hsafe q hq), hnone]
    rfl

end Descriptor

namespace Standard

/-- Reads a descriptor and asks all that it allows. -/
def inspect (s : Standard) (d : RawDescriptor) :
    Checked (Except SiError (Descriptor × List Answer)) :=
  ExceptT.run do
    let value ← s.readChecked d.tag d.data
    return (value, ← Decoding.check (value.queries.mapM Query.ask))

/-- What is found out about a descriptor. -/
def finding (s : Standard) (d : RawDescriptor) : Except SiError (Descriptor × List Answer) :=
  (s.read d.tag d.data).map fun value => (value, value.queries.map Query.answer)

/-- The ratings that a descriptor states under a standard. -/
def ratings (s : Standard) (d : RawDescriptor) : List Rating :=
  match s.read d.tag d.data with
  | .ok value => value.ratings
  | .error _ => []

theorem inspect_eq (s : Standard) (d : RawDescriptor) :
    s.inspect d =
      if (s.ratings d).all Rating.fits then .ok (s.finding d) else .error .overflow := by
  unfold inspect finding ratings
  rw [readChecked_eq]
  cases hread : s.read d.tag d.data with
  | error e => rfl
  | ok value =>
    change (ExceptT.run do
      return (value, ← Decoding.check (value.queries.mapM Query.ask)) : Checked _) = _
    rw [Descriptor.mapM_ask (bounded_of_read hread)]
    dsimp only
    split <;> rfl

end Standard

/-! ## A whole section -/

/-- A table, what its values answer, and its descriptors with what theirs answer. -/
structure Inspection where
  table : Table
  size : Nat
  answers : List Answer
  descriptors : List (Except SiError (Descriptor × List Answer))

namespace Inspection

variable (bs : Bytes) (verifyCrc : Bool) (s : Standard) (leap : UInt8)

/-- Decodes the table at the front of a byte string, reads its descriptors and asks all values. -/
def inspect : Decoding Inspection := do
  let (table, size) ← Table.decodeChecked bs verifyCrc
  let answers ← Decoding.check ((table.queries leap).mapM Query.ask)
  let descriptors ← Decoding.check (table.descriptors.mapM s.inspect)
  return ⟨table, size, answers, descriptors⟩

/-- What is found out about a byte string, as the library says it. -/
def findings : Except SiError Inspection :=
  (Table.decode bs verifyCrc).map fun (table, size) =>
    ⟨table, size, (table.queries leap).map Query.answer, table.descriptors.map s.finding⟩

/-- The ratings that are met on the way. -/
def ratings : List Rating :=
  match Table.decode bs verifyCrc with
  | .ok (table, _) => table.descriptors.flatMap s.ratings
  | .error _ => []

theorem inspect_eq :
    inspect bs verifyCrc s leap =
      if (ratings bs verifyCrc s).all Rating.fits then
        Decoding.ofResult (findings bs verifyCrc s leap)
      else Decoding.fault .overflow := by
  unfold inspect findings ratings
  rw [Table.decodeChecked_eq]
  cases Table.decode bs verifyCrc with
  | error e => rfl
  | ok found =>
    obtain ⟨table, size⟩ := found
    have hanswers : (table.queries leap).mapM Query.ask =
        .ok ((table.queries leap).map Query.answer) :=
      Checked.mapM_eq fun q hq => Query.ask_of_safe (table.queries_safe leap q hq)
    have hdescriptors := Checked.mapM_ite fun d (_ : d ∈ table.descriptors) => s.inspect_eq d
    change (do
      let answers ← Decoding.check ((table.queries leap).mapM Query.ask)
      let descriptors ← Decoding.check (table.descriptors.mapM s.inspect)
      return ⟨table, size, answers, descriptors⟩ : Decoding Inspection) = _
    rw [hanswers, hdescriptors, Decoding.check_ok, pure_bind]
    dsimp only
    rw [List.all_flatMap]
    split <;> rfl

/-- An inspection has the outcome that the library states exactly if it meets no rating above 252.
If it meets one, the inspection is stopped by an overflow. -/
theorem inspect_faultless_iff :
    (inspect bs verifyCrc s leap = Decoding.ofResult (findings bs verifyCrc s leap) ↔
      ∀ r ∈ ratings bs verifyCrc s, r.rating.toNat ≤ 252) ∧
    (inspect bs verifyCrc s leap = Decoding.fault .overflow ↔
      ∃ r ∈ ratings bs verifyCrc s, 253 ≤ r.rating.toNat) := by
  have hfits : (ratings bs verifyCrc s).all Rating.fits = true ↔
      ∀ r ∈ ratings bs verifyCrc s, r.rating.toNat ≤ 252 := by
    simp only [List.all_eq_true, Rating.fits, decide_eq_true_eq]
  have hwide : (∃ r ∈ ratings bs verifyCrc s, 253 ≤ r.rating.toNat) ↔
      ¬ ∀ r ∈ ratings bs verifyCrc s, r.rating.toNat ≤ 252 := by
    simp only [not_forall, Nat.not_le, exists_prop]
    exact Iff.rfl
  rw [hwide, ← hfits, inspect_eq]
  have hdiffer := Decoding.ofResult_ne_fault (findings bs verifyCrc s leap) .overflow
  by_cases h : (ratings bs verifyCrc s).all Rating.fits = true
  · rw [if_pos h]
    constructor
    · exact iff_of_true rfl h
    · exact iff_of_false hdiffer (not_not_intro h)
  · rw [if_neg h]
    constructor
    · exact iff_of_false hdiffer.symm h
    · exact iff_of_true rfl h

/-- A conditional access table whose only descriptor states one rating. -/
def ratedCat (rating : UInt8) : Bytes :=
  [0x01, 0xB0, 0x0F, 0xFF, 0xFF, 0xC1, 0x00, 0x00, 0x55, 0x04, 0x47, 0x42, 0x52, rating,
   0x00, 0x00, 0x00, 0x00]

theorem inspect_faultless_iff_ratedCat :
    inspect (ratedCat 12) false .dvb 0 =
      Decoding.ofResult (findings (ratedCat 12) false .dvb 0) ∧
    inspect (ratedCat 255) false .dvb 0 = Decoding.fault .overflow := by
  have hlow : ratings (ratedCat 12) false .dvb = [⟨⟨0x47, 0x42, 0x52⟩, 12⟩] := rfl
  have hhigh : ratings (ratedCat 255) false .dvb = [⟨⟨0x47, 0x42, 0x52⟩, 255⟩] := rfl
  constructor
  · apply (inspect_faultless_iff (ratedCat 12) false .dvb 0).1.mpr
    rw [hlow]
    decide
  · apply (inspect_faultless_iff (ratedCat 255) false .dvb 0).2.mpr
    rw [hhigh]
    decide

/-- The inspection of this table overflows, where by the range of the ratings the answer is that no
age is stated. -/
theorem ratedCat_overflows :
    inspect (ratedCat 253) false .dvb 0 = Decoding.fault .overflow ∧
    (findings (ratedCat 253) false .dvb 0).map (fun i => i.descriptors) =
      .ok [.ok (.parentalRating ⟨[⟨⟨0x47, 0x42, 0x52⟩, 253⟩]⟩, [.age none])] := by
  constructor
  · rw [inspect_eq]
    rfl
  · rfl

end Inspection

end DvbHost
