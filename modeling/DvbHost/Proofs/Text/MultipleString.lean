import DvbHost.Proofs.Cursor.Arrival
import DvbHost.Proofs.Layout.Field

/-!
# Texts in several languages, octet by octet

The fields of a structure of texts, one after the other, are its octets. Writing them and reading
them are inverse to each other, so that every octet lies in exactly one field; only the structure
without strings has a second form, no octets at all. A structure that is cut short lacks octets.
-/

namespace DvbHost

set_option autoImplicit false

open Cursor

/-! ## Octets in fields -/

namespace Bytes

/-- Octet `i` of the fields together lies in field `k`. -/
def InField (fields : List Bytes) (i k : Nat) : Prop :=
  (fields.take k).flatten.length ≤ i ∧ i < (fields.take (k + 1)).flatten.length

theorem inField_cons_zero {field : Bytes} {fields : List Bytes} {i : Nat} :
    InField (field :: fields) i 0 ↔ i < field.length := by
  simp [InField]

theorem inField_cons_succ {field : Bytes} {fields : List Bytes} {i k : Nat} :
    InField (field :: fields) i (k + 1) ↔
      field.length ≤ i ∧ InField fields (i - field.length) k := by
  simp only [InField, List.take_succ_cons, List.flatten_cons, List.length_append]
  omega

/-- Every octet lies in exactly one field. -/
theorem existsUnique_inField {fields : List Bytes} {i : Nat} (hi : i < fields.flatten.length) :
    ∃! k, InField fields i k := by
  induction fields generalizing i with
  | nil => exact absurd hi (Nat.not_lt_zero i)
  | cons field fields ih =>
    rw [List.flatten_cons, List.length_append] at hi
    by_cases hfirst : i < field.length
    · refine ⟨0, inField_cons_zero.mpr hfirst, fun k hk => ?_⟩
      cases k with
      | zero => rfl
      | succ k => exact absurd (inField_cons_succ.mp hk).1 (Nat.not_le.mpr hfirst)
    · obtain ⟨k, hk, hunique⟩ := ih (i := i - field.length) (by omega)
      refine ⟨k + 1, inField_cons_succ.mpr ⟨Nat.not_lt.mp hfirst, hk⟩, fun l hl => ?_⟩
      cases l with
      | zero => exact absurd (inField_cons_zero.mp hl) hfirst
      | succ l => exact congrArg (· + 1) (hunique l (inField_cons_succ.mp hl).2)

end Bytes

/-! ## The written form -/

/-- The compression type, the mode, the number of octets and the octets. -/
def Segment.fields (s : Segment) : List Bytes :=
  [[s.compression], [s.mode], [UInt8.ofNat s.bytes.length], s.bytes]

/-- The language, the number of segments and the fields of the segments. -/
def LocalString.fields (s : LocalString) : List Bytes :=
  s.language.toBytes :: [UInt8.ofNat s.segments.length] :: s.segments.flatMap Segment.fields

/-- Numbers that an octet holds. -/
structure LocalString.Encodable (s : LocalString) : Prop where
  segments : s.segments.length ≤ 255
  bytes : ∀ segment ∈ s.segments, segment.bytes.length ≤ 255

instance (s : LocalString) : Decidable s.Encodable :=
  decidable_of_iff (s.segments.length ≤ 255 ∧ ∀ segment ∈ s.segments, segment.bytes.length ≤ 255)
    ⟨fun h => ⟨h.1, h.2⟩, fun h => ⟨h.segments, h.bytes⟩⟩

namespace MultipleString

/-- The number of strings and the fields of the strings. -/
def fields (m : MultipleString) : List Bytes :=
  [UInt8.ofNat m.strings.length] :: m.strings.flatMap LocalString.fields

def toBytes (m : MultipleString) : Bytes := m.fields.flatten

/-- Numbers that an octet holds. -/
structure Encodable (m : MultipleString) : Prop where
  strings : m.strings.length ≤ 255
  each : ∀ s ∈ m.strings, s.Encodable

instance (m : MultipleString) : Decidable m.Encodable :=
  decidable_of_iff (m.strings.length ≤ 255 ∧ ∀ s ∈ m.strings, s.Encodable)
    ⟨fun h => ⟨h.1, h.2⟩, fun h => ⟨h.strings, h.each⟩⟩

end MultipleString

/-! ## The layout is the written form -/

theorem flatten_flatMap {α : Type} (fields : α → List Bytes) (as : List α) :
    (as.flatMap fields).flatten = as.flatMap fun a => (fields a).flatten := by
  simp only [List.flatten_eq_flatMap, List.flatMap_assoc]

theorem Segment.written_iff (bs : Bytes) (s : Segment) :
    Written bs s ↔ s.bytes.length ≤ 255 ∧ bs = s.fields.flatten := by
  rw [Written]
  simp only [measured_octet]
  constructor
  · rintro ⟨_, rfl, n, rfl, hlength⟩
    obtain ⟨hfits, rfl⟩ := length_eq_toNat_iff.mp hlength
    exact ⟨hfits, by simp [fields]⟩
  · rintro ⟨hfits, rfl⟩
    exact ⟨_, by simp [fields], _, rfl, length_eq_toNat_iff.mpr ⟨hfits, rfl⟩⟩

theorem LocalString.written_iff (bs : Bytes) (s : LocalString) :
    Written bs s ↔ s.Encodable ∧ bs = s.fields.flatten := by
  have hfields : s.fields.flatten = s.language.toBytes ++ UInt8.ofNat s.segments.length ::
      s.segments.flatMap fun segment => segment.fields.flatten := by
    rw [fields, List.flatten_cons, List.flatten_cons, flatten_flatMap]
    rfl
  rw [Written, hfields]
  simp only [counted_iff_flatMap Segment.written_iff]
  constructor
  · rintro ⟨_, rfl, ⟨hsegments, hbytes⟩, rfl⟩
    exact ⟨⟨hsegments, hbytes⟩, rfl⟩
  · rintro ⟨h, rfl⟩
    exact ⟨_, rfl, ⟨h.segments, h.bytes⟩, rfl⟩

namespace MultipleString

variable {m : MultipleString}

theorem counted_iff (bs : Bytes) (m : MultipleString) :
    Counted 8 LocalString.Written bs m.strings ↔ m.Encodable ∧ bs = m.toBytes := by
  have hfields : m.toBytes = UInt8.ofNat m.strings.length ::
      m.strings.flatMap fun s => s.fields.flatten := by
    rw [toBytes, fields, List.flatten_cons, flatten_flatMap]
    rfl
  rw [counted_iff_flatMap LocalString.written_iff, hfields]
  exact and_congr_left' ⟨fun h => ⟨h.1, h.2⟩, fun h => ⟨h.strings, h.each⟩⟩

theorem read_eq_ok_iff_toBytes {d : Bytes} (hd : d ≠ []) :
    read d = .ok m ↔ m.Encodable ∧ d = m.toBytes := by
  rw [read_eq_ok, Written, counted_iff]
  exact or_iff_right fun h => hd h.1

/-! ## Beginnings -/

theorem steady_cursor : Steady cursor := by
  have hsegment : Steady Segment.read :=
    steady_u8.bind fun _ => steady_u8.bind fun _ => steady_counted.map _
  have hlanguage : Steady Language.read :=
    steady_u8.bind fun _ => steady_u8.bind fun _ => steady_u8.map _
  have hstring : Steady LocalString.read :=
    hlanguage.bind fun _ => steady_u8.bind fun n => (hsegment.repeated n.toNat).map _
  exact steady_u8.bind fun n => (hstring.repeated n.toNat).map _

/-- A structure that is cut short lacks octets. -/
theorem read_beginning {d p : Bytes} (hd : read d = .ok m) (hp : p <+: d) (hne : p ≠ [])
    (hproper : p ≠ d) : read p = .error .truncatedData := by
  obtain ⟨x, rfl⟩ := hp
  have hx : x ≠ [] := by
    rintro rfl
    exact hproper (List.append_nil p).symm
  have hwritten := (read_eq_ok_iff_toBytes (List.append_ne_nil_of_left_ne_nil hne x)).mp hd
  have hall : cursor (p ++ x) = (.ok m, []) :=
    (parses_cursor ..).mpr ⟨p ++ x, (List.append_nil _).symm, (counted_iff ..).mpr hwritten⟩
  cases p with
  | nil => exact absurd rfl hne
  | cons b p => exact steady_cursor.truncated_exactly hx hall

/-! ## There and back again -/

/-- A structure whose numbers fit is read back from its octets. Octets that are read, if there are
any, are those of what was read: each of them lies in exactly one field, and a beginning of them is
refused. -/
theorem octets_accounted :
    (∀ m : MultipleString, m.Encodable → read m.toBytes = .ok m) ∧
    ∀ (d : Bytes) (m : MultipleString), d ≠ [] → read d = .ok m →
      m.Encodable ∧ d = m.toBytes ∧
      (∀ i < d.length, ∃! k, Bytes.InField m.fields i k) ∧
      ∀ p, p <+: d → p ≠ [] → p ≠ d → read p = .error .truncatedData := by
  constructor
  · intro m hm
    exact (read_eq_ok_iff_toBytes (List.cons_ne_nil _ _)).mpr ⟨hm, rfl⟩
  · intro d m hd hread
    obtain ⟨hm, rfl⟩ := (read_eq_ok_iff_toBytes hd).mp hread
    exact ⟨hm, rfl, fun i hi => Bytes.existsUnique_inField hi,
      fun p hp hne hproper => read_beginning hread hp hne hproper⟩

/-- Two strings, the second in two segments: the octets, octet 17 in one field, and a beginning. -/
theorem octets_accounted_demo :
    ∃ m : MultipleString, m.Encodable ∧ m.toBytes =
        [0x02, 0x65, 0x6E, 0x67, 0x01, 0x00, 0x00, 0x04, 0x44, 0x65, 0x6D, 0x6F, 0x73, 0x70, 0x61,
          0x02, 0x00, 0x00, 0x02, 0x48, 0x6F, 0x00, 0x00, 0x01, 0x6C] ∧
      read m.toBytes = .ok m ∧ (∃! k, Bytes.InField m.fields 17 k) ∧
      read (m.toBytes.take 12) = .error .truncatedData := by
  have hm : Encodable ⟨[⟨⟨0x65, 0x6E, 0x67⟩, [⟨0, 0, [0x44, 0x65, 0x6D, 0x6F]⟩]⟩,
      ⟨⟨0x73, 0x70, 0x61⟩, [⟨0, 0, [0x48, 0x6F]⟩, ⟨0, 0, [0x6C]⟩]⟩]⟩ := by decide
  have hread := octets_accounted.1 _ hm
  obtain ⟨-, -, hfields, hbefore⟩ := octets_accounted.2 _ _ (List.cons_ne_nil _ _) hread
  exact ⟨_, hm, rfl, hread, hfields 17 (by decide),
    hbefore _ (List.take_prefix _ _) (by decide) (by decide)⟩

end MultipleString

end DvbHost
