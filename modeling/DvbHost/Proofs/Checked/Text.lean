import DvbHost.Proofs.Checked.Field
import DvbHost.Text.DvbText
import DvbHost.Text.MultipleString

/-!
# Texts with faults

Selecting a character table adds to an octet, and UTF-16 takes its units by index. Both only where
there is room. The other steps of decoding a text look at one octet or one unit at a time.
-/

namespace DvbHost

set_option autoImplicit false

namespace Checked

/-- The selected table, and the octets after the selection. -/
def charset (t : DvbText) : Checked (Charset × Bytes) :=
  match t.bytes with
  | [] => .ok t.charset
  | b :: rest =>
    if 0x01 ≤ b.toNat ∧ b.toNat ≤ 0x0B then do
      return (.iso8859 (UInt8.ofNat (← word 8 (b.toNat + 4))), rest)
    else .ok t.charset

theorem charset_eq (t : DvbText) : charset t = .ok t.charset := by
  obtain ⟨_ | ⟨b, rest⟩⟩ := t
  · rfl
  · rw [charset]
    dsimp only
    split
    · next h =>
      have hprintable : ¬ 0x20 ≤ b.toNat := by omega
      have hpart : UInt8.ofNat (b.toNat + 4) = b + 4 := by
        apply UInt8.toNat_inj.mp
        rw [UInt8.toNat_ofNat', UInt8.toNat_add]
        rfl
      rw [word_eq (by omega), ok_bind, DvbText.charset]
      dsimp only
      rw [if_neg hprintable, if_pos h, hpart]
      rfl
    · rfl

/-- The characters of a text. -/
def decode (t : DvbText) : Checked (List Char) := do
  return match ← charset t with
    | (.utf8, body) => (Text.Utf8.decode body).flatMap fun c => DvbText.interpret c.toNat
    | (.ucs2, body) => DvbText.decodeUcs2 body
    | (.standard, body) => DvbText.decodeLatin1 body
    | (.iso8859 1, body) => DvbText.decodeLatin1 body
    | (_, body) => DvbText.decodeAscii body

theorem decode_eq (t : DvbText) : decode t = .ok t.decode := by
  rw [decode, charset_eq]
  rfl

/-- The 16-bit units of a byte string, taken two octets at a time. -/
def units (bs : Bytes) : Checked (List Nat) :=
  (Bytes.cut 2 (bs.length / 2) bs).mapM fun pair => do
    return (← octet pair 0).toNat * 256 + (← octet pair 1).toNat

theorem units_eq (bs : Bytes) : units bs = .ok (Text.Utf16.units bs) := by
  induction bs using Text.Utf16.units.induct with
  | case1 h l rest ih =>
    have hlength : (h :: l :: rest).length / 2 = rest.length / 2 + 1 := by
      rw [List.length_cons, List.length_cons]
      omega
    rw [units] at ih
    rw [units, hlength, Bytes.cut, List.mapM_cons]
    change (do
      let u ← (.ok (h.toNat * 256 + l.toNat) : Checked Nat)
      let us ← (Bytes.cut 2 (rest.length / 2) rest).mapM _
      pure (u :: us)) = _
    rw [ih]
    rfl
  | case2 bs h =>
    rcases bs with _ | ⟨a, _ | ⟨b, rest⟩⟩
    · rfl
    · rw [units, List.length_singleton]
      rfl
    · exact absurd rfl (h a b rest)

/-- The characters of a segment. -/
def decodeSegment (s : Segment) : Checked (List Char) :=
  if s.compression.toNat ≠ 0 then .ok [Text.replacement]
  else if s.mode.toNat = 0x3F then do return Text.Utf16.decode (← units s.bytes)
  else .ok s.decode

theorem decodeSegment_eq (s : Segment) : decodeSegment s = .ok s.decode := by
  rw [decodeSegment]
  split
  · next h => rw [Segment.decode, if_pos h]
  · next h =>
    split
    · next hmode => rw [units_eq, Segment.decode, if_neg h, if_pos hmode]; rfl
    · rfl

/-- The characters of a string. -/
def decodeString (s : LocalString) : Checked (List Char) := do
  return (← s.segments.mapM decodeSegment).flatten

theorem decodeString_eq (s : LocalString) : decodeString s = .ok s.decode := by
  rw [decodeString, mapM_eq fun segment _ => decodeSegment_eq segment, LocalString.decode,
    List.flatMap_def]
  rfl

end Checked

namespace CheckedCursor

variable {α : Type}

/-- A field of octets after its length in one octet. -/
def counted : CheckedCursor Bytes := do bytes (← u8).toNat

theorem counted_eq : counted = ofCursor Cursor.counted := by
  simp only [counted, Cursor.counted, u8, bytes, ofCursor_bind]

def text : CheckedCursor DvbText := do return ⟨← counted⟩

theorem text_eq : text = ofCursor DvbText.counted := by
  simp only [text, DvbText.counted, counted_eq, ofCursor_bind, ofCursor_pure]

def segment : CheckedCursor Segment := do
  let compression ← u8
  let mode ← u8
  return ⟨compression, mode, ← counted⟩

theorem segment_eq : segment = ofCursor Segment.read := by
  simp only [segment, Segment.read, u8, counted_eq, ofCursor_bind, ofCursor_pure]

def localString : CheckedCursor LocalString := do
  let language ← language
  let count ← u8
  return ⟨language, ← repeated segment count.toNat⟩

theorem localString_eq : localString = ofCursor LocalString.read := by
  simp only [localString, LocalString.read, language_eq, u8, segment_eq, repeated_ofCursor,
    ofCursor_bind, ofCursor_pure]

end CheckedCursor

namespace Decoding

open CheckedCursor

/-- The whole of a byte string as texts in several languages. -/
def multipleString (bs : Bytes) : Decoding MultipleString :=
  match bs with
  | [] => pure ⟨[]⟩
  | _ :: _ =>
    (exactly do
      let count ← u8
      return ⟨← repeated localString count.toNat⟩).run bs

theorem multipleString_eq (bs : Bytes) : multipleString bs = ofResult (MultipleString.read bs) := by
  cases bs with
  | nil => rfl
  | cons b bs =>
    rw [multipleString, MultipleString.read, ← run_ofCursor]
    simp only [MultipleString.cursor, ← exactly_ofCursor, localString_eq, repeated_ofCursor, u8,
      ofCursor_bind, ofCursor_pure]

end Decoding

namespace CheckedCursor

/-- Texts in several languages after their length in one octet. -/
def strings : CheckedCursor MultipleString := do decode (Decoding.multipleString (← counted))

theorem strings_eq : strings = ofCursor MultipleString.counted := by
  simp only [strings, MultipleString.counted, counted_eq, Decoding.multipleString_eq,
    decode_ofResult, ofCursor_bind]

end CheckedCursor

end DvbHost
