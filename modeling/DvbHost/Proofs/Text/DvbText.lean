import DvbHost.Proofs.Text.Utf8
import DvbHost.Text.DvbText

/-!
# One text in four character tables

A text comes out of a table as it went in, apart from its controls: a new line becomes a line feed
and the others disappear. This is so for UTF-8, for units of two octets and for Latin-1 with and
without a selection, and whatever the octets are, no control is left in what they are decoded to.
-/

namespace DvbHost.DvbText

set_option autoImplicit false

open Text (replacement scalar)
open Text.Utf8 (Replaced)

/-! ## Texts without controls -/

/-- The controls of the second half of Latin-1, and where they are among the two-octet units. -/
def IsControl (c : Char) : Prop :=
  (0x80 ≤ c.toNat ∧ c.toNat ≤ 0x9F) ∨ (0xE080 ≤ c.toNat ∧ c.toNat ≤ 0xE09F)

instance (c : Char) : Decidable (IsControl c) := inferInstanceAs (Decidable (_ ∨ _))

/-- A line feed for the control of a new line. -/
def newLine (c : Char) : Char := if c = '\u008A' ∨ c = '\uE08A' then '\n' else c

/-- New lines as line feeds, and no other controls. -/
def clean (s : String) : String :=
  String.ofList ((s.toList.map newLine).filter fun c => ¬ IsControl c)

theorem scalar_toNat (c : Char) : scalar c.toNat = c := by
  have hvalid : c.toNat.isValidChar := c.valid
  rw [scalar, if_pos hvalid, Char.ofNat_toNat]

/-- A character is interpreted on its own as in a text. -/
theorem interpret_toNat (c : Char) :
    interpret c.toNat = [newLine c].filter fun c => ¬ IsControl c := by
  have hline : c = '\u008A' ∨ c = '\uE08A' ↔ c.toNat = 0x8A ∨ c.toNat = 0xE08A := by
    rw [← Char.toNat_inj, ← Char.toNat_inj]
    rfl
  unfold interpret newLine
  simp only [hline]
  split
  · rfl
  · split
    · next hcontrol =>
      change IsControl c at hcontrol
      simp [hcontrol]
    · next hcontrol =>
      change ¬ IsControl c at hcontrol
      simp [hcontrol, scalar_toNat]

theorem clean_eq (s : String) :
    clean s = String.ofList (s.toList.flatMap fun c => interpret c.toNat) := by
  rw [clean]
  congr 1
  induction s.toList with
  | nil => rfl
  | cons c cs ih =>
    rw [List.map_cons, List.flatMap_cons, ← ih, interpret_toNat, ← List.filter_append]
    rfl

/-- Whatever is read, it is not read as a control. -/
theorem not_isControl_of_mem_interpret {n : Nat} {c : Char} (h : c ∈ interpret n) :
    ¬ IsControl c := by
  unfold interpret at h
  split at h
  · obtain rfl := List.mem_singleton.mp h
    decide
  · split at h
    · cases h
    · next hcontrol =>
      obtain rfl := List.mem_singleton.mp h
      unfold scalar
      split
      · next hvalid =>
        have hnumber : (Char.ofNat n).toNat = n := by
          rw [Char.ofNat, dif_pos hvalid]
          rfl
        rw [IsControl, hnumber]
        exact hcontrol
      · decide

theorem not_isControl_of_mem_decodeUcs2 {body : Bytes} {c : Char} (h : c ∈ decodeUcs2 body) :
    ¬ IsControl c := by
  fun_induction decodeUcs2 body with
  | case1 => cases h
  | case2 =>
    obtain rfl := List.mem_singleton.mp h
    decide
  | case3 _ _ _ ih =>
    obtain hfirst | hrest := List.mem_append.mp h
    · exact not_isControl_of_mem_interpret hfirst
    · exact ih hrest

theorem not_isControl_of_mem_decodeLatin1 {body : Bytes} {c : Char} (h : c ∈ decodeLatin1 body) :
    ¬ IsControl c := by
  obtain ⟨b, -, hc⟩ := List.mem_flatMap.mp h
  exact not_isControl_of_mem_interpret hc

theorem not_isControl_of_mem_decodeAscii {body : Bytes} {c : Char} (h : c ∈ decodeAscii body) :
    ¬ IsControl c := by
  obtain ⟨b, -, hc⟩ := List.mem_flatMap.mp h
  split at hc
  · exact not_isControl_of_mem_interpret hc
  · obtain rfl := List.mem_singleton.mp hc
    decide

/-- In all tables, also those that are not supported, a decoded text has no controls. -/
theorem not_isControl_of_mem_decode {t : DvbText} {c : Char} (h : c ∈ t.decode) :
    ¬ IsControl c := by
  unfold decode at h
  split at h
  · obtain ⟨d, -, hc⟩ := List.mem_flatMap.mp h
    exact not_isControl_of_mem_interpret hc
  · exact not_isControl_of_mem_decodeUcs2 h
  · exact not_isControl_of_mem_decodeLatin1 h
  · exact not_isControl_of_mem_decodeLatin1 h
  · exact not_isControl_of_mem_decodeAscii h

/-! ## Encodings -/

/-- Units of two octets, the upper one first. -/
def ucs2 (s : String) : Bytes :=
  s.toList.flatMap fun c => [UInt8.ofNat (c.toNat / 0x100), UInt8.ofNat (c.toNat % 0x100)]

def latin1 (s : String) : Bytes := s.toList.map fun c => UInt8.ofNat c.toNat

theorem toList_toUTF8 (s : String) :
    s.toUTF8.data.toList = s.toList.flatMap String.utf8EncodeChar := by
  conv_lhs => rw [← String.ofList_toList (s := s)]
  exact List.toList_data_toByteArray

theorem decodeUcs2_ucs2 {s : String} (h : ∀ c ∈ s.toList, c.toNat < 0x10000) :
    decodeUcs2 (ucs2 s) = s.toList.flatMap fun c => interpret c.toNat := by
  unfold ucs2
  generalize s.toList = cs at h
  induction cs with
  | nil => rfl
  | cons c cs ih =>
    obtain ⟨hc, hcs⟩ := List.forall_mem_cons.mp h
    have hupper : (UInt8.ofNat (c.toNat / 0x100)).toNat = c.toNat / 0x100 :=
      UInt8.toNat_ofNat_of_lt' (Nat.div_lt_of_lt_mul hc)
    have hlower : (UInt8.ofNat (c.toNat % 0x100)).toNat = c.toNat % 0x100 :=
      UInt8.toNat_ofNat_of_lt' (Nat.mod_lt _ (by decide))
    rw [List.flatMap_cons, List.flatMap_cons, List.cons_append, List.cons_append, List.nil_append,
      decodeUcs2, ih hcs, hupper, hlower, Nat.div_add_mod']

theorem toNat_ofNat_latin1 {c : Char} (h : c.toNat ≤ 0xFF) :
    (UInt8.ofNat c.toNat).toNat = c.toNat :=
  UInt8.toNat_ofNat_of_lt' (Nat.lt_succ_of_le h)

theorem decodeLatin1_latin1 {s : String} (h : ∀ c ∈ s.toList, c.toNat ≤ 0xFF) :
    decodeLatin1 (latin1 s) = s.toList.flatMap fun c => interpret c.toNat := by
  rw [decodeLatin1, latin1, List.flatMap_map, List.flatMap_def, List.flatMap_def]
  refine congrArg List.flatten (List.map_congr_left fun c hc => ?_)
  rw [toNat_ofNat_latin1 (h c hc)]

/-! ## Agreement -/

theorem text_utf8 {body : Bytes} {s : String} (h : Replaced body s.toList) :
    text ⟨0x15 :: body⟩ = clean s := by
  rw [clean_eq, ← Text.Utf8.decode_eq_iff.mpr h]
  rfl

theorem text_ucs2 {s : String} (h : ∀ c ∈ s.toList, c.toNat < 0x10000) :
    text ⟨0x11 :: ucs2 s⟩ = clean s := by
  rw [clean_eq, ← decodeUcs2_ucs2 h]
  rfl

theorem text_latin1 {s : String} (h : ∀ c ∈ s.toList, c.toNat ≤ 0xFF) :
    text ⟨0x10 :: 0x00 :: 0x01 :: latin1 s⟩ = clean s := by
  rw [clean_eq, ← decodeLatin1_latin1 h]
  rfl

/-- Octets that do not begin with a selection are in the standard table. -/
theorem charset_eq_standard {bs : Bytes} (h : ∀ b ∈ bs.head?, 0x20 ≤ b.toNat) :
    charset ⟨bs⟩ = (.standard, bs) := by
  cases bs with
  | nil => rfl
  | cons b bs => exact if_pos (h b rfl)

theorem text_standard {s : String} (h : ∀ c ∈ s.toList, c.toNat ≤ 0xFF)
    (hfirst : ∀ c ∈ s.toList.head?, 0x20 ≤ c.toNat) : text ⟨latin1 s⟩ = clean s := by
  have hcharset : charset ⟨latin1 s⟩ = (.standard, latin1 s) := by
    refine charset_eq_standard fun b hb => ?_
    rw [latin1, List.head?_map] at hb
    obtain ⟨c, hc, rfl⟩ := Option.mem_map.mp hb
    rw [toNat_ofNat_latin1 (h c (List.mem_of_mem_head? hc))]
    exact hfirst c hc
  rw [clean_eq, ← decodeLatin1_latin1 h, text, decode, hcharset]

/-- A text in UTF-8, in units of two octets or in Latin-1 is decoded to the same clean text; where
UTF-8 is broken, to the clean form of the one text that the octets stand for. No octets at all are
decoded to a text with controls. -/
theorem charsets_agree :
    (∀ s : String, text ⟨0x15 :: s.toUTF8.data.toList⟩ = clean s) ∧
    (∀ s : String, (∀ c ∈ s.toList, c.toNat < 0x10000) → text ⟨0x11 :: ucs2 s⟩ = clean s) ∧
    (∀ s : String, (∀ c ∈ s.toList, c.toNat ≤ 0xFF) →
      text ⟨0x10 :: 0x00 :: 0x01 :: latin1 s⟩ = clean s ∧
      ((∀ c ∈ s.toList.head?, 0x20 ≤ c.toNat) → text ⟨latin1 s⟩ = clean s)) ∧
    (∀ t : DvbText, ∀ c ∈ t.text.toList, ¬ IsControl c) ∧
    ∀ body : Bytes, ∃ s : String, (∀ cs, Replaced body cs ↔ cs = s.toList) ∧
      text ⟨0x15 :: body⟩ = clean s := by
  refine ⟨fun s => text_utf8 ?_, fun s h => text_ucs2 h,
    fun s h => ⟨text_latin1 h, text_standard h⟩, fun t c hc => ?_, fun body => ?_⟩
  · rw [toList_toUTF8, ← Text.Utf8.decode_eq_iff]
    exact Text.Utf8.decode_utf8 s.toList
  · rw [text, String.toList_ofList] at hc
    exact not_isControl_of_mem_decode hc
  · refine ⟨String.ofList (Text.Utf8.decode body), fun cs => ?_, text_utf8 ?_⟩
    · rw [String.toList_ofList, ← Text.Utf8.decode_eq_iff]
      exact eq_comm
    · rw [String.toList_ofList]
      exact Text.Utf8.decode_eq_iff.mp rfl

/-- A character for emphasis and a new line, in each of the tables. -/
theorem charsets_agree_twoLines :
    text ⟨[0x15, 0x41, 0xC3, 0xA9, 0xC2, 0x86, 0xC2, 0x8A, 0x42]⟩ =
      String.ofList ['A', 'é', '\n', 'B'] ∧
    text ⟨[0x11, 0x00, 0x41, 0x00, 0xE9, 0x00, 0x86, 0x00, 0x8A, 0x00, 0x42]⟩ =
      String.ofList ['A', 'é', '\n', 'B'] ∧
    text ⟨[0x10, 0x00, 0x01, 0x41, 0xE9, 0x86, 0x8A, 0x42]⟩ =
      String.ofList ['A', 'é', '\n', 'B'] ∧
    text ⟨[0x41, 0xE9, 0x86, 0x8A, 0x42]⟩ = String.ofList ['A', 'é', '\n', 'B'] := by
  obtain ⟨s, hs⟩ : ∃ s : String, s.toList = ['A', 'é', '\u0086', '\u008A', 'B'] :=
    ⟨_, String.toList_ofList⟩
  have hclean : clean s = String.ofList ['A', 'é', '\n', 'B'] := by
    rw [clean, hs]
    rfl
  obtain ⟨hutf8, hucs2, hlatin1, -⟩ := charsets_agree
  have hselected := hlatin1 s (by simp [hs])
  have hbasic := hucs2 s (by simp [hs])
  have hutf8 := hutf8 s
  rw [toList_toUTF8, hs, hclean] at hutf8
  rw [ucs2, hs, hclean] at hbasic
  rw [latin1, hs, hclean] at hselected
  exact ⟨hutf8, hbasic, hselected.1, hselected.2 (by simp)⟩

end DvbHost.DvbText
