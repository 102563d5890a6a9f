import DvbHost.Proofs.Outcome
import DvbHost.Proofs.Section.Writing

/-!
# Sections and what they are made of

Writing a section and reading it are inverse to each other: what was put into a draft is read back
from the finished section, whatever follows it, and a section that was read is written again octet
by octet, if its reserved bits are as they are written. For the second half the checksum must be the
only one that is found right.
-/

namespace DvbHost

set_option autoImplicit false

namespace Section

/-! ## What a section that is read looks like -/

/-- The three forms of a section: what follows the first header, and what is read from it. -/
inductive Form (verifyCrc : Bool) (tableId b1 b2 : UInt8) : Bytes → Section → Prop
  | extended {e1 e2 v number lastNumber : UInt8} {data crc : Bytes}
      (form : Octet.flag 7 b1 = true) (hcrc : crc.length = 4)
      (verified : verifyCrc = true → Crc32.verify (tableId :: b1 :: b2 :: e1 :: e2 :: v :: number ::
        lastNumber :: (data ++ crc)) = true) :
      Form verifyCrc tableId b1 b2 (e1 :: e2 :: v :: number :: lastNumber :: (data ++ crc))
        ⟨tableId, Octet.flag 6 b1,
          some ⟨UInt16.ofNat (e1.toNat * 256 + e2.toNat),
            ⟨Octet.field 1 5 v, Octet.flag 0 v, number, lastNumber⟩⟩,
          data, some (UInt32.ofNat crc.number)⟩
  | checked {data crc : Bytes} (form : Octet.flag 7 b1 = false)
      (id : tableId = shortWithChecksum) (hcrc : crc.length = 4)
      (verified : verifyCrc = true →
        Crc32.verify (tableId :: b1 :: b2 :: (data ++ crc)) = true) :
      Form verifyCrc tableId b1 b2 (data ++ crc)
        ⟨tableId, Octet.flag 6 b1, none, data, some (UInt32.ofNat crc.number)⟩
  | plain {data : Bytes} (form : Octet.flag 7 b1 = false) (id : tableId ≠ shortWithChecksum) :
      Form verifyCrc tableId b1 b2 data ⟨tableId, Octet.flag 6 b1, none, data, none⟩

variable {bs : Bytes} {verifyCrc : Bool} {tableId b1 b2 : UInt8} {tail : Bytes} {s : Section}

/-- The number in the last four octets. -/
def lastWord (bs : Bytes) : UInt32 := UInt32.ofNat (Bytes.number (bs.drop (bs.length - 4)))

theorem checksumOf_ok {whole : Bytes} {crc : UInt32} (h : checksumOf whole verifyCrc = .ok crc) :
    7 ≤ whole.length ∧ (verifyCrc = true → Crc32.verify whole = true) ∧
      crc = lastWord whole := by
  rw [checksumOf] at h
  split at h
  · cases h
  · next hlength =>
    split at h
    · cases h
    · next hverified =>
      obtain rfl := Except.ok.inj h
      refine ⟨Nat.not_lt.mp hlength, fun hverify => ?_, rfl⟩
      rw [hverify] at hverified
      simpa using hverified

/-- The last four octets stand behind the others. -/
theorem exists_crc (h : 4 ≤ bs.length) :
    ∃ data crc : Bytes, bs = data ++ crc ∧ crc.length = 4 :=
  ⟨bs.take (bs.length - 4), bs.drop (bs.length - 4), (List.take_append_drop ..).symm,
    by rw [List.length_drop]; omega⟩

theorem take_data (data : Bytes) {crc : Bytes} (hcrc : crc.length = 4) :
    (data ++ crc).take ((data ++ crc).length - 4) = data := by
  rw [List.length_append, hcrc, Nat.add_sub_cancel, List.take_left]

theorem lastWord_append (data : Bytes) {crc : Bytes} (hcrc : crc.length = 4) :
    lastWord (data ++ crc) = UInt32.ofNat crc.number := by
  rw [lastWord, List.length_append, hcrc, Nat.add_sub_cancel, List.drop_left]

theorem ofWhole_form (h : ofWhole (tableId :: b1 :: b2 :: tail) verifyCrc = .ok s) :
    Form verifyCrc tableId b1 b2 tail s := by
  rw [ofWhole] at h
  split at h
  · next form =>
    obtain ⟨crc32, hcrc32, h⟩ := Outcome.ok_of_bind h
    obtain ⟨⟨header, body⟩, hparts, h⟩ := Outcome.ok_of_bind h
    obtain rfl := Except.ok.inj h
    obtain ⟨-, verified, rfl⟩ := checksumOf_ok hcrc32
    rcases tail with _ | ⟨e1, _ | ⟨e2, _ | ⟨v, _ | ⟨number, _ | ⟨lastNumber, tail⟩⟩⟩⟩⟩
    iterate 5
      cases hparts
    rw [extendedParts] at hparts
    split at hparts
    · cases hparts
    · next hlength =>
      obtain ⟨rfl, rfl⟩ := Prod.mk.inj (Except.ok.inj hparts)
      obtain ⟨data, crc, rfl, hcrc⟩ := exists_crc (Nat.not_lt.mp hlength)
      have hword := lastWord_append
        (tableId :: b1 :: b2 :: e1 :: e2 :: v :: number :: lastNumber :: data) hcrc
      simp only [List.cons_append] at hword
      rw [take_data data hcrc, hword]
      exact .extended form hcrc verified
  · next form =>
    have form : Octet.flag 7 b1 = false := Bool.eq_false_iff.mpr form
    split at h
    · next id =>
      obtain ⟨crc32, hcrc32, h⟩ := Outcome.ok_of_bind h
      obtain rfl := Except.ok.inj h
      obtain ⟨hlength, verified, rfl⟩ := checksumOf_ok hcrc32
      simp only [List.length_cons] at hlength
      obtain ⟨data, crc, rfl, hcrc⟩ := exists_crc (by omega : 4 ≤ tail.length)
      have hword := lastWord_append (tableId :: b1 :: b2 :: data) hcrc
      simp only [List.cons_append] at hword
      rw [take_data data hcrc, hword]
      exact .checked form id hcrc verified
    · next id =>
      obtain rfl := Except.ok.inj h
      exact .plain form id

/-- A section at the front of a byte string has one of the forms, and the length that it states. -/
theorem ofBytes_form {n : Nat} (h : ofBytes bs verifyCrc = .ok (s, n)) :
    ∃ (tableId b1 b2 : UInt8) (tail rest : Bytes), bs = tableId :: b1 :: b2 :: (tail ++ rest) ∧
      tableId ≠ 0xFF ∧ n = 3 + tail.length ∧ tail.length = statedLength b1 b2 ∧
      tail.length ≤ maxLength ∧ Form verifyCrc tableId b1 b2 tail s := by
  match bs, h with
  | tableId :: b1 :: b2 :: tail, h =>
    rw [ofBytes_cons] at h
    split at h
    · cases h
    · next hid =>
      split at h
      · cases h
      · next hmax =>
        split at h
        · cases h
        · next whole rest hsplit =>
          obtain ⟨hle, rfl, rfl⟩ := Bytes.split?_eq_some.mp hsplit
          rw [Nat.add_comm 3] at h hle
          simp only [List.length_cons] at hle
          have hlength : (tail.take (statedLength b1 b2)).length = statedLength b1 b2 := by
            rw [List.length_take]
            omega
          obtain ⟨s', hwhole, hs⟩ := Outcome.ok_of_map h
          obtain ⟨rfl, rfl⟩ := Prod.mk.inj hs
          refine ⟨tableId, b1, b2, tail.take (statedLength b1 b2), tail.drop (statedLength b1 b2),
            by rw [List.take_append_drop], hid, ?_, hlength, ?_, ofWhole_form hwhole⟩
          · rw [hlength, Nat.add_comm]
          · rw [hlength]
            exact Nat.not_lt.mp hmax

/-- Where there is a checksum, it is the number in the last four octets. -/
theorem crc32_of_form (h : Form verifyCrc tableId b1 b2 tail s) :
    s.crc32 = if s.extended.isSome || s.tableId == shortWithChecksum
      then some (lastWord (tableId :: b1 :: b2 :: tail)) else none := by
  cases h with
  | @extended e1 e2 v number lastNumber data crc form hcrc verified =>
    have hword := lastWord_append
      (tableId :: b1 :: b2 :: e1 :: e2 :: v :: number :: lastNumber :: data) hcrc
    simp only [List.cons_append] at hword
    rw [hword]
    rfl
  | @checked data crc form id hcrc verified =>
    have hword := lastWord_append (tableId :: b1 :: b2 :: data) hcrc
    simp only [List.cons_append] at hword
    rw [hword, id]
    rfl
  | plain form id => simp [id]

/-- The reserved bits of the headers are ones. -/
def reservedOnes (s : Section) (bs : Bytes) : Bool :=
  bs[1]?.any (fun b => Octet.field 4 2 b == 3) &&
    (s.extended.isNone || bs[5]?.any fun b => Octet.field 6 2 b == 3)

end Section

/-! ## Headers that are written again -/

/-- What five bits hold of the version. -/
def ExtendedHeader.narrowed (h : ExtendedHeader) : ExtendedHeader :=
  { h with info := { h.info with version := h.info.version % 32 } }

namespace SectionDraft

/-- A draft in the form that goes with its table id: a short section has a checksum exactly in the
one table where it is read. -/
def blank (tableId : UInt8) (privateIndicator : Bool) : Option ExtendedHeader → SectionDraft
  | some h => ofExtended tableId privateIndicator h
  | none => ofShort tableId privateIndicator (tableId == Section.shortWithChecksum)

/-- The number in two bits, if both are ones. -/
theorem reserved_eq {low : Nat} {b : UInt8} (reserved : Octet.field low 2 b = 3) :
    b.toNat / 2 ^ low % 4 = 3 := by
  have h := congrArg UInt8.toNat reserved
  rw [Octet.field, UInt8.toNat_ofNat', bits_eq] at h
  change _ = 3 at h
  omega

/-- The two octets behind the table id are written as they were read. -/
theorem indicators_written (d : SectionDraft) {b1 b2 : UInt8}
    (hform : Octet.flag 7 b1 = d.extended.isSome) (hprivate : Octet.flag 6 b1 = d.privateIndicator)
    (reserved : Octet.field 4 2 b1 = 3) (hlength : Section.statedLength b1 b2 = d.sectionLength) :
    Bytes.ofNumber 2 (d.indicators + d.sectionLength) = [b1, b2] := by
  have hb1 := b1.toNat_lt
  have hb2 := b2.toNat_lt
  have hreserved := reserved_eq reserved
  rw [Section.statedLength, bits_eq] at hlength
  rw [Octet.flag, testBit_eq] at hform hprivate
  have hnumber : d.indicators + d.sectionLength = b1.toNat * 256 + b2.toNat := by
    rw [indicators, flagWeight_eq, flagWeight_eq, ← hform, ← hprivate, ← hlength]
    simp only [decide_eq_true_eq]
    split <;> split <;> omega
  rw [hnumber, Bytes.ofNumber_two_octets]

/-- The second header is written as it was read. -/
theorem extendedOctets_written (e1 e2 v number lastNumber : UInt8)
    (reserved : Octet.field 6 2 v = 3) :
    extendedOctets (some ⟨UInt16.ofNat (e1.toNat * 256 + e2.toNat),
      ⟨Octet.field 1 5 v, Octet.flag 0 v, number, lastNumber⟩⟩) =
    [e1, e2, v, number, lastNumber] := by
  have he1 := e1.toNat_lt
  have he2 := e2.toNat_lt
  have hv := v.toNat_lt
  have hreserved := reserved_eq reserved
  have hextension : (UInt16.ofNat (e1.toNat * 256 + e2.toNat)).toNat =
      e1.toNat * 256 + e2.toNat := by
    rw [UInt16.toNat_ofNat']
    omega
  have hversion : UInt8.ofNat (0xC0 + bits 0 5 (Octet.field 1 5 v).toNat * 2 +
      flagWeight 0 (Octet.flag 0 v)) = v := by
    apply UInt8.toNat_inj.mp
    rw [UInt8.toNat_ofNat', Octet.field, UInt8.toNat_ofNat', Octet.flag, testBit_eq, bits_eq,
      bits_eq, flagWeight_eq]
    simp only [decide_eq_true_eq]
    split <;> omega
  rw [extendedOctets, Bytes.ofUInt16, hextension, Bytes.ofNumber_two_octets, hversion]
  rfl

theorem extendedOctets_narrowed (extended : Option ExtendedHeader) :
    extendedOctets (extended.map .narrowed) = extendedOctets extended := by
  cases extended with
  | none => rfl
  | some h =>
    have hbits : bits 0 5 (h.info.version % 32).toNat = bits 0 5 h.info.version.toNat := by
      rw [bits_eq, bits_eq, UInt8.toNat_mod]
      change h.info.version.toNat % 32 / 2 ^ 0 % 2 ^ 5 = _
      omega
    change extendedOctets (some h.narrowed) = _
    simp only [extendedOctets, ExtendedHeader.narrowed, hbits]

end SectionDraft

/-! ## There and back again -/

namespace SectionDraft

variable {tableId : UInt8} {privateIndicator : Bool} {extended : Option ExtendedHeader}
  {body : Bytes}

/-- Everything put into a blank draft. -/
def filled (tableId : UInt8) (privateIndicator : Bool) (extended : Option ExtendedHeader)
    (body : Bytes) : SectionDraft := (blank tableId privateIndicator extended).put body

theorem filled_eq : filled tableId privateIndicator extended body =
    ⟨tableId, privateIndicator, extended,
      extended.isSome || tableId == Section.shortWithChecksum, body⟩ := by
  cases extended <;> rfl

theorem finish_isOk_iff (d : SectionDraft) :
    (∃ s, d.finish = .ok s) ↔ d.sectionLength ≤ 4093 := by
  rw [finish_eq]
  split
  · next h => exact iff_of_true ⟨_, rfl⟩ h
  · next h => exact iff_of_false nofun h

/-- Only five bits of the version are written. -/
theorem finish_narrowed :
    (filled tableId privateIndicator (extended.map .narrowed) body).finish =
      (filled tableId privateIndicator extended body).finish := by
  simp only [finish, filled_eq, sectionLength, indicators, extendedOctets_narrowed,
    Option.isSome_map]

theorem filled_readable (hid : tableId ≠ 0xFF) :
    (filled tableId privateIndicator (extended.map .narrowed) body).Readable := by
  rw [filled_eq]
  refine ⟨hid, rfl, ?_⟩
  intro h hh
  obtain ⟨h', -, rfl⟩ := Option.map_eq_some_iff.mp hh
  change (h'.info.version % 32).toNat < 32
  rw [UInt8.toNat_mod]
  exact Nat.mod_lt _ (by decide)

/-- What was put into a draft is read from the finished section, whatever follows it. -/
theorem ofBytes_of_finish (hid : tableId ≠ 0xFF) {s : Bytes}
    (h : (filled tableId privateIndicator extended body).finish = .ok s) (x : Bytes) :
    Section.ofBytes (s ++ x) true = .ok (⟨tableId, privateIndicator, extended.map .narrowed, body,
      if extended.isSome || tableId == Section.shortWithChecksum then some (Section.lastWord s)
      else none⟩, s.length) := by
  rw [← finish_narrowed, finish_eq] at h
  split at h
  · next hlength =>
    obtain ⟨crc, hread⟩ := ofBytes_finished _ (filled_readable hid) hlength
    rw [← length_finished, Except.ok.inj h, filled_eq] at hread
    obtain ⟨id, b1, b2, tail, rest, hs, -, hsize, -, -, form⟩ := Section.ofBytes_form hread
    have hrest : rest = [] := by
      have hlengths := congrArg List.length hs
      simp only [List.length_cons, List.length_append] at hlengths
      exact List.length_eq_zero_iff.mp (by omega)
    rw [hrest, List.append_nil] at hs
    have hcrc := Section.crc32_of_form form
    rw [← hs] at hcrc
    simp only [Option.isSome_map] at hcrc
    rw [Section.ofBytes_append (by rw [hread]; nofun), hread, hcrc]
  · cases h

/-- A header, a second header, data and a checksum that was found right are written again. -/
theorem finish_of_read {d : SectionDraft} {b1 b2 : UInt8} {tail header crc : Bytes}
    (hheader : extendedOctets d.extended = header) (htail : tail = header ++ d.body ++ crc)
    (hform : Octet.flag 7 b1 = d.extended.isSome) (hprivate : Octet.flag 6 b1 = d.privateIndicator)
    (reserved : Octet.field 4 2 b1 = 3) (hcrc : crc.length = if d.checksum then 4 else 0)
    (hlength : tail.length = Section.statedLength b1 b2) (hmax : tail.length ≤ Section.maxLength)
    (verified : d.checksum = true → Crc32.verify (d.tableId :: b1 :: b2 :: tail) = true) :
    d.finish = .ok (d.tableId :: b1 :: b2 :: tail) := by
  subst htail
  have hsize : d.sectionLength = (header ++ d.body ++ crc).length := by
    rw [sectionLength, hheader, List.length_append, List.length_append, hcrc]
  have hoctets : d.octets = d.tableId :: b1 :: b2 :: (header ++ d.body) := by
    rw [octets, d.indicators_written hform hprivate reserved (hlength.symm.trans hsize.symm),
      hheader]
    rfl
  have htrailer : d.trailer = crc := by
    rw [trailer]
    split
    · next hchecksum =>
      rw [if_pos hchecksum] at hcrc
      have hverified := verified hchecksum
      rw [← List.cons_append, ← List.cons_append, ← List.cons_append, ← hoctets] at hverified
      exact ((Crc32.verify_append_iff hcrc).mp hverified).symm
    · next hchecksum =>
      rw [if_neg hchecksum] at hcrc
      exact (List.length_eq_zero_iff.mp hcrc).symm
  rw [finish_eq, hsize, if_pos hmax, hoctets, htrailer]
  rfl

/-- A section that was read is written again, if its reserved bits are ones. -/
theorem finish_of_ofBytes {buf : Bytes} {s : Section} {n : Nat}
    (h : Section.ofBytes buf true = .ok (s, n)) (reserved : s.reservedOnes buf = true) :
    (filled s.tableId s.privateIndicator s.extended s.data).finish = .ok (buf.take n) := by
  obtain ⟨tableId, b1, b2, tail, rest, rfl, -, rfl, hlength, hmax, form⟩ := Section.ofBytes_form h
  have htake : (tableId :: b1 :: b2 :: (tail ++ rest)).take (3 + tail.length) =
      tableId :: b1 :: b2 :: tail := by
    rw [Nat.add_comm]
    change tableId :: b1 :: b2 :: (tail ++ rest).take tail.length = _
    rw [List.take_left]
  obtain ⟨reserved, hsecond⟩ := Bool.and_eq_true_iff.mp reserved
  have hfirst : Octet.field 4 2 b1 = 3 := beq_iff_eq.mp reserved
  rw [htake, filled_eq]
  cases form with
  | @extended e1 e2 v number lastNumber data crc form hcrc verified =>
    have hheader := extendedOctets_written e1 e2 v number lastNumber (beq_iff_eq.mp hsecond)
    exact finish_of_read hheader rfl form rfl hfirst hcrc hlength hmax fun _ => verified rfl
  | checked form id hcrc verified =>
    subst id
    exact finish_of_read rfl rfl form rfl hfirst hcrc hlength hmax fun _ => verified rfl
  | plain form id =>
    have hunchecked : (tableId == Section.shortWithChecksum) = false := beq_false_of_ne id
    rw [hunchecked]
    exact finish_of_read rfl (List.append_nil tail).symm form rfl hfirst rfl hlength hmax nofun

/-- The section length in numbers: a second header has five octets, a checksum four. -/
theorem sectionLength_filled :
    (filled tableId privateIndicator extended body).sectionLength =
      (if extended.isSome then 5 else 0) + body.length +
        if extended.isSome || tableId == Section.shortWithChecksum then 4 else 0 := by
  rw [filled_eq]
  cases extended <;> rfl

/-- Sections and drafts correspond to each other. A draft in the form that goes with its table id is
finished exactly if its length can be said, and whatever follows the section, what is read from it
is what was put into the draft, the checksum in its last four octets, and its size. Any section that
is read and whose reserved bits are ones is what the draft with its fields is finished to. -/
theorem framing_bijective :
    (∀ (tableId : UInt8) (privateIndicator : Bool) (extended : Option ExtendedHeader)
      (body : Bytes), tableId ≠ 0xFF →
      ((∃ s, (filled tableId privateIndicator extended body).finish = .ok s) ↔
        (if extended.isSome then 5 else 0) + body.length +
          (if extended.isSome || tableId == Section.shortWithChecksum then 4 else 0) ≤ 4093) ∧
      ∀ s, (filled tableId privateIndicator extended body).finish = .ok s → ∀ x,
        Section.ofBytes (s ++ x) true =
          .ok (⟨tableId, privateIndicator, extended.map .narrowed, body,
            if extended.isSome || tableId == Section.shortWithChecksum
              then some (Section.lastWord s) else none⟩, s.length)) ∧
    (∀ (buf : Bytes) (s : Section) (n : Nat), Section.ofBytes buf true = .ok (s, n) →
      s.reservedOnes buf = true →
      (filled s.tableId s.privateIndicator s.extended s.data).finish = .ok (buf.take n)) := by
  constructor
  · intro tableId privateIndicator extended body hid
    constructor
    · rw [finish_isOk_iff, sectionLength_filled]
    · intro s h x
      exact ofBytes_of_finish hid h x
  · intro buf s n h reserved
    exact finish_of_ofBytes h reserved

/-- A draft with a second header, its version one that five bits do not hold. -/
def widePat : SectionDraft := filled 0 false (some ⟨7, ⟨34, true, 0, 0⟩⟩) [0, 1, 0xE1, 0]

theorem framing_bijective_widePat :
    (0 : UInt8) ≠ 0xFF ∧ widePat.finish = .ok (widePat.octets ++ widePat.trailer) ∧
    Section.ofBytes (widePat.octets ++ widePat.trailer ++ [0xFF]) true =
      .ok (⟨0, false, some ⟨7, ⟨2, true, 0, 0⟩⟩, [0, 1, 0xE1, 0],
        some (Section.lastWord (widePat.octets ++ widePat.trailer))⟩, 16) ∧
    (filled 0 false (some ⟨7, ⟨2, true, 0, 0⟩⟩) [0, 1, 0xE1, 0]).finish =
      .ok ((widePat.octets ++ widePat.trailer ++ [0xFF]).take 16) := by
  have hid : (0 : UInt8) ≠ 0xFF := by decide
  have hfinish : widePat.finish = .ok (widePat.octets ++ widePat.trailer) :=
    (finish_eq widePat).trans (if_pos (by decide))
  have hread := (framing_bijective.1 0 false (some ⟨7, ⟨34, true, 0, 0⟩⟩) [0, 1, 0xE1, 0] hid).2
    _ hfinish [0xFF]
  rw [length_finished] at hread
  exact ⟨hid, hfinish, hread, framing_bijective.2 _ _ _ hread rfl⟩

end SectionDraft

end DvbHost
