import DvbHost.Proofs.Crc32
import DvbHost.Proofs.Section.Prefix
import DvbHost.Section.Writing

/-!
# Finished sections are read back

A draft that is `Readable` and short enough is finished to a section whose header, body and
checksum `Section.ofBytes` finds again.
-/

namespace DvbHost

set_option autoImplicit false

/-! ## Headers -/

/-- The two octets behind the table id, by what is read from them. -/
theorem SectionDraft.indicators_read (d : SectionDraft) {n : Nat} (hn : n < 0x1000) :
    let b1 := UInt8.ofNat ((d.indicators + n) / 256)
    Section.statedLength b1 (UInt8.ofNat (d.indicators + n)) = n ∧
      Octet.flag 7 b1 = d.extended.isSome ∧ Octet.flag 6 b1 = d.privateIndicator := by
  dsimp only
  rw [Section.statedLength, Octet.flag, Octet.flag, bits_eq, testBit_eq, testBit_eq,
    UInt8.toNat_ofNat', UInt8.toNat_ofNat', indicators, flagWeight_eq, flagWeight_eq]
  refine ⟨?_, ?_, ?_⟩
  · cases d.extended.isSome <;> cases d.privateIndicator <;> simp <;> omega
  · cases d.extended.isSome <;> cases d.privateIndicator <;> simp <;> omega
  · cases d.extended.isSome <;> cases d.privateIndicator <;> simp <;> omega

/-- The second header holds what it was made of, if the version fits its five bits. -/
theorem Section.extendedParts_octets (h : ExtendedHeader) (hversion : h.info.version.toNat < 32)
    (body : Bytes) {crc : Bytes} (hcrc : crc.length = 4) :
    Section.extendedParts (SectionDraft.extendedOctets (some h) ++ body ++ crc) =
      .ok (h, body) := by
  obtain ⟨extension, ⟨version, current, number, lastNumber⟩⟩ := h
  have hextension := extension.toNat_lt
  dsimp only at hversion
  rw [SectionDraft.extendedOctets, Bytes.ofUInt16, Bytes.ofNumber_two]
  simp only [List.cons_append, List.nil_append, extendedParts]
  have hlength : ¬ (body ++ crc).length < 4 := by
    rw [List.length_append]
    omega
  have hbody : (body ++ crc).take ((body ++ crc).length - 4) = body := by
    rw [List.length_append, hcrc, Nat.add_sub_cancel, List.take_left]
  have hext : UInt16.ofNat ((UInt8.ofNat (extension.toNat / 256)).toNat * 256 +
      (UInt8.ofNat extension.toNat).toNat) = extension := by
    apply UInt16.toNat_inj.mp
    rw [UInt16.toNat_ofNat', UInt8.toNat_ofNat', UInt8.toNat_ofNat']
    omega
  have hfield : Octet.field 1 5
      (UInt8.ofNat (0xC0 + bits 0 5 version.toNat * 2 + flagWeight 0 current)) = version := by
    apply UInt8.toNat_inj.mp
    rw [Octet.field, UInt8.toNat_ofNat', UInt8.toNat_ofNat', bits_eq, bits_eq, flagWeight_eq]
    cases current <;> simp <;> omega
  have hflag : Octet.flag 0
      (UInt8.ofNat (0xC0 + bits 0 5 version.toNat * 2 + flagWeight 0 current)) = current := by
    rw [Octet.flag, testBit_eq, UInt8.toNat_ofNat', bits_eq, flagWeight_eq]
    cases current
    · simp
    · simp
      omega
  rw [if_neg hlength, hbody, hext, hfield, hflag]

/-- Where a checksum is found right, it is the last four octets. -/
theorem Section.checksumOf_append (octets : Bytes) (h : 3 ≤ octets.length) :
    ∃ crc, Section.checksumOf (octets ++ Bytes.ofUInt32 (Crc32.checksum octets)) true = .ok crc := by
  have hcrc := Bytes.length_ofUInt32 (Crc32.checksum octets)
  have hlength : ¬ (octets ++ Bytes.ofUInt32 (Crc32.checksum octets)).length < 3 + 4 := by
    rw [List.length_append]
    omega
  rw [checksumOf, if_neg hlength, Crc32.verify_append_checksum]
  exact ⟨_, rfl⟩

/-! ## Whole sections by their form -/

namespace Section

variable {tableId b1 b2 : UInt8} {tail : Bytes} {crc : UInt32}

theorem ofWhole_extended {h : ExtendedHeader} {data : Bytes} (hform : Octet.flag 7 b1 = true)
    (hcrc : checksumOf (tableId :: b1 :: b2 :: tail) true = .ok crc)
    (hparts : extendedParts tail = .ok (h, data)) :
    ofWhole (tableId :: b1 :: b2 :: tail) true =
      .ok ⟨tableId, Octet.flag 6 b1, some h, data, some crc⟩ := by
  rw [ofWhole, if_pos hform, hcrc, hparts]
  rfl

theorem ofWhole_checked (hform : Octet.flag 7 b1 = false) (hid : tableId = shortWithChecksum)
    (hcrc : checksumOf (tableId :: b1 :: b2 :: tail) true = .ok crc) :
    ofWhole (tableId :: b1 :: b2 :: tail) true =
      .ok ⟨tableId, Octet.flag 6 b1, none, tail.take (tail.length - 4), some crc⟩ := by
  rw [ofWhole, if_neg (by rw [hform]; decide), if_pos hid, hcrc]
  rfl

theorem ofWhole_plain (hform : Octet.flag 7 b1 = false) (hid : tableId ≠ shortWithChecksum) :
    ofWhole (tableId :: b1 :: b2 :: tail) true =
      .ok ⟨tableId, Octet.flag 6 b1, none, tail, none⟩ := by
  rw [ofWhole, if_neg (by rw [hform]; decide), if_neg hid]

end Section

/-! ## Finished drafts -/

namespace SectionDraft

/-- A draft whose form agrees with its table id, and whose version fits. -/
structure Readable (d : SectionDraft) : Prop where
  tableId : d.tableId ≠ 0xFF
  checksum : d.checksum = (d.extended.isSome || d.tableId == Section.shortWithChecksum)
  version : ∀ h, d.extended = some h → h.info.version.toNat < 32

/-- The octets before the checksum. -/
def octets (d : SectionDraft) : Bytes :=
  d.tableId :: Bytes.ofNumber 2 (d.indicators + d.sectionLength) ++ extendedOctets d.extended ++ d.body

/-- What stands behind them. -/
def trailer (d : SectionDraft) : Bytes :=
  if d.checksum then Bytes.ofUInt32 (Crc32.checksum d.octets) else []

theorem finish_eq (d : SectionDraft) :
    d.finish = if d.sectionLength ≤ Section.maxLength then .ok (d.octets ++ d.trailer)
      else .error .lengthMismatch := by
  rw [finish, trailer]
  cases d.checksum
  · simp [octets]
  · rfl

theorem length_trailer (d : SectionDraft) : d.trailer.length = if d.checksum then 4 else 0 := by
  rw [trailer]
  cases d.checksum
  · rfl
  · exact Bytes.length_ofUInt32 _

theorem length_octets (d : SectionDraft) :
    d.octets.length = 3 + (extendedOctets d.extended).length + d.body.length := by
  rw [octets, List.length_append, List.length_append, List.length_cons, Bytes.length_ofNumber]

theorem length_finished (d : SectionDraft) :
    (d.octets ++ d.trailer).length = 3 + d.sectionLength := by
  rw [List.length_append, length_octets, length_trailer, sectionLength]
  omega

/-- A finished section begins with its header. -/
theorem finished_eq (d : SectionDraft) : d.octets ++ d.trailer = d.tableId ::
    UInt8.ofNat ((d.indicators + d.sectionLength) / 256) ::
    UInt8.ofNat (d.indicators + d.sectionLength) ::
    (extendedOctets d.extended ++ d.body ++ d.trailer) := by
  rw [octets, Bytes.ofNumber_two]
  simp

/-- A whole finished section is read back. -/
theorem ofWhole_finished (d : SectionDraft) (hd : d.Readable) (hn : d.sectionLength < 0x1000) :
    ∃ crc, Section.ofWhole (d.octets ++ d.trailer) true =
      .ok ⟨d.tableId, d.privateIndicator, d.extended, d.body, crc⟩ := by
  obtain ⟨-, hextended, hprivate⟩ := d.indicators_read hn
  have hcrc : d.checksum = true →
      ∃ crc, Section.checksumOf (d.octets ++ d.trailer) true = .ok crc := by
    intro hchecksum
    rw [trailer, if_pos hchecksum]
    exact Section.checksumOf_append _ (by rw [length_octets]; omega)
  rw [finished_eq] at hcrc ⊢
  have htrailer := d.length_trailer
  have hchecksum := hd.checksum
  rw [← hprivate]
  cases hform : d.extended with
  | some h =>
    rw [hform] at hextended hchecksum
    obtain ⟨crc, hcrc⟩ := hcrc (by rw [hchecksum]; rfl)
    rw [hchecksum] at htrailer
    have hparts := Section.extendedParts_octets h (hd.version h hform) d.body htrailer
    rw [hform] at hcrc
    exact ⟨some crc, Section.ofWhole_extended hextended hcrc hparts⟩
  | none =>
    rw [hform] at hextended hchecksum
    by_cases hid : d.tableId = Section.shortWithChecksum
    · have hchecked : d.checksum = true := by
        rw [hchecksum, hid]
        rfl
      obtain ⟨crc, hcrc⟩ := hcrc hchecked
      rw [hform] at hcrc
      rw [hchecked] at htrailer
      have hdata : (d.body ++ d.trailer).take ((d.body ++ d.trailer).length - 4) = d.body := by
        rw [List.length_append, htrailer]
        exact List.take_left
      have hwhole := Section.ofWhole_checked hextended hid hcrc
      rw [extendedOctets, List.nil_append, hdata] at hwhole
      exact ⟨some crc, hwhole⟩
    · have hunchecked : d.checksum = false := by
        rw [hchecksum]
        exact beq_false_of_ne hid
      have hempty : d.trailer = [] := by
        rw [trailer, hunchecked]
        rfl
      rw [extendedOctets, hempty, List.nil_append, List.append_nil]
      exact ⟨none, Section.ofWhole_plain hextended hid⟩

/-- A readable draft whose length can be said is read back when it is finished. -/
theorem ofBytes_finished (d : SectionDraft) (hd : d.Readable)
    (hlength : d.sectionLength ≤ Section.maxLength) :
    ∃ crc, Section.ofBytes (d.octets ++ d.trailer) true =
      .ok (⟨d.tableId, d.privateIndicator, d.extended, d.body, crc⟩, 3 + d.sectionLength) := by
  have hn : d.sectionLength < 0x1000 := Nat.lt_of_le_of_lt hlength (by decide)
  obtain ⟨hstated, -, -⟩ := d.indicators_read hn
  obtain ⟨crc, hwhole⟩ := d.ofWhole_finished hd hn
  have hsplit := Bytes.split?_length (d.octets ++ d.trailer) []
  rw [List.append_nil, length_finished] at hsplit
  rw [finished_eq] at hwhole hsplit ⊢
  rw [Section.ofBytes_cons, if_neg hd.tableId, hstated, if_neg (Nat.not_lt.mpr hlength), hsplit]
  dsimp only
  rw [hwhole]
  exact ⟨crc, rfl⟩

end SectionDraft

end DvbHost
