import DvbHost.Proofs.Checked.Number
import DvbHost.Section.Basic

/-!
# Sections with faults

The framing of a section, cut out of its octets by indices that are counted from the front and from
the end. The lengths that are checked before keep all of them inside.
-/

namespace DvbHost.Decoding

set_option autoImplicit false

open Checked

variable {verifyCrc : Bool}

/-- The checksum at the end of a section whose header states `length`. -/
def trailer (psi : Bytes) (length : Nat) (verifyCrc : Bool) : Decoding UInt32 := do
  require (4 ≤ length) .lengthMismatch
  let residue ← check (checksum psi)
  require (verifyCrc = true → residue = 0) .crcMismatch
  let start ← check (minus psi.length 4)
  let last ← check (suffix psi start)
  return UInt32.ofNat (← check (number 4 last))

/-- The second header and the body of a section whose header states `length`. -/
def secondHeader (psi : Bytes) (length : Nat) : Decoding (ExtendedHeader × Bytes) := do
  require (5 + 4 ≤ length) .lengthMismatch
  let first ← check (slice psi 3 5)
  let extension ← check (number 2 first)
  let v ← check (octet psi 5)
  let number ← check (octet psi 6)
  let lastNumber ← check (octet psi 7)
  let stop ← check (minus psi.length 4)
  let data ← check (slice psi 8 stop)
  return (⟨UInt16.ofNat extension, ⟨Octet.field 1 5 v, Octet.flag 0 v, number, lastNumber⟩⟩, data)

/-- A whole section whose header states `length`. -/
def wholeSection (tableId b1 : UInt8) (psi : Bytes) (length : Nat) (verifyCrc : Bool) :
    Decoding Section :=
  if Octet.flag 7 b1 then do
    let crc ← trailer psi length verifyCrc
    let (header, data) ← secondHeader psi length
    return ⟨tableId, Octet.flag 6 b1, some header, data, some crc⟩
  else if tableId = Section.shortWithChecksum then do
    let crc ← trailer psi length verifyCrc
    let stop ← check (minus psi.length 4)
    let data ← check (slice psi 3 stop)
    return ⟨tableId, Octet.flag 6 b1, none, data, some crc⟩
  else do
    let data ← check (suffix psi 3)
    return ⟨tableId, Octet.flag 6 b1, none, data, none⟩

/-- The section at the front of a byte string, and the number of octets it takes. -/
def sectionAt (bs : Bytes) (verifyCrc : Bool) : Decoding (Section × Nat) :=
  match bs with
  | tableId :: b1 :: b2 :: _ => do
    require (tableId ≠ 0xFF) .endOfPsi
    require (Section.statedLength b1 b2 ≤ Section.maxLength) .lengthMismatch
    let size ← check (word 32 (3 + Section.statedLength b1 b2))
    require (size ≤ bs.length) .truncatedData
    let psi := bs.take size
    return (← wholeSection tableId b1 psi (Section.statedLength b1 b2) verifyCrc, psi.length)
  | _ => throw .truncatedData

theorem trailer_eq {psi : Bytes} {length : Nat} (h : psi.length = 3 + length) :
    trailer psi length verifyCrc = ofResult (Section.checksumOf psi verifyCrc) := by
  rw [trailer, Section.checksumOf]
  by_cases hlong : 4 ≤ length
  · have hnumber : number 4 (psi.drop (psi.length - 4)) =
        .ok (Bytes.number (psi.drop (psi.length - 4))) :=
      number_eq (by rw [List.length_drop]; omega)
    rw [require_true hlong, if_neg (by omega), checksum_eq, minus_eq (by omega : 4 ≤ psi.length)]
    simp only [check_ok, pure_bind, suffix_eq (Nat.sub_le psi.length 4), hnumber]
    by_cases hcrc : verifyCrc = true → Crc32.checksum psi = 0
    · have hverified : ¬ (verifyCrc && !Crc32.verify psi) = true := by
        simpa [Crc32.verify] using hcrc
      rw [require_true hcrc, if_neg hverified]
      rfl
    · have hwrong : (verifyCrc && !Crc32.verify psi) = true := by
        simpa [Crc32.verify] using hcrc
      rw [require_false hcrc, if_pos hwrong]
      rfl
  · rw [require_false hlong, if_pos (by omega)]
    rfl

/-- The octets between a header and the last four. -/
theorem slice_body (head tail : Bytes) (h : 4 ≤ tail.length) :
    slice (head ++ tail) head.length ((head ++ tail).length - 4) =
      .ok (tail.take (tail.length - 4)) := by
  have hlength : (head ++ tail).length = head.length + tail.length := List.length_append
  rw [slice_eq (by omega) (Nat.sub_le ..), List.drop_take, List.drop_left, hlength,
    show head.length + tail.length - 4 - head.length = tail.length - 4 by omega]

theorem secondHeader_eq (tableId b1 b2 : UInt8) (tail : Bytes) :
    secondHeader (tableId :: b1 :: b2 :: tail) tail.length =
      ofResult (Section.extendedParts tail) := by
  match tail with
  | e1 :: e2 :: v :: sectionNumber :: lastNumber :: tail =>
    rw [secondHeader, Section.extendedParts]
    by_cases hlong : 4 ≤ tail.length
    · have hfirst : slice (tableId :: b1 :: b2 :: e1 :: e2 :: v :: sectionNumber :: lastNumber ::
          tail) 3 5 = .ok [e1, e2] :=
        slice_eq (by decide) (by simp only [List.length_cons]; omega)
      have hbody : slice (tableId :: b1 :: b2 :: e1 :: e2 :: v :: sectionNumber :: lastNumber ::
          tail) 8 (List.length (tableId :: b1 :: b2 :: e1 :: e2 :: v :: sectionNumber ::
          lastNumber :: tail) - 4) = .ok (tail.take (tail.length - 4)) :=
        slice_body [tableId, b1, b2, e1, e2, v, sectionNumber, lastNumber] tail hlong
      rw [require_true (by simp only [List.length_cons]; omega), if_neg (by omega), hfirst,
        minus_eq (by simp only [List.length_cons]; omega)]
      simp only [check_ok, pure_bind, number_eq (show [e1, e2].length = 2 from rfl),
        Bytes.number_pair, hbody]
      rfl
    · rw [require_false (by simp only [List.length_cons]; omega), if_pos (by omega)]
      rfl
  | [] => rfl
  | [_] => rfl
  | [_, _] => rfl
  | [_, _, _] => rfl
  | [_, _, _, _] => rfl

theorem wholeSection_eq (tableId b1 b2 : UInt8) (tail : Bytes) :
    wholeSection tableId b1 (tableId :: b1 :: b2 :: tail) tail.length verifyCrc =
      ofResult (Section.ofWhole (tableId :: b1 :: b2 :: tail) verifyCrc) := by
  have htrailer : trailer (tableId :: b1 :: b2 :: tail) tail.length verifyCrc =
      ofResult (Section.checksumOf (tableId :: b1 :: b2 :: tail) verifyCrc) :=
    trailer_eq (by simp only [List.length_cons]; omega)
  rw [wholeSection, Section.ofWhole]
  by_cases hextended : Octet.flag 7 b1 = true
  · rw [if_pos hextended, if_pos hextended, htrailer, secondHeader_eq, ofResult_bind]
    simp only [ofResult_bind]
    rfl
  · rw [if_neg hextended, if_neg hextended]
    by_cases hid : tableId = Section.shortWithChecksum
    · rw [if_pos hid, if_pos hid, htrailer, ofResult_bind]
      by_cases hlong : 4 ≤ tail.length
      · have hbody : slice (tableId :: b1 :: b2 :: tail) 3
            (List.length (tableId :: b1 :: b2 :: tail) - 4) = .ok (tail.take (tail.length - 4)) :=
          slice_body [tableId, b1, b2] tail hlong
        rw [minus_eq (by simp only [List.length_cons]; omega)]
        simp only [check_ok, pure_bind, hbody]
        rfl
      · have hshort : List.length (tableId :: b1 :: b2 :: tail) < 3 + 4 := by
          simp only [List.length_cons]
          omega
        rw [Section.checksumOf, if_pos hshort]
        rfl
    · have hbody : suffix (tableId :: b1 :: b2 :: tail) 3 = .ok tail :=
        suffix_append [tableId, b1, b2] tail
      rw [if_neg hid, if_neg hid, hbody]
      rfl

/-- The framing does not fault, and frames as the library does. -/
theorem sectionAt_eq (bs : Bytes) (verifyCrc : Bool) :
    sectionAt bs verifyCrc = ofResult (Section.ofBytes bs verifyCrc) := by
  match bs with
  | tableId :: b1 :: b2 :: tail =>
    rw [sectionAt, Section.ofBytes]
    by_cases hid : tableId = 0xFF
    · rw [require_false (not_not.mpr hid), if_pos hid]
      rfl
    rw [require_true hid, if_neg hid]
    by_cases hmax : Section.maxLength < Section.statedLength b1 b2
    · rw [require_false (Nat.not_le.mpr hmax), if_pos hmax]
      rfl
    rw [require_true (Nat.not_lt.mp hmax), if_neg hmax]
    generalize hlength : Section.statedLength b1 b2 = length
    rw [Section.maxLength, hlength] at hmax
    rw [word_eq (by omega), Bytes.split?]
    by_cases hfits : 3 + length ≤ (tableId :: b1 :: b2 :: tail).length
    · have hparts : (tableId :: b1 :: b2 :: tail).take (3 + length) =
          tableId :: b1 :: b2 :: tail.take length := by
        rw [Nat.add_comm]
        rfl
      have hlong : (tail.take length).length = length := by
        simp only [List.length_cons] at hfits
        rw [List.length_take]
        omega
      have hwhole : wholeSection tableId b1 (tableId :: b1 :: b2 :: tail.take length) length
          verifyCrc = ofResult (Section.ofWhole (tableId :: b1 :: b2 :: tail.take length)
            verifyCrc) := by
        rw [← wholeSection_eq, hlong]
      rw [if_pos hfits]
      simp only [check_ok, pure_bind, require_true hfits]
      simp only [hparts, hwhole, List.length_cons, hlong]
      cases Section.ofWhole (tableId :: b1 :: b2 :: tail.take length) verifyCrc with
      | error e => rfl
      | ok s =>
        rw [Nat.add_comm 3 length]
        rfl
    · rw [if_neg hfits]
      simp only [check_ok, pure_bind, require_false hfits]
      rfl
  | [] => rfl
  | [_] => rfl
  | [_, _] => rfl

end DvbHost.Decoding
