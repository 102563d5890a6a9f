import DvbHost.Proofs.Section.Prefix
import DvbHost.Table.Catalog

/-!
# Sections that are still arriving

A reassembly buffer parses what it has after every packet. `Section.ofBytes_append` and
`Section.ofBytes_take` make that safe: the answer for the octets at hand is final unless it is that
octets are missing, and a section that lacks its last octets is always said to lack octets. A table
is decoded from the section, so it is not decoded from a part of one either.
-/

namespace DvbHost

set_option autoImplicit false

variable {α : Type} {bs p : Bytes} {verifyCrc : Bool} {s : Section} {n : Nat} {e : SiError}

/-- A table that is decoded from a section fails as the section does. -/
theorem TableFormat.decode_of_error (f : TableFormat α)
    (h : Section.ofBytes bs verifyCrc = .error e) : f.decode bs verifyCrc = .error e := by
  rw [TableFormat.decode, h]
  rfl

theorem Table.decode_of_error (h : Section.ofBytes bs verifyCrc = .error e) :
    Table.decode bs verifyCrc = .error e := by
  rw [Table.decode, h]
  rfl

namespace Section

/-- Every part of a section from its beginning lacks octets. -/
theorem ofBytes_proper_prefix (h : ofBytes bs verifyCrc = .ok (s, n)) (hp : p <+: bs.take n)
    (hne : p ≠ bs.take n) : ofBytes p verifyCrc = .error .truncatedData := by
  have hshorter : p.length < (bs.take n).length :=
    Nat.lt_of_le_of_ne hp.length_le fun heq => hne (hp.eq_of_length heq)
  have hpart : p = bs.take p.length :=
    List.prefix_iff_eq_take.mp (hp.trans (List.take_prefix n bs))
  rw [hpart]
  refine ofBytes_take h ?_
  rw [List.length_take] at hshorter
  omega

/-- What is said of the octets at hand is said of them with any octets behind, unless octets are
missing; and of every proper beginning of a section it is said that octets are missing, by the
parser and by the decoders of all tables. -/
theorem arrival_monotone (f : TableFormat α) (bs x : Bytes) (verifyCrc : Bool) :
    (ofBytes bs verifyCrc ≠ .error .truncatedData →
      ofBytes (bs ++ x) verifyCrc = ofBytes bs verifyCrc) ∧
    ∀ s n, ofBytes bs verifyCrc = .ok (s, n) → ∀ p, p <+: bs.take n → p ≠ bs.take n →
      ofBytes p verifyCrc = .error .truncatedData ∧
      f.decode p verifyCrc = .error .truncatedData ∧
      Table.decode p verifyCrc = .error .truncatedData := by
  refine ⟨fun h => ofBytes_append h x, fun s n h p hp hne => ?_⟩
  have htruncated := ofBytes_proper_prefix h hp hne
  exact ⟨htruncated, f.decode_of_error htruncated, Table.decode_of_error htruncated⟩

/-- The section of a Time and Date Table, with an octet behind it and without its last octet. -/
theorem arrival_monotone_tdt :
    ofBytes [0x70, 0x70, 0x05, 0xC0, 0x79, 0x12, 0x45, 0x00, 0xFF] true =
      .ok (⟨0x70, true, none, [0xC0, 0x79, 0x12, 0x45, 0x00], none⟩, 8) ∧
    ofBytes [0x70, 0x70, 0x05, 0xC0, 0x79, 0x12, 0x45] true = .error .truncatedData ∧
    Tdt.format.decode [0x70, 0x70, 0x05, 0xC0, 0x79, 0x12, 0x45] true = .error .truncatedData := by
  have hwhole : ofBytes [0x70, 0x70, 0x05, 0xC0, 0x79, 0x12, 0x45, 0x00] true =
      .ok (⟨0x70, true, none, [0xC0, 0x79, 0x12, 0x45, 0x00], none⟩, 8) := by decide
  obtain ⟨hbehind, hbefore⟩ :=
    arrival_monotone Tdt.format [0x70, 0x70, 0x05, 0xC0, 0x79, 0x12, 0x45, 0x00] [0xFF] true
  obtain ⟨hsection, htable, -⟩ :=
    hbefore _ 8 hwhole [0x70, 0x70, 0x05, 0xC0, 0x79, 0x12, 0x45] (by decide) (by decide)
  exact ⟨(hbehind (hwhole ▸ nofun)).trans hwhole, hsection, htable⟩

end Section

end DvbHost
