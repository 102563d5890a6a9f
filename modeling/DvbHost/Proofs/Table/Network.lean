import DvbHost.Proofs.Descriptor.Loop
import DvbHost.Proofs.Table.Format
import DvbHost.Table.Network

/-!
# The network table is read back

Two loops behind lengths, the second with descriptor loops of its own.
-/

namespace DvbHost

set_option autoImplicit false

open Cursor

namespace TransportStream

/-- The octets of a transport stream. -/
def size (t : TransportStream) : Nat := 6 + t.descriptors.toBytes.length

theorem size_pos (t : TransportStream) : 0 < t.size := by
  rw [size]
  omega

theorem fits (t : TransportStream) :
    Fits t.octets t.size fun bs => bs.length = t.size ∧ Reads read bs t := by
  refine (t.descriptors.withLength_reads (by decide)).map (by rw [size]; omega) fun bs hbs => ?_
  obtain ⟨hlength, hreads⟩ := hbs
  refine ⟨?_, ?_⟩
  · rw [List.length_append, List.length_append, Bytes.length_ofUInt16, Bytes.length_ofUInt16,
      hlength, size]
    omega
  · rw [List.append_assoc]
    exact (reads_u16 t.id).bind ((reads_u16 t.originalNetworkId).bind (hreads.map _))

/-- The octets of transport streams behind their length. -/
def allSize (ts : List TransportStream) : Nat := 2 + (ts.map size).sum

theorem allFits (ts : List TransportStream) :
    Fits (allOctets ts) (allSize ts) fun bs =>
      bs.length = allSize ts ∧ Reads readAll bs ts := by
  have hentries := Fits.mapM size read fun t (_ : t ∈ ts) => ⟨t.size_pos, t.fits⟩
  refine hentries.bind (Nat.le_add_left _ _) fun bss hbss => ?_
  obtain ⟨hlength, hreads⟩ := hbss
  dsimp only
  by_cases hfits : bss.flatten.length ≤ 0x0FFF
  · rw [if_pos hfits]
    have hupper : 0xF * 0x1000 = 0xF000 := rfl
    have hread := @reads_length12 0xF bss.flatten.length (by decide) (by omega)
    rw [hupper] at hread
    refine .pure ⟨?_, ?_⟩
    · rw [List.length_append, Bytes.length_ofNumber, hlength, allSize]
    · exact hread.bind hreads.untilEnd.within
  · rw [if_neg hfits]
    exact .inr ⟨rfl, by rw [allSize, Section.maxLength]; omega⟩

end TransportStream

namespace Nit

def sectionLength (t : Nit) : Nat :=
  9 + (2 + t.descriptors.toBytes.length + TransportStream.allSize t.transportStreams)

theorem readsBack {t : Nit} (hversion : t.info.version.toNat ≤ 31) :
    format.ReadsBack t.write t.sectionLength t := by
  have hid : tableId t.actual ≠ 0xFF := by cases t.actual <;> decide
  have haccepts : (tableId t.actual == 0x40 || tableId t.actual == 0x41) = true := by
    cases t.actual <;> decide
  have hactual : (tableId t.actual == 0x40) = t.actual := by cases t.actual <;> decide
  refine TableFormat.extended_readsBack hid hversion haccepts ?_
  refine (t.descriptors.withLength_reads (by decide)).bind (by omega) fun descriptors hd => ?_
  refine (TransportStream.allFits t.transportStreams).map (by omega) fun streams hs => ⟨?_, ?_⟩
  · rw [List.length_append, hd.1, hs.1]
  · rw [hactual]
    exact (hd.2.bindAll (hs.2.map _).all).exactly.run

end Nit

end DvbHost
