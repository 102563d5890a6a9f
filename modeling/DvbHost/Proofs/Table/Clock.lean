import DvbHost.Proofs.Calendar.DateTime
import DvbHost.Proofs.Descriptor.Loop
import DvbHost.Proofs.Table.Format
import DvbHost.Table.Clock

/-!
# The clock tables are read back

Sections of the short form, the first without a checksum and the second with one.
-/

namespace DvbHost

set_option autoImplicit false

open Cursor

namespace Tdt

def sectionLength : Nat := 5

/-- A table as it comes back when its section is read. -/
def rewritten (t : Tdt) : Tdt := ⟨t.utcTime.rewritten⟩

theorem readsBack_rewritten (t : Tdt) : format.ReadsBack t.write sectionLength t.rewritten := by
  have hid : (0x70 : UInt8) ≠ 0xFF := by decide
  have hunchecked : false = ((0x70 : UInt8) == Section.shortWithChecksum) := by decide
  have hrun := (t.utcTime.reads.all.map Tdt.mk).exactly.run
  have hlength : sectionLength = t.utcTime.toBytes.length + if false then 4 else 0 := by
    rw [t.utcTime.length_toBytes]
    rfl
  rw [hlength]
  exact TableFormat.plain_readsBack hid hunchecked hrun

theorem readsBack {t : Tdt} (ht : t.utcTime.InRange) : format.ReadsBack t.write sectionLength t := by
  have h := t.readsBack_rewritten
  rwa [rewritten, ht.rewritten_eq] at h

end Tdt

namespace Tot

def sectionLength (t : Tot) : Nat := 5 + (2 + t.descriptors.toBytes.length) + 4

/-- A table as it comes back when its section is read. -/
def rewritten (t : Tot) : Tot := ⟨t.utcTime.rewritten, t.descriptors⟩

theorem readsBack_rewritten (t : Tot) :
    format.ReadsBack t.write t.sectionLength t.rewritten := by
  have hid : Section.shortWithChecksum ≠ 0xFF := by decide
  have hloop := @DescriptorLoop.withLength_reads t.descriptors 0xF (by decide)
  refine TableFormat.readsBack_bind hloop (by rw [sectionLength]; omega) fun bs hbs => ?_
  obtain ⟨hlength, hreads⟩ := hbs
  have hrun := (t.utcTime.reads.bindAll (f := fun utcTime =>
    DescriptorLoop.read >>= fun l => pure (Tot.mk utcTime l)) (hreads.map _).all).exactly.run
  have hsection : t.sectionLength = (t.utcTime.toBytes ++ bs).length + if true then 4 else 0 := by
    rw [List.length_append, t.utcTime.length_toBytes, hlength]
    rfl
  rw [hsection]
  exact TableFormat.plain_readsBack hid rfl hrun

theorem readsBack {t : Tot} (ht : t.utcTime.InRange) :
    format.ReadsBack t.write t.sectionLength t := by
  have h := t.readsBack_rewritten
  rwa [rewritten, ht.rewritten_eq] at h

end Tot

end DvbHost
