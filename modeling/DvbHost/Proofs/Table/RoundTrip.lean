import DvbHost.Proofs.Table.Clock
import DvbHost.Proofs.Table.Event
import DvbHost.Proofs.Table.Network
import DvbHost.Proofs.Table.Program
import DvbHost.Proofs.Table.Service

/-!
# The round trip of the writable tables

Each of the eight tables that can be written, put together from its module.
-/

namespace DvbHost.Table

set_option autoImplicit false

/-- A table whose fields hold what their octets can tell is written exactly if its section length
can be said, and its section is read back as the table. -/
theorem writable_readsBack :
    (∀ t : Pat, t.InRange → Pat.format.ReadsBack t.write t.sectionLength t) ∧
    (∀ t : Cat, t.info.version.toNat ≤ 31 → Cat.format.ReadsBack t.write t.sectionLength t) ∧
    (∀ t : Pmt, t.info.version.toNat ≤ 31 → Pmt.format.ReadsBack t.write t.sectionLength t) ∧
    (∀ t : Nit, t.info.version.toNat ≤ 31 → Nit.format.ReadsBack t.write t.sectionLength t) ∧
    (∀ t : Sdt, t.InRange → Sdt.format.ReadsBack t.write t.sectionLength t) ∧
    (∀ t : Eit, t.InRange → Eit.format.ReadsBack t.write t.sectionLength t) ∧
    (∀ t : Tdt, t.utcTime.InRange → Tdt.format.ReadsBack t.write Tdt.sectionLength t) ∧
    (∀ t : Tot, t.utcTime.InRange → Tot.format.ReadsBack t.write t.sectionLength t) :=
  ⟨fun _ => Pat.readsBack, fun _ => Cat.readsBack, fun _ => Pmt.readsBack, fun _ => Nit.readsBack,
    fun _ => Sdt.readsBack, fun _ => Eit.readsBack, fun _ => Tdt.readsBack, fun _ => Tot.readsBack⟩

/-! ## One table of each kind -/

def someInfo : SectionInfo := ⟨31, true, 0, 0⟩

/-- One descriptor without data. -/
def shortLoop : DescriptorLoop := ⟨[⟨0x42, [], by decide⟩]⟩

/-- The end of a leap day. -/
def leapDay : DateTime := ⟨⟨124, 2, 29, 4⟩, 23, 59, 58⟩

theorem leapDay_inRange : leapDay.InRange :=
  ⟨⟨⟨by decide, by decide, by decide⟩, by decide, by decide⟩, by decide, by decide, by decide⟩

def oneProgram : Pat := ⟨1, someInfo, some ⟨0x10, by decide⟩, [⟨101, ⟨0x100, by decide⟩⟩]⟩

def oneStream : Pmt := ⟨101, someInfo, .null, .empty, [⟨⟨0x1B⟩, ⟨0x111, by decide⟩, shortLoop⟩]⟩

def oneTransport : Nit := ⟨false, 4, someInfo, shortLoop, [⟨1, 4, shortLoop⟩]⟩

/-- A service whose status is one of the two codes left. -/
def reservedService : Sdt :=
  ⟨true, 1, someInfo, 4, [⟨101, true, false, ⟨.reserved 7, true, shortLoop⟩⟩]⟩

/-- An event of the longest duration. -/
def longEvent : Eit :=
  ⟨0x6F, 101, someInfo, 1, 4, 0, 0x6F,
    [⟨7, some leapDay, 359999, ⟨.reserved 6, false, shortLoop⟩⟩]⟩

theorem writable_readsBack_instances :
    (oneProgram.InRange ∧ Pat.format.ReadsBack oneProgram.write 17 oneProgram) ∧
    Cat.format.ReadsBack (Cat.mk someInfo shortLoop).write 11 ⟨someInfo, shortLoop⟩ ∧
    Pmt.format.ReadsBack oneStream.write 20 oneStream ∧
    Nit.format.ReadsBack oneTransport.write 23 oneTransport ∧
    (reservedService.InRange ∧ Sdt.format.ReadsBack reservedService.write 19 reservedService) ∧
    (longEvent.InRange ∧ Eit.format.ReadsBack longEvent.write 29 longEvent) ∧
    leapDay.InRange ∧ Tdt.format.ReadsBack (Tdt.mk leapDay).write 5 ⟨leapDay⟩ ∧
    Tot.format.ReadsBack (Tot.mk leapDay shortLoop).write 13 ⟨leapDay, shortLoop⟩ := by
  obtain ⟨pat, cat, pmt, nit, sdt, eit, tdt, tot⟩ := writable_readsBack
  have hpat : oneProgram.InRange := by
    refine ⟨by decide, fun p hp => ?_⟩
    obtain rfl := List.mem_singleton.mp hp
    decide
  have hsdt : reservedService.InRange := by
    refine ⟨by decide, fun s hs => ?_⟩
    obtain rfl := List.mem_singleton.mp hs
    exact .inr rfl
  have heit : longEvent.InRange := by
    refine ⟨⟨by decide, by decide⟩, by decide, fun e he => ?_⟩
    obtain rfl := List.mem_singleton.mp he
    refine ⟨fun t ht => ?_, by decide, .inl rfl⟩
    obtain rfl := Option.some.inj ht
    exact leapDay_inRange
  exact ⟨⟨hpat, pat _ hpat⟩, cat _ (by decide), pmt _ (by decide), nit _ (by decide),
    ⟨hsdt, sdt _ hsdt⟩, ⟨heit, eit _ heit⟩, leapDay_inRange, tdt _ leapDay_inRange,
    tot _ leapDay_inRange⟩

end DvbHost.Table
