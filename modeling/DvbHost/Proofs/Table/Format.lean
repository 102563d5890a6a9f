import DvbHost.Proofs.Section.Fitting
import DvbHost.Proofs.Section.Writing
import DvbHost.Table.Format

/-!
# Written tables are read back

From what writes a table's body and reads it, to what writes and reads the whole section.
-/

namespace DvbHost.TableFormat

set_option autoImplicit false

variable {α : Type}

/-- A table whose section length is `n` is written exactly if a section can have that length, and
then it is read back from the section, checksum included. -/
def ReadsBack (f : TableFormat α) (written : Except SiError Bytes) (n : Nat) (t : α) : Prop :=
  if n ≤ Section.maxLength then
    ∃ s, written = .ok s ∧ s.length = 3 + n ∧ f.decode s true = .ok t
  else written = .error .lengthMismatch

variable {accepts : UInt8 → Bool} {p : UInt8 → ExtendedHeader → Cursor α} {t : α}
  {body : Except SiError Bytes} {m : Nat}

/-- A finished draft is a section of its length, or too long. -/
theorem readsBack_finish {f : TableFormat α} {d : SectionDraft} (hd : d.Readable)
    (hread : ∀ crc, f.read ⟨d.tableId, d.privateIndicator, d.extended, d.body, crc⟩ = .ok t) :
    f.ReadsBack d.finish d.sectionLength t := by
  rw [ReadsBack, d.finish_eq]
  by_cases hlength : d.sectionLength ≤ Section.maxLength
  · rw [if_pos hlength, if_pos hlength]
    obtain ⟨crc, hbytes⟩ := d.ofBytes_finished hd hlength
    refine ⟨_, rfl, d.length_finished, ?_⟩
    rw [decode, hbytes]
    exact hread crc
  · rw [if_neg hlength, if_neg hlength]

/-- Where the body already fails, the section would have been too long. -/
theorem readsBack_bind {f : TableFormat α} {write : Bytes → Except SiError Bytes} {k n : Nat}
    {P : Bytes → Prop} (hbody : Fits body k P) (hk : k ≤ n)
    (hwrite : ∀ bs, P bs → f.ReadsBack (write bs) n t) : f.ReadsBack (body >>= write) n t := by
  obtain ⟨bs, rfl, hbs⟩ | ⟨rfl, hlong⟩ := hbody
  · exact hwrite bs hbs
  · rw [ReadsBack, if_neg (by omega)]
    rfl

/-- A table in a section of the extended form. -/
theorem extended_readsBack {id : UInt8} {priv : Bool} {h : ExtendedHeader}
    (hid : id ≠ 0xFF) (hversion : h.info.version.toNat ≤ 31) (haccepts : accepts id = true)
    (hbody : Fits body m fun bs => bs.length = m ∧ (p id h).run bs = .ok t) :
    (extended accepts p).ReadsBack
      (body >>= fun bs => ((SectionDraft.ofExtended id priv h).put bs).finish) (9 + m) t := by
  refine readsBack_bind hbody (Nat.le_add_left m 9) fun bs hbs => ?_
  obtain ⟨hlength, hrun⟩ := hbs
  have hd : ((SectionDraft.ofExtended id priv h).put bs).Readable := by
    refine ⟨hid, rfl, fun h' hh' => ?_⟩
    obtain rfl := Option.some.inj hh'
    omega
  have hsection : ((SectionDraft.ofExtended id priv h).put bs).sectionLength = 9 + m := by
    rw [← hlength]
    change 5 + bs.length + 4 = 9 + bs.length
    omega
  rw [← hsection]
  refine readsBack_finish hd fun crc => ?_
  rw [read]
  exact (if_pos haccepts).trans hrun

/-- A table in a section of the short form. -/
theorem plain_readsBack {id : UInt8} {priv checksum : Bool} {q : Cursor α} {bs : Bytes}
    (hid : id ≠ 0xFF) (hchecksum : checksum = (id == Section.shortWithChecksum))
    (hrun : q.run bs = .ok t) :
    (plain id q).ReadsBack ((SectionDraft.ofShort id priv checksum).put bs).finish
      (bs.length + if checksum then 4 else 0) t := by
  have hsection : ((SectionDraft.ofShort id priv checksum).put bs).sectionLength =
      bs.length + if checksum then 4 else 0 := by
    rw [SectionDraft.sectionLength]
    exact congrArg (· + _) (Nat.zero_add _)
  have hversion : ∀ h : ExtendedHeader, none = some h → h.info.version.toNat < 32 := by
    intro h hnone
    cases hnone
  rw [← hsection]
  refine readsBack_finish ⟨hid, hchecksum, hversion⟩ fun crc => ?_
  rw [read]
  exact (if_pos (beq_self_eq_true id)).trans hrun

end DvbHost.TableFormat
