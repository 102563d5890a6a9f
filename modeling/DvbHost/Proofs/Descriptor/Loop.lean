import DvbHost.Proofs.Section.Fitting
import DvbHost.Section.Writing

/-!
# Descriptor loops are read back

A loop reads back from its octets alone, and from behind a length of 12 bits with anything in the
four bits above it.
-/

namespace DvbHost

set_option autoImplicit false

open Cursor

theorem RawDescriptor.reads (d : RawDescriptor) : Reads read d.toBytes d := by
  obtain ⟨tag, data, fits⟩ := d
  intro tail
  have hlength : (UInt8.ofNat data.length).toNat = data.length := by
    rw [UInt8.toNat_ofNat', Nat.mod_eq_of_lt fits]
  have hle : (UInt8.ofNat data.length).toNat ≤ (data ++ tail).length := by
    rw [hlength, List.length_append]
    omega
  have htake : (data ++ tail).take (UInt8.ofNat data.length).toNat = data := by
    rw [hlength, List.take_left]
  have hdrop : (data ++ tail).drop (UInt8.ofNat data.length).toNat = tail := by
    rw [hlength, List.drop_left]
  rw [toBytes, List.cons_append, List.cons_append, read, if_pos hle]
  simp only [htake, hdrop]

theorem RawDescriptor.length_pos (d : RawDescriptor) : 0 < d.toBytes.length := Nat.zero_lt_succ _

namespace DescriptorLoop

variable {l : DescriptorLoop}

theorem entries (l : DescriptorLoop) :
    Entries RawDescriptor.read (l.items.map RawDescriptor.toBytes) l.items := by
  rw [Entries, List.forall₂_map_left_iff]
  exact List.forall₂_same.mpr fun d _ => ⟨d.length_pos, d.reads⟩

/-- A loop is read back from its octets. -/
theorem ofBytes_toBytes (l : DescriptorLoop) : ofBytes l.toBytes = .ok l := by
  have hrun := l.entries.untilEnd.run
  rw [← List.flatMap_def] at hrun
  rw [ofBytes, toBytes, hrun]
  rfl

theorem reads_ofLength (l : DescriptorLoop) : Reads (ofLength l.toBytes.length) l.toBytes l := by
  have hlift : Reads (lift (ofBytes l.toBytes)) [] l := by
    rw [ofBytes_toBytes]
    exact fun _ => rfl
  have h := (reads_bytes l.toBytes).bind (f := fun bs => lift (ofBytes bs)) hlift
  rwa [List.append_nil] at h

/-- The octets of a loop behind its length, if 12 bits hold it. -/
theorem withLength_fits (l : DescriptorLoop) (upper : Nat) :
    Fits (l.withLength upper) (2 + l.toBytes.length) fun bs =>
      l.toBytes.length < 0x1000 ∧
        bs = Bytes.ofNumber 2 (upper * 0x1000 + l.toBytes.length) ++ l.toBytes := by
  rw [withLength]
  by_cases h : l.toBytes.length ≤ 0x0FFF
  · rw [if_pos h]
    exact .pure ⟨by omega, rfl⟩
  · rw [if_neg h]
    exact .inr ⟨rfl, by rw [Section.maxLength]; omega⟩

theorem withLength_reads (l : DescriptorLoop) {upper : Nat} (hupper : upper < 0x10) :
    Fits (l.withLength upper) (2 + l.toBytes.length) fun bs =>
      bs.length = 2 + l.toBytes.length ∧ Reads read bs l := by
  obtain ⟨bs, hok, hlength, rfl⟩ | herror := l.withLength_fits upper
  · refine .inl ⟨_, hok, ?_, ?_⟩
    · rw [List.length_append, Bytes.length_ofNumber]
    · exact (reads_length12 hupper hlength).bind l.reads_ofLength
  · exact .inr herror

end DescriptorLoop

end DvbHost
