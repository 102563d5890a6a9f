import DvbHost.Proofs.Descriptor.Loop
import DvbHost.Proofs.Table.Format
import DvbHost.Table.Service

/-!
# The service table is read back

The running status, the scrambling flag and the length of the descriptors share two octets.
-/

namespace DvbHost

set_option autoImplicit false

open Cursor

/-! ## Running status -/

namespace RunningStatus

/-- A status that three bits tell: a named one, or one of the two codes left. -/
def InRange : RunningStatus → Prop
  | reserved code => code = 6 ∨ code = 7
  | _ => True

theorem code_lt (s : RunningStatus) : s.code.toNat < 8 := by
  cases s with
  | reserved c =>
    rw [code, Octet.field, UInt8.toNat_ofNat', bits_eq]
    omega
  | _ => decide

theorem ofCode_code {s : RunningStatus} (hs : s.InRange) : ofCode s.code = s := by
  cases s with
  | reserved c =>
    obtain rfl | rfl := hs
    · rfl
    · rfl
  | _ => rfl

end RunningStatus

namespace Broadcast

def size (b : Broadcast) : Nat := 2 + b.descriptors.toBytes.length

/-- The two octets shared by three fields, taken apart. -/
theorem fits {b : Broadcast} (hb : b.status.InRange) :
    Fits b.octets b.size fun bs => bs.length = b.size ∧ Reads read bs b := by
  obtain ⟨status, scrambled, descriptors⟩ := b
  have hcode := status.code_lt
  have hflag : flagWeight 0 scrambled < 2 := by cases scrambled <;> decide
  obtain ⟨bs, hok, hlength, rfl⟩ | herror :=
    descriptors.withLength_fits (status.code.toNat * 2 + flagWeight 0 scrambled)
  · refine .inl ⟨_, hok, ?_, ?_⟩
    · rw [List.length_append, Bytes.length_ofNumber, size]
    · generalize hword : (status.code.toNat * 2 + flagWeight 0 scrambled) * 0x1000 +
        descriptors.toBytes.length = word
      have hlt : word < 0x10000 := by omega
      have hstatus : RunningStatus.ofCode (UInt8.ofNat (bits 13 3 word)) = status := by
        have hbits : bits 13 3 word = status.code.toNat := by
          rw [bits_eq]
          omega
        rw [hbits, UInt8.ofNat_toNat, RunningStatus.ofCode_code hb]
      have hscrambled : word.testBit 12 = scrambled := by
        rw [testBit_eq]
        cases scrambled with
        | false =>
          rw [flagWeight_eq] at hword
          exact decide_eq_false (by simp at hword; omega)
        | true =>
          rw [flagWeight_eq] at hword
          exact decide_eq_true (by simp at hword; omega)
      have hlow : bits 0 12 word = descriptors.toBytes.length := by
        rw [bits_eq]
        omega
      refine (reads_u16_number hlt).bind ?_
      rw [UInt16.toNat_ofNat', Nat.mod_eq_of_lt hlt]
      dsimp only
      rw [hstatus, hscrambled, hlow]
      exact descriptors.reads_ofLength.map _
  · exact .inr herror

end Broadcast

/-! ## Services -/

namespace SdtService

/-- The octets of a service. -/
def size (s : SdtService) : Nat := 3 + s.broadcast.size

theorem size_pos (s : SdtService) : 0 < s.size := by
  rw [size]
  omega

theorem flags_read (schedule presentFollowing : Bool) :
    let flags := UInt8.ofNat (0xFC + flagWeight 1 schedule + flagWeight 0 presentFollowing)
    Octet.flag 1 flags = schedule ∧ Octet.flag 0 flags = presentFollowing := by
  cases schedule <;> cases presentFollowing <;> decide

theorem fits {s : SdtService} (hs : s.broadcast.status.InRange) :
    Fits s.octets s.size fun bs => bs.length = s.size ∧ Reads read bs s := by
  refine (Broadcast.fits hs).map (Nat.le_add_left _ _) fun bs hbs => ?_
  obtain ⟨hlength, hreads⟩ := hbs
  obtain ⟨hschedule, hpresent⟩ := flags_read s.eitSchedule s.eitPresentFollowing
  refine ⟨?_, ?_⟩
  · rw [List.length_append, Bytes.length_ofUInt16, List.length_cons, hlength, size]
    omega
  · refine (reads_u16 s.id).bind ((reads_u8 _).bind ?_)
    rw [hschedule, hpresent]
    exact hreads.map _

end SdtService

namespace Sdt

structure InRange (t : Sdt) : Prop where
  version : t.info.version.toNat ≤ 31
  status : ∀ s ∈ t.services, s.broadcast.status.InRange

def sectionLength (t : Sdt) : Nat := 9 + (3 + (t.services.map SdtService.size).sum)

theorem readsBack {t : Sdt} (ht : t.InRange) :
    format.ReadsBack t.write t.sectionLength t := by
  have hid : tableId t.actual ≠ 0xFF := by cases t.actual <;> decide
  have haccepts : (tableId t.actual == 0x42 || tableId t.actual == 0x46) = true := by
    cases t.actual <;> decide
  have hactual : (tableId t.actual == 0x42) = t.actual := by cases t.actual <;> decide
  have hservices := Fits.mapM SdtService.size SdtService.read fun s hs =>
    ⟨s.size_pos, SdtService.fits (ht.status s hs)⟩
  refine TableFormat.extended_readsBack hid ht.version haccepts ?_
  refine hservices.map (Nat.le_add_left _ _) fun services hs => ⟨?_, ?_⟩
  · rw [List.length_append, Bytes.length_ofUInt16, List.length_cons, hs.1]
    omega
  · rw [hactual]
    exact ((reads_u16 t.originalNetworkId).bindAll
      ((reads_u8 0xFF).bindAll (hs.2.untilEnd.map _))).run

end Sdt

end DvbHost
