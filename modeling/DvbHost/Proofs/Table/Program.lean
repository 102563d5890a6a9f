import DvbHost.Proofs.Descriptor.Loop
import DvbHost.Proofs.Table.Format
import DvbHost.Table.Program

/-!
# Program tables are read back

The program association, conditional access and program map tables: what their sections measure,
and that they are read back.
-/

namespace DvbHost

set_option autoImplicit false

open Cursor

theorem Pid.length_toBytes (p : Pid) : p.toBytes.length = 2 := Bytes.length_ofNumber 2 _

theorem Pid.reads (p : Pid) : Reads read p.toBytes p := by
  obtain ⟨n, hn⟩ := p
  have hword : 0xE000 + n < 0x10000 := by omega
  have hlow : (0xE000 + n) / 2 ^ 0 % 2 ^ 13 = n := by omega
  have h := (reads_u16_number hword).map fun w => ofLow w.toNat
  have hnumber : bits 0 13 (UInt16.ofNat (0xE000 + n)).toNat = n := by
    rw [UInt16.toNat_ofNat', Nat.mod_eq_of_lt hword, bits_eq, hlow]
  have hpid : ofLow (UInt16.ofNat (0xE000 + n)).toNat = ⟨n, hn⟩ := (mk.injEq ..).mpr hnumber
  rwa [hpid] at h

/-! ## Program association -/

namespace Pat

/-- The program numbers are not the one that stands for the network. -/
structure InRange (t : Pat) : Prop where
  version : t.info.version.toNat ≤ 31
  programs : ∀ p ∈ t.programs, p.number ≠ 0

/-- The entries as they are written, the network's first. -/
def entryList (t : Pat) : List (UInt16 × Pid) :=
  (t.networkPid.toList.map fun pid => (0, pid)) ++ t.programs.map fun p => (p.number, p.mapPid)

def sectionLength (t : Pat) : Nat := 9 + 4 * t.entryList.length

variable {t : Pat}

theorem body_eq (t : Pat) :
    t.body = (t.entryList.map fun e => entryOctets e.1 e.2).flatten := by
  rw [body, entryList, List.map_append, List.flatten_append, List.map_map, List.map_map,
    List.flatMap_def]
  cases t.networkPid with
  | none => rfl
  | some pid => exact congrArg (· ++ _) (List.append_nil _).symm

theorem length_entryOctets (number : UInt16) (pid : Pid) :
    (entryOctets number pid).length = 4 := by
  rw [entryOctets, List.length_append, Bytes.length_ofUInt16, pid.length_toBytes]

theorem length_body (t : Pat) : t.body.length = 4 * t.entryList.length := by
  rw [body_eq]
  induction t.entryList with
  | nil => rfl
  | cons e es ih =>
    rw [List.map_cons, List.flatten_cons, List.length_append, ih, length_entryOctets,
      List.length_cons]
    omega

theorem entryOctets_reads (number : UInt16) (pid : Pid) :
    Reads readEntry (entryOctets number pid) (number, pid) :=
  (reads_u16 number).bind (pid.reads.map fun pid => (number, pid))

theorem readsAll_entries (t : Pat) : ReadsAll (entries 4 readEntry) t.body t.entryList := by
  have hentries : Entries readEntry (t.entryList.map fun e => entryOctets e.1 e.2) t.entryList := by
    rw [Entries, List.forall₂_map_left_iff]
    refine List.forall₂_same.mpr fun e _ => ⟨?_, entryOctets_reads e.1 e.2⟩
    rw [length_entryOctets]
    decide
  have hwhole : t.body.length % 4 = 0 := by
    rw [length_body]
    omega
  have hall := hentries.untilEnd
  rw [← body_eq] at hall
  rw [ReadsAll, entries, if_pos hwhole]
  exact hall

/-- The table is what its entries say: only the network's has number 0. -/
theorem ofEntries_entryList (ht : t.InRange) :
    ofEntries ⟨t.transportStreamId, t.info⟩ t.entryList = t := by
  obtain ⟨transportStreamId, info, networkPid, programs⟩ := t
  have hnetwork : (programs.map fun p => (p.number, p.mapPid)).filter (fun e => e.1 == 0) = [] := by
    rw [List.filter_eq_nil_iff]
    intro e he
    obtain ⟨p, hp, rfl⟩ := List.mem_map.mp he
    exact beq_eq_false_iff_ne.mpr (ht.programs p hp) ▸ Bool.false_ne_true
  have hprograms : (programs.map fun p => (p.number, p.mapPid)).filter (fun e => e.1 != 0) =
      programs.map fun p => (p.number, p.mapPid) := by
    rw [List.filter_eq_self]
    intro e he
    obtain ⟨p, hp, rfl⟩ := List.mem_map.mp he
    exact bne_iff_ne.mpr (ht.programs p hp)
  have hback : (programs.map fun p => (p.number, p.mapPid)).map (fun e => PatProgram.mk e.1 e.2) =
      programs := by
    rw [List.map_map]
    exact List.map_id programs
  rw [ofEntries, entryList, List.filter_append, List.filter_append, hnetwork, hprograms]
  cases networkPid with
  | none => exact congrArg (Pat.mk transportStreamId info none) hback
  | some pid => exact congrArg (Pat.mk transportStreamId info (some pid)) hback

theorem readsBack (ht : t.InRange) : format.ReadsBack t.write t.sectionLength t := by
  have hid : (0x00 : UInt8) ≠ 0xFF := by decide
  have hread := (t.readsAll_entries.map (ofEntries ⟨t.transportStreamId, t.info⟩)).run
  rw [ofEntries_entryList ht] at hread
  exact TableFormat.extended_readsBack hid ht.version rfl (.pure ⟨t.length_body, hread⟩)

end Pat

/-! ## Conditional access -/

namespace Cat

def sectionLength (t : Cat) : Nat := 9 + t.descriptors.toBytes.length

theorem readsBack {t : Cat} (hversion : t.info.version.toNat ≤ 31) :
    format.ReadsBack t.write t.sectionLength t := by
  have hid : (0x01 : UInt8) ≠ 0xFF := by decide
  have hread := ((readsAll_lift t.descriptors.ofBytes_toBytes).map (Cat.mk t.info)).run
  exact TableFormat.extended_readsBack hid hversion rfl (.pure ⟨rfl, hread⟩)

end Cat

/-! ## Program map -/

namespace PmtStream

/-- The octets of a stream. -/
def size (s : PmtStream) : Nat := 5 + s.descriptors.toBytes.length

theorem size_pos (s : PmtStream) : 0 < s.size := by
  rw [size]
  omega

theorem fits (s : PmtStream) :
    Fits s.octets s.size fun bs => bs.length = s.size ∧ Reads read bs s := by
  refine (s.descriptors.withLength_reads (by decide)).map (by rw [size]; omega) fun bs hbs => ?_
  obtain ⟨hlength, hreads⟩ := hbs
  refine ⟨?_, ?_⟩
  · rw [List.cons_append, List.length_cons, List.length_append, s.pid.length_toBytes, hlength, size]
    omega
  · have htype : Reads StreamType.read [s.streamType.code] s.streamType := fun _ => rfl
    exact htype.bind (s.pid.reads.bind (hreads.map _))

end PmtStream

namespace Pmt

def sectionLength (t : Pmt) : Nat :=
  9 + (2 + (2 + t.descriptors.toBytes.length) + (t.streams.map PmtStream.size).sum)

theorem readsBack {t : Pmt} (hversion : t.info.version.toNat ≤ 31) :
    format.ReadsBack t.write t.sectionLength t := by
  have hid : (0x02 : UInt8) ≠ 0xFF := by decide
  refine TableFormat.extended_readsBack hid hversion rfl ?_
  refine (t.descriptors.withLength_reads (by decide)).bind (by omega) fun descriptors hd => ?_
  have hstreams := Fits.mapM PmtStream.size PmtStream.read fun s (_ : s ∈ t.streams) =>
    ⟨s.size_pos, s.fits⟩
  refine hstreams.map (by omega) fun streams hs => ⟨?_, ?_⟩
  · rw [List.length_append, List.length_append, t.pcrPid.length_toBytes, hd.1, hs.1]
  · rw [List.append_assoc]
    exact (t.pcrPid.reads.bindAll (hd.2.bindAll (hs.2.untilEnd.map _))).run

end Pmt

end DvbHost
