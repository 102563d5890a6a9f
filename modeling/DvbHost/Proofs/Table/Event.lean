import DvbHost.Proofs.Calendar.DateTime
import DvbHost.Proofs.Table.Service
import DvbHost.Table.Event

/-!
# The event table is read back

An event has a start that may be undefined, a duration in decimal digits, and the fields of a
broadcast.
-/

namespace DvbHost

set_option autoImplicit false

open Cursor

/-! ## Events -/

namespace EitEvent

/-- A start and a duration that can be written, and a status that three bits tell. -/
structure InRange (e : EitEvent) : Prop where
  startTime : ∀ t, e.startTime = some t → t.InRange
  duration : e.duration ≤ 359999
  status : e.broadcast.status.InRange

/-- The octets of an event. -/
def size (e : EitEvent) : Nat := 10 + e.broadcast.size

theorem size_pos (e : EitEvent) : 0 < e.size := by
  rw [size]
  omega

theorem length_startOctets (start : Option DateTime) : (startOctets start).length = 5 := by
  cases start with
  | none => rfl
  | some t => exact t.length_toBytes

/-- An event as it comes back when its octets are read. -/
def rewritten (e : EitEvent) : EitEvent where
  id := e.id
  startTime := e.startTime.map .rewritten
  duration := min e.duration Bcd.maxDuration
  broadcast := e.broadcast

/-- The octets of an undefined start are those of no time. -/
theorem startOctets_reads (start : Option DateTime) :
    Reads readStart (startOctets start) (start.map .rewritten) := by
  have hbytes := reads_bytes (startOctets start)
  rw [length_startOctets] at hbytes
  intro tail
  cases start with
  | none => rfl
  | some t =>
    have hdefined : t.toBytes ≠ noStart := t.toBytes_ne_ones
    have hrun : DateTime.read.run t.toBytes = .ok t.rewritten := t.reads.all.run
    have hread : Reads (if t.toBytes = noStart then pure none
        else lift (DateTime.read.run t.toBytes) >>= fun t => pure (some t)) []
          (some t.rewritten) := by
      rw [if_neg hdefined, hrun]
      exact fun _ => rfl
    have hboth := hbytes.bind
      (f := fun octets => if octets = noStart then pure none
        else lift (DateTime.read.run octets) >>= fun t => pure (some t)) hread
    rw [List.append_nil] at hboth
    exact hboth tail

theorem ofDuration_reads (n : Nat) :
    Reads readDuration (Bcd.ofDuration n) (min n Bcd.maxDuration) := by
  obtain ⟨hour, minute, second, hoctets, hduration⟩ := Bcd.ofDuration_read n
  rw [hoctets]
  intro tail
  change (Except.ok (Bcd.duration hour minute second), tail) = _
  rw [hduration]

theorem length_ofDuration (n : Nat) : (Bcd.ofDuration n).length = 3 := rfl

theorem fits {e : EitEvent} (hstatus : e.broadcast.status.InRange) :
    Fits e.octets e.size fun bs => bs.length = e.size ∧ Reads read bs e.rewritten := by
  refine (Broadcast.fits hstatus).map (Nat.le_add_left _ _) fun bs hbs => ?_
  obtain ⟨hlength, hreads⟩ := hbs
  refine ⟨?_, ?_⟩
  · rw [List.length_append, List.length_append, List.length_append, Bytes.length_ofUInt16,
      length_startOctets, length_ofDuration, hlength, size]
  · rw [List.append_assoc, List.append_assoc]
    exact (reads_u16 e.id).bind ((startOctets_reads e.startTime).bind
      ((ofDuration_reads e.duration).bind (hreads.map _)))

theorem InRange.rewritten_eq {e : EitEvent} (he : e.InRange) : e.rewritten = e := by
  have hstart : e.startTime.map .rewritten = e.startTime := by
    cases hstart : e.startTime with
    | none => rfl
    | some t => exact congrArg some (he.startTime t hstart).rewritten_eq
  have hduration : min e.duration Bcd.maxDuration = e.duration := Nat.min_eq_left he.duration
  rw [rewritten, hstart, hduration]

end EitEvent

/-! ## Event information -/

namespace Eit

structure InRange (t : Eit) : Prop where
  tableId : 0x4E ≤ t.tableId ∧ t.tableId ≤ 0x6F
  version : t.info.version.toNat ≤ 31
  events : ∀ e ∈ t.events, e.InRange

def sectionLength (t : Eit) : Nat := 9 + (6 + (t.events.map EitEvent.size).sum)

/-- A table as it comes back when its section is read. -/
def rewritten (t : Eit) : Eit := { t with events := t.events.map .rewritten }

theorem readsBack_rewritten {t : Eit} (haccepts : isTableId t.tableId = true)
    (hversion : t.info.version.toNat ≤ 31) (hstatus : ∀ e ∈ t.events, e.broadcast.status.InRange) :
    format.ReadsBack t.write t.sectionLength t.rewritten := by
  have hid : t.tableId ≠ 0xFF := by
    intro h
    rw [h] at haccepts
    exact absurd haccepts (by decide)
  have hevents := Fits.mapM_map EitEvent.size EitEvent.read EitEvent.rewritten fun e he =>
    ⟨e.size_pos, EitEvent.fits (hstatus e he)⟩
  rw [write, if_pos haccepts]
  refine TableFormat.extended_readsBack hid hversion haccepts ?_
  refine hevents.map (Nat.le_add_left _ _) fun events hs => ⟨?_, ?_⟩
  · rw [List.length_append, List.length_append, Bytes.length_ofUInt16, Bytes.length_ofUInt16,
      List.length_cons, List.length_cons, hs.1]
    omega
  · rw [List.append_assoc]
    exact ((reads_u16 t.transportStreamId).bindAll ((reads_u16 t.originalNetworkId).bindAll
      ((reads_u8 t.segmentLastSectionNumber).bindAll ((reads_u8 t.lastTableId).bindAll
        (hs.2.untilEnd.map _))))).run

theorem InRange.rewritten_eq {t : Eit} (ht : t.InRange) : t.rewritten = t := by
  have hevents : t.events.map .rewritten = t.events :=
    (List.map_congr_left fun e he => (ht.events e he).rewritten_eq).trans (List.map_id _)
  rw [rewritten, hevents]

theorem readsBack {t : Eit} (ht : t.InRange) :
    format.ReadsBack t.write t.sectionLength t := by
  obtain ⟨hlow, hhigh⟩ := ht.tableId
  have haccepts : isTableId t.tableId = true := by
    rw [isTableId, decide_eq_true hlow, decide_eq_true hhigh]
    rfl
  have h := readsBack_rewritten haccepts ht.version fun e he => (ht.events e he).status
  rwa [ht.rewritten_eq] at h

end Eit

end DvbHost
