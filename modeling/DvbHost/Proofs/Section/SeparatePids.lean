import DvbHost.Listing.Packets
import DvbHost.Proofs.Section.Reassembly

/-!
# PIDs are reassembled apart

The sections of one PID depend on the packets of that PID alone. A demultiplexer keeps a buffer for
each PID and a packet changes only its own (`get?_push`), so among all sections of a sequence of
packets those of a PID are the sections of its packets (`sections_filter`), and these are what one
buffer gives out for their payloads (`sections_of_pid`). With the octets of the packets of other
PIDs taken out, the packets that are left are those of the PID (`ofStream_keep`).
-/

namespace DvbHost

set_option autoImplicit false

variable {p : Pid} {verifyCrc : Bool}

theorem Pid.number_inj {p q : Pid} : p.number = q.number ↔ p = q := by
  cases p
  cases q
  rw [Pid.mk.injEq]

/-! ## Packets -/

namespace Packet

/-- The PID in the header of a packet's octets. -/
def headerPid (octets : Bytes) : Pid :=
  match octets with
  | _ :: b1 :: b2 :: _ => .ofLow (b1.toNat * 256 + b2.toNat)
  | _ => .null

/-- The payloads of a PID in a stream, each with whether a section starts in it. -/
def payloadsOf (p : Pid) (bs : Bytes) : List (Bytes × Bool) :=
  ((ofStream bs).filter (·.pid == p)).map fun packet => (packet.payload, packet.unitStart)

/-- A stream without the packets that name another PID. What is no whole packet at the end stays. -/
def keep (p : Pid) (bs : Bytes) : Bytes :=
  ((groups (bs.length / size) bs).filter (headerPid · == p)).flatten ++
    bs.drop (size * (bs.length / size))

theorem groups_eq_cut (count : Nat) (bs : Bytes) : groups count bs = Bytes.cut size count bs := by
  induction count generalizing bs with
  | zero => rfl
  | succ count ih => rw [groups, Bytes.cut, ih]

theorem pid_of_ofOctets? {octets : Bytes} {packet : Packet} (h : ofOctets? octets = some packet) :
    packet.pid = headerPid octets := by
  rw [ofOctets?.eq_def] at h
  split at h
  · split_ifs at h
    obtain ⟨payload, -, rfl⟩ := Option.map_eq_some_iff.mp h
    rfl
  · cases h

/-- Octets are a packet of a PID exactly if they name it and are a packet. -/
theorem filter_ofOctets? (p : Pid) (octets : Bytes) :
    (ofOctets? octets).filter (·.pid == p) =
      if (headerPid octets == p) = true then ofOctets? octets else none := by
  cases h : ofOctets? octets with
  | none => rw [Option.filter_none, ite_self]
  | some packet => rw [Option.filter_some, pid_of_ofOctets? h]

/-- The packets of a stream that is left are those of the PID. -/
theorem ofStream_keep (p : Pid) (bs : Bytes) :
    ofStream (keep p bs) = (ofStream bs).filter (·.pid == p) := by
  let count := bs.length / size
  let kept := (groups count bs).filter (headerPid · == p)
  let tail := bs.drop (size * count)
  have hdiv : size * count + bs.length % size = bs.length := Nat.div_add_mod bs.length size
  have hpart : ∀ part ∈ kept, part.length = size := by
    intro part hmem
    have hmem := List.mem_of_mem_filter hmem
    rw [groups_eq_cut] at hmem
    exact Bytes.length_of_mem_cut (by omega) hmem
  have htail : tail.length < size := by
    have hmod : bs.length % size < size := Nat.mod_lt _ (by decide)
    rw [List.length_drop]
    omega
  have hlength : (kept.flatten ++ tail).length / size = kept.length := by
    rw [List.length_append, List.length_flatten, List.map_congr_left hpart, List.map_const',
      List.sum_replicate, smul_eq_mul, Nat.mul_comm, Nat.mul_add_div (by decide),
      Nat.div_eq_of_lt htail, Nat.add_zero]
  change (groups ((kept.flatten ++ tail).length / size) (kept.flatten ++ tail)).filterMap ofOctets? =
    ((groups count bs).filterMap ofOctets?).filter (·.pid == p)
  rw [hlength, groups_eq_cut, Bytes.cut_flatten hpart, List.filterMap_filter, List.filter_filterMap]
  exact List.filterMap_congr fun octets _ => (filter_ofOctets? p octets).symm

end Packet

/-! ## The demultiplexer -/

namespace Demux

variable {d d' : Demux} {packet : Packet}

/-- What a packet makes of the buffer of its PID. -/
def pushTo (verifyCrc : Bool) (b : Option SectionBuffer) (packet : Packet) :
    SectionBuffer × List Section :=
  (b.getD (SectionBuffer.empty verifyCrc)).push packet.payload packet.unitStart

theorem push_eq (d : Demux) (packet : Packet) :
    push verifyCrc d packet =
      (KeyedList.put d packet.pid (pushTo verifyCrc (KeyedList.get? d packet.pid) packet).1,
        (pushTo verifyCrc (KeyedList.get? d packet.pid) packet).2) := rfl

/-- A packet changes the buffer of its PID only. -/
theorem get?_push (d : Demux) (packet : Packet) (p : Pid) :
    KeyedList.get? (push verifyCrc d packet).1 p =
      if p = packet.pid then
        some (pushTo verifyCrc (KeyedList.get? d packet.pid) packet).1
      else KeyedList.get? d p := by
  rw [push_eq, KeyedList.get?_put]

theorem sections_cons (d : Demux) (packet : Packet) (packets : List Packet) :
    sections verifyCrc d (packet :: packets) =
      (push verifyCrc d packet).2.map (packet.pid, ·) ++
        sections verifyCrc (push verifyCrc d packet).1 packets := rfl

theorem filter_found (p pid : Pid) (found : List Section) :
    (found.map (pid, ·)).filter (·.1 == p) = if pid = p then found.map (pid, ·) else [] := by
  split_ifs with h
  · rw [List.filter_eq_self]
    intro q hq
    obtain ⟨s, -, rfl⟩ := List.mem_map.mp hq
    exact beq_iff_eq.mpr h
  · rw [List.filter_eq_nil_iff]
    intro q hq
    obtain ⟨s, -, rfl⟩ := List.mem_map.mp hq
    exact fun he => h (beq_iff_eq.mp he)

/-- The sections of a PID are those of its packets, from any demultiplexer that has the same buffer
for it. -/
theorem sections_filter (packets : List Packet) (h : KeyedList.get? d p = KeyedList.get? d' p) :
    (sections verifyCrc d packets).filter (·.1 == p) =
      sections verifyCrc d' (packets.filter (·.pid == p)) := by
  induction packets generalizing d d' with
  | nil => rfl
  | cons packet packets ih =>
    rw [sections_cons, List.filter_append, filter_found, List.filter_cons]
    by_cases hpid : packet.pid = p
    · subst hpid
      have hsame : (push verifyCrc d packet).2 = (push verifyCrc d' packet).2 := by
        rw [push_eq, push_eq, h]
      have hnext : KeyedList.get? (push verifyCrc d packet).1 packet.pid =
          KeyedList.get? (push verifyCrc d' packet).1 packet.pid := by
        rw [get?_push, get?_push, h]
      rw [if_pos rfl, if_pos (beq_self_eq_true _), sections_cons, ih hnext, hsame]
    · have hnext : KeyedList.get? (push verifyCrc d packet).1 p = KeyedList.get? d' p := by
        rw [get?_push, if_neg (Ne.symm hpid), h]
      rw [if_neg hpid, if_neg fun he => hpid (beq_iff_eq.mp he), List.nil_append, ih hnext]

/-- For packets of one PID a demultiplexer is the buffer of that PID. -/
theorem sections_of_pid (packets : List Packet) (h : ∀ packet ∈ packets, packet.pid = p) :
    sections verifyCrc d packets =
      (((KeyedList.get? d p).getD (SectionBuffer.empty verifyCrc)).pushAll
        (packets.map fun packet => (packet.payload, packet.unitStart))).2.map (p, ·) := by
  induction packets generalizing d with
  | nil => rfl
  | cons packet packets ih =>
    obtain rfl := h packet (List.mem_cons_self ..)
    have htail := fun q hq => h q (List.mem_cons_of_mem _ hq)
    rw [sections_cons, ih htail, get?_push, if_pos rfl, Option.getD_some, List.map_cons,
      SectionBuffer.pushAll, List.map_append]
    rfl

end Demux

/-! ## Streams -/

theorem streamSections_none (verifyCrc : Bool) (bs : Bytes) :
    streamSections verifyCrc none bs = Demux.sections verifyCrc [] (Packet.ofStream bs) :=
  congrArg _ (List.filter_true _)

theorem streamSections_some (verifyCrc : Bool) (p : Pid) (bs : Bytes) :
    streamSections verifyCrc (some p.number) bs =
      Demux.sections verifyCrc [] ((Packet.ofStream bs).filter (·.pid == p)) := by
  refine congrArg _ (List.filter_congr fun packet _ => ?_)
  rw [Bool.eq_iff_iff, beq_iff_eq, beq_iff_eq]
  exact Pid.number_inj

/-- With the PID as filter the sections are those that one buffer gives out for its payloads. -/
theorem streamSections_eq_pushAll (verifyCrc : Bool) (p : Pid) (bs : Bytes) :
    streamSections verifyCrc (some p.number) bs =
      ((SectionBuffer.empty verifyCrc).pushAll (Packet.payloadsOf p bs)).2.map (p, ·) := by
  rw [streamSections_some, Demux.sections_of_pid (p := p)]
  · rfl
  · intro packet hpacket
    exact beq_iff_eq.mp (List.mem_filter.mp hpacket).2

/-- For every stream of packets and every PID, the sections of the PID among all sections are those
that are found with the PID as filter, and those that are found, with the filter or without it,
after the packets of all other PIDs have been taken out of the stream. They are what one buffer
gives out for the payloads of the PID. -/
theorem streamSections_of_pid (verifyCrc : Bool) (p : Pid) (bs : Bytes) :
    (streamSections verifyCrc none bs).filter (·.1 == p) =
        streamSections verifyCrc (some p.number) bs ∧
      streamSections verifyCrc none (Packet.keep p bs) =
        streamSections verifyCrc (some p.number) bs ∧
      streamSections verifyCrc (some p.number) (Packet.keep p bs) =
        streamSections verifyCrc (some p.number) bs ∧
      streamSections verifyCrc (some p.number) bs =
        ((SectionBuffer.empty verifyCrc).pushAll (Packet.payloadsOf p bs)).2.map (p, ·) := by
  refine ⟨?_, ?_, ?_, streamSections_eq_pushAll verifyCrc p bs⟩
  · rw [streamSections_none, streamSections_some, Demux.sections_filter _ rfl]
  · rw [streamSections_none, streamSections_some, Packet.ofStream_keep]
  · rw [streamSections_some, streamSections_some, Packet.ofStream_keep, List.filter_filter]
    simp only [Bool.and_self]

/-- A packet of the PID with these low bits that ends with the front of a section. -/
def frontPacket (pid : UInt8) (front : Bytes) : Bytes :=
  [0x47, 0x40, pid, 0x10, UInt8.ofNat (183 - front.length)] ++
    (List.replicate (183 - front.length) 0xFF ++ front)

/-- A packet of the PID with these low bits that begins with the rest of a section. -/
def restPacket (pid : UInt8) (rest : Bytes) : Bytes :=
  [0x47, 0x00, pid, 0x10] ++ (rest ++ List.replicate (184 - rest.length) 0xFF)

/-- Two sections in packets of PID 0 and PID 0x14 by turns, both cut. -/
def interleavedPackets : Bytes :=
  frontPacket 0x00 [0x00, 0xB0, 0x0D, 0x00, 0x01, 0xC1, 0x00] ++
    (frontPacket 0x14 [0x70, 0x70] ++
      (restPacket 0x00 [0x00, 0x00, 0x01, 0xE1, 0x00, 0xE8, 0xF9, 0x5E, 0x7D] ++
        restPacket 0x14 [0x05, 0xC0, 0x79, 0x12, 0x45, 0x00]))

/-- The section of PID 0 comes out whole between the packets of the other one. -/
theorem streamSections_of_pid_interleaved :
    (Packet.ofStream interleavedPackets).map (·.pid.number) = [0, 0x14, 0, 0x14] ∧
      streamSections true (some 0) interleavedPackets =
        [(⟨0, by decide⟩, ⟨0x00, false, some ⟨1, ⟨0, true, 0, 0⟩⟩, [0x00, 0x01, 0xE1, 0x00],
          some 0xE8F95E7D⟩)] ∧
      (streamSections true none interleavedPackets).filter (·.1 == ⟨0, by decide⟩) =
        [(⟨0, by decide⟩, ⟨0x00, false, some ⟨1, ⟨0, true, 0, 0⟩⟩, [0x00, 0x01, 0xE1, 0x00],
          some 0xE8F95E7D⟩)] := by
  obtain ⟨hall, -, -, hbuffer⟩ := streamSections_of_pid true ⟨0, by decide⟩ interleavedPackets
  have hpushed : ((SectionBuffer.empty true).pushAll
      (Packet.payloadsOf ⟨0, by decide⟩ interleavedPackets)).2 =
        [⟨0x00, false, some ⟨1, ⟨0, true, 0, 0⟩⟩, [0x00, 0x01, 0xE1, 0x00], some 0xE8F95E7D⟩] := by
    decide +kernel
  rw [hpushed] at hbuffer
  exact ⟨by decide +kernel, hbuffer, hall.trans hbuffer⟩

end DvbHost
