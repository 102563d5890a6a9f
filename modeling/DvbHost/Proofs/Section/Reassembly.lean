import DvbHost.Section.Reassembly
import DvbHost.Proofs.Section.Prefix
import Mathlib.Data.List.Forall2

/-!
# Sections come out of a buffer as they went into packets

`Carries` says how sections are laid out in packets: they follow each other without a gap, may be cut
anywhere, and stuffing stands only where no section is under way. `pushAll_delivers` says that a
buffer gives out exactly these sections, whatever it held before.
-/

namespace DvbHost

set_option autoImplicit false

/-- What one packet has of a sequence of sections. -/
structure SectionPacket where
  /-- Of the section that is under way. -/
  continuation : Bytes
  /-- The sections that begin and end in the packet. -/
  whole : List Bytes
  /-- The beginning of a section that goes on in the next packet. -/
  begun : Bytes
  /-- How many octets of stuffing end it. -/
  stuffing : Nat

namespace SectionPacket

def starts (p : SectionPacket) : Bool := !p.whole.isEmpty || !p.begun.isEmpty

/-- Where a section starts in the packet, a pointer to it goes before everything else. -/
def payload (p : SectionPacket) : Bytes :=
  (if p.starts then [UInt8.ofNat p.continuation.length] else []) ++
    (p.continuation ++ (p.whole.flatten ++ (p.begun ++ List.replicate p.stuffing 0xFF)))

end SectionPacket

/-- Packets carry what is left of a section under way, and then sections one after the other. -/
inductive Carries : Bytes → List Bytes → List SectionPacket → Prop
  | done : Carries [] [] []
  /-- All of the packet belongs to the section under way, which goes on behind it. -/
  | ongoing {part rest : Bytes} {sections : List Bytes} {packets : List SectionPacket}
      (unfinished : rest ≠ []) (next : Carries rest sections packets) :
      Carries (part ++ rest) sections (⟨part, [], [], 0⟩ :: packets)
  /-- No section is under way at the end of the packet. -/
  | resting {part : Bytes} {whole sections : List Bytes} {packets : List SectionPacket}
      (stuffing : Nat) (next : Carries [] sections packets) :
      Carries part (whole ++ sections) (⟨part, whole, [], stuffing⟩ :: packets)
  /-- A section is cut at the end of the packet. -/
  | broken {part first rest : Bytes} {whole sections : List Bytes} {packets : List SectionPacket}
      (begun : first ≠ []) (unfinished : rest ≠ []) (next : Carries rest sections packets) :
      Carries part (whole ++ (first ++ rest) :: sections) (⟨part, whole, first, 0⟩ :: packets)

namespace SectionBuffer

/-- Pushes payloads one after the other. -/
def pushAll (b : SectionBuffer) : List (Bytes × Bool) → SectionBuffer × List Section
  | [] => (b, [])
  | (payload, unitStart) :: payloads =>
    ((pushAll (b.push payload unitStart).1 payloads).1,
      (b.push payload unitStart).2 ++ (pushAll (b.push payload unitStart).1 payloads).2)

/-- The byte string is the section, all of it. -/
def IsSection (verifyCrc : Bool) (s : Section) (bs : Bytes) : Prop :=
  Section.ofBytes bs verifyCrc = .ok (s, bs.length)

variable {verifyCrc : Bool}

/-! ## Draining -/

/-- Nothing can be taken from the front, and nothing is wrong there. -/
def AtRest (verifyCrc : Bool) (bs : Bytes) : Prop :=
  Section.ofBytes bs verifyCrc = .error .truncatedData ∨
    Section.ofBytes bs verifyCrc = .error .endOfPsi

theorem atRest_stuffing (n : Nat) : AtRest verifyCrc (List.replicate n 0xFF) := by
  match n with
  | 0 | 1 | 2 => exact .inl rfl
  | n + 3 => exact .inr rfl

theorem atRest_begun {first rest : Bytes} {s : Section} (h : IsSection verifyCrc s (first ++ rest))
    (hrest : rest ≠ []) : AtRest verifyCrc first := by
  have hlt : first.length < (first ++ rest).length := by
    have := List.length_pos_iff.mpr hrest
    rw [List.length_append]
    omega
  have htake := Section.ofBytes_take h hlt
  rw [List.take_left] at htake
  exact .inl htake

theorem drainWithin_atRest {tail : Bytes} (h : AtRest verifyCrc tail) (fuel : Nat) :
    drainWithin verifyCrc fuel tail = ⟨[], tail, false⟩ := by
  cases fuel with
  | zero => rfl
  | succ fuel =>
    rw [drainWithin]
    rcases h with h | h
    · rw [h]
    · rw [h]

/-- Whole sections are taken in order, as long as the fuel lasts. -/
theorem drainWithin_flatten {bss : List Bytes} {ss : List Section} {tail : Bytes}
    (h : List.Forall₂ (IsSection verifyCrc) ss bss) (htail : AtRest verifyCrc tail) {fuel : Nat}
    (hfuel : bss.length ≤ fuel) :
    drainWithin verifyCrc fuel (bss.flatten ++ tail) = ⟨ss, tail, false⟩ := by
  induction h generalizing fuel with
  | nil => exact drainWithin_atRest htail fuel
  | @cons s bs ss bss hs _ ih =>
    cases fuel with
    | zero => exact absurd hfuel (Nat.not_succ_le_zero _)
    | succ fuel =>
      have hfront : Section.ofBytes (bs ++ (bss.flatten ++ tail)) verifyCrc = .ok (s, bs.length) := by
        rw [Section.ofBytes_append (by rw [hs]; exact nofun), hs]
      rw [List.flatten_cons, List.append_assoc, drainWithin, hfront]
      dsimp only
      rw [List.drop_left, ih (Nat.le_of_succ_le_succ hfuel)]

theorem length_le_length_flatten {bss : List Bytes} {ss : List Section}
    (h : List.Forall₂ (IsSection verifyCrc) ss bss) : bss.length ≤ bss.flatten.length := by
  induction h with
  | nil => exact Nat.le_refl 0
  | cons hs _ ih =>
    have hsize := (Section.size_of_ofBytes hs).1
    rw [List.flatten_cons, List.length_append, List.length_cons]
    omega

theorem drain_flatten {bss : List Bytes} {ss : List Section} {tail : Bytes}
    (h : List.Forall₂ (IsSection verifyCrc) ss bss) (htail : AtRest verifyCrc tail) :
    drain verifyCrc (bss.flatten ++ tail) = ⟨ss, tail, false⟩ := by
  refine drainWithin_flatten h htail ?_
  have hlength := length_le_length_flatten h
  rw [List.length_append]
  omega

/-! ## One packet -/

/-- What a buffer holds while octets are still to come, and the section that these make whole. -/
inductive Awaits (verifyCrc : Bool) : SectionBuffer → Bytes → List Section → Prop
  | idle (n : Nat) : Awaits verifyCrc ⟨List.replicate n 0xFF, true, verifyCrc⟩ [] []
  | midway {pending underWay : Bytes} {s : Section} (unfinished : underWay ≠ [])
      (whole : IsSection verifyCrc s (pending ++ underWay)) :
      Awaits verifyCrc ⟨pending, true, verifyCrc⟩ underWay [s]

theorem append_eq {pending data rest : Bytes} {ss : List Section}
    (h : drain verifyCrc (pending ++ data.take (capacity - pending.length)) = ⟨ss, rest, false⟩) :
    append ⟨pending, true, verifyCrc⟩ data = (⟨rest, true, verifyCrc⟩, ss) := by
  rw [append, h]
  rfl

/-- The rest of the section under way makes it whole. Of the stuffing behind it some may be cut
off, but nothing else. -/
theorem append_rest {b : SectionBuffer} {underWay : Bytes} {owed : List Section}
    (h : Awaits verifyCrc b underWay owed) (stuffing : Nat) :
    ∃ n, b.append (underWay ++ List.replicate stuffing 0xFF) =
      (⟨List.replicate n 0xFF, true, verifyCrc⟩, owed) := by
  cases h with
  | idle n =>
    refine ⟨n + min (capacity - (List.replicate n (0xFF : UInt8)).length) stuffing, append_eq ?_⟩
    rw [List.nil_append, List.take_replicate, List.replicate_append_replicate]
    exact drain_flatten .nil (atRest_stuffing _)
  | @midway pending _ s unfinished whole =>
    have hsize := (Section.size_of_ofBytes whole).2.1
    rw [List.length_append] at hsize
    have hroom : underWay.length ≤ capacity - pending.length := by
      rw [capacity]
      omega
    refine ⟨min (capacity - pending.length - underWay.length) stuffing, append_eq ?_⟩
    rw [List.take_append, List.take_of_length_le hroom, List.take_replicate, ← List.append_assoc]
    have hrest : AtRest verifyCrc (List.replicate
        (min (capacity - pending.length - underWay.length) stuffing) 0xFF) := atRest_stuffing _
    have hdrain := drain_flatten (.cons whole .nil) hrest
    rwa [List.flatten_singleton] at hdrain

/-- Sections from a start on, and what stands behind the last of them. -/
theorem append_start {bss : List Bytes} {ss : List Section} {tail : Bytes}
    (h : List.Forall₂ (IsSection verifyCrc) ss bss) (htail : AtRest verifyCrc tail)
    (hroom : (bss.flatten ++ tail).length ≤ capacity) :
    append ⟨[], true, verifyCrc⟩ (bss.flatten ++ tail) = (⟨tail, true, verifyCrc⟩, ss) := by
  refine append_eq ?_
  rw [List.nil_append, List.length_nil, Nat.sub_zero, List.take_of_length_le hroom]
  exact drain_flatten h htail

theorem push_unmarked (b : SectionBuffer) (data : Bytes) (h : data ≠ []) :
    b.push data false = b.continuation data := by
  cases data with
  | nil => exact absurd rfl h
  | cons x data => rfl

/-- Where a marked payload continues nothing, it does not matter what the buffer held. -/
theorem push_start (b : SectionBuffer) (next : Bytes) :
    b.push (0 :: next) true = append ⟨[], true, b.verifyCrc⟩ next := rfl

/-- A marked payload ends the section under way, and then others begin. -/
theorem push_marked {b : SectionBuffer} {underWay next : Bytes} {owed : List Section}
    (h : Awaits verifyCrc b underWay owed) (hpointer : underWay.length < 256) :
    b.push (UInt8.ofNat underWay.length :: (underWay ++ next)) true =
      ((append ⟨[], true, verifyCrc⟩ next).1, owed ++ (append ⟨[], true, verifyCrc⟩ next).2) := by
  have hnat : (UInt8.ofNat underWay.length).toNat = underWay.length := by
    rw [UInt8.toNat_ofNat']
    exact Nat.mod_eq_of_lt hpointer
  obtain ⟨n, hrest⟩ := append_rest h 0
  rw [List.replicate_zero, List.append_nil] at hrest
  rw [push, if_pos rfl, hnat, Bytes.split?_length]
  cases h with
  | idle => rfl
  | midway unfinished whole =>
    have hnonempty : underWay.isEmpty = false := List.isEmpty_eq_false_iff.mpr unfinished
    dsimp only
    rw [hnonempty, if_neg Bool.false_ne_true, continuation, if_pos rfl, hrest]

/-! ## All packets -/

theorem length_continuation_lt {p : SectionPacket} (hstarts : p.starts = true)
    (hsize : p.payload.length ≤ 184) : p.continuation.length < 256 := by
  rw [SectionPacket.payload, hstarts] at hsize
  simp only [List.length_append] at hsize
  omega

/-- A packet that sections start in, from its first octet on. -/
theorem payload_of_starts {p : SectionPacket} (hstarts : p.starts = true) :
    p.payload = UInt8.ofNat p.continuation.length :: (p.continuation ++
      (p.whole.flatten ++ (p.begun ++ List.replicate p.stuffing 0xFF))) := by
  rw [SectionPacket.payload, hstarts]
  rfl

/-- What is behind the continuation of a packet has room in an empty buffer. -/
theorem room_of_size {p : SectionPacket} (hsize : p.payload.length ≤ 184) :
    (p.whole.flatten ++ (p.begun ++ List.replicate p.stuffing 0xFF)).length ≤ capacity := by
  have hcapacity : 184 ≤ capacity := by decide
  rw [SectionPacket.payload, List.length_append, List.length_append] at hsize
  omega

variable {b : SectionBuffer} {part first rest : Bytes} {whole : List Bytes}
  {owed ss : List Section} {s : Section}

/-- A packet that only goes on with a section. -/
theorem push_ongoing (hawaits : Awaits verifyCrc b (part ++ rest) owed) (hrest : rest ≠ []) :
    ∃ b', b.push part false = (b', []) ∧ Awaits verifyCrc b' rest owed := by
  by_cases hpart : part = []
  · rw [hpart] at hawaits ⊢
    exact ⟨b, rfl, hawaits⟩
  · rw [push_unmarked b part hpart]
    generalize hunder : part ++ rest = underWay at hawaits
    cases hawaits with
    | idle => exact absurd (List.append_eq_nil_iff.mp hunder).2 hrest
    | @midway pending _ s unfinished whole =>
      rw [← hunder, ← List.append_assoc] at whole
      have hsize := (Section.size_of_ofBytes whole).2.1
      rw [List.length_append, List.length_append] at hsize
      have hroom : part.length ≤ capacity - pending.length := by
        rw [capacity]
        omega
      refine ⟨⟨pending ++ part, true, verifyCrc⟩, append_eq ?_, .midway hrest whole⟩
      rw [List.take_of_length_le hroom]
      exact drainWithin_atRest (atRest_begun whole hrest) _

/-- A packet that sections start in. -/
theorem push_starting {p : SectionPacket} (hawaits : Awaits verifyCrc b p.continuation owed)
    (hstarts : p.starts = true) (hsections : List.Forall₂ (IsSection verifyCrc) ss p.whole)
    (htail : AtRest verifyCrc (p.begun ++ List.replicate p.stuffing 0xFF))
    (hsize : p.payload.length ≤ 184) :
    b.push p.payload p.starts =
      (⟨p.begun ++ List.replicate p.stuffing 0xFF, true, verifyCrc⟩, owed ++ ss) := by
  rw [hstarts, payload_of_starts hstarts, push_marked hawaits (length_continuation_lt hstarts hsize),
    append_start hsections htail (room_of_size hsize)]

/-- A packet that leaves no section under way. -/
theorem push_resting {stuffing : Nat} (hawaits : Awaits verifyCrc b part owed)
    (hsections : List.Forall₂ (IsSection verifyCrc) ss whole)
    (hsize : (SectionPacket.payload ⟨part, whole, [], stuffing⟩).length ≤ 184) :
    ∃ b', b.push (SectionPacket.payload ⟨part, whole, [], stuffing⟩)
        (SectionPacket.starts ⟨part, whole, [], stuffing⟩) = (b', owed ++ ss) ∧
      Awaits verifyCrc b' [] [] := by
  cases hsections with
  | nil =>
    have hpayload : SectionPacket.payload ⟨part, [], [], stuffing⟩ =
        part ++ List.replicate stuffing 0xFF := rfl
    have hstarts : SectionPacket.starts ⟨part, [], [], stuffing⟩ = false := rfl
    rw [hpayload, hstarts, List.append_nil]
    by_cases hempty : part ++ List.replicate stuffing 0xFF = []
    · rw [hempty]
      cases hawaits with
      | idle n => exact ⟨_, rfl, .idle n⟩
      | midway unfinished => exact absurd (List.append_eq_nil_iff.mp hempty).1 unfinished
    · obtain ⟨n, hrest⟩ := append_rest hawaits stuffing
      refine ⟨_, ?_, .idle n⟩
      rw [push_unmarked b _ hempty, ← hrest]
      cases hawaits <;> rfl
  | cons hs hss =>
    refine ⟨_, push_starting (p := ⟨part, _, [], stuffing⟩) hawaits rfl (.cons hs hss)
      (atRest_stuffing stuffing) hsize, .idle stuffing⟩

/-- A packet at whose end a section is cut. -/
theorem push_broken (hawaits : Awaits verifyCrc b part owed)
    (hsections : List.Forall₂ (IsSection verifyCrc) ss whole) (hfirst : first ≠ [])
    (hrest : rest ≠ []) (hs : IsSection verifyCrc s (first ++ rest))
    (hsize : (SectionPacket.payload ⟨part, whole, first, 0⟩).length ≤ 184) :
    ∃ b', b.push (SectionPacket.payload ⟨part, whole, first, 0⟩)
        (SectionPacket.starts ⟨part, whole, first, 0⟩) = (b', owed ++ ss) ∧
      Awaits verifyCrc b' rest [s] := by
  have hstarts : SectionPacket.starts ⟨part, whole, first, 0⟩ = true := by
    rw [SectionPacket.starts, List.isEmpty_eq_false_iff.mpr hfirst, Bool.not_false, Bool.or_true]
  have hpush := push_starting (p := ⟨part, whole, first, 0⟩) hawaits hstarts hsections
    (by rw [List.replicate_zero, List.append_nil]; exact atRest_begun hs hrest) hsize
  rw [List.replicate_zero, List.append_nil] at hpush
  exact ⟨_, hpush, .midway hrest hs⟩

/-- While packets carry sections, the buffer owes what they will make whole. -/
theorem pushAll_of_awaits {underWay : Bytes} {bss : List Bytes} {packets : List SectionPacket}
    (hcarries : Carries underWay bss packets) (hawaits : Awaits verifyCrc b underWay owed)
    (hsections : List.Forall₂ (IsSection verifyCrc) ss bss)
    (hsize : ∀ p ∈ packets, p.payload.length ≤ 184) :
    (b.pushAll (packets.map fun p => (p.payload, p.starts))).2 = owed ++ ss := by
  induction hcarries generalizing b owed ss with
  | done =>
    cases hsections
    cases hawaits with
    | idle => rfl
    | midway unfinished => exact absurd rfl unfinished
  | @ongoing part rest sections packets unfinished next ih =>
    obtain ⟨b', hpush, hawaits'⟩ := push_ongoing hawaits unfinished
    have hpayload : SectionPacket.payload ⟨part, [], [], 0⟩ = part := List.append_nil part
    have hstarts : SectionPacket.starts ⟨part, [], [], 0⟩ = false := rfl
    rw [List.map_cons, pushAll, hpayload, hstarts, hpush]
    exact ih hawaits' hsections fun p hp => hsize p (List.mem_cons_of_mem _ hp)
  | @resting part whole sections packets stuffing next ih =>
    have hwhole := List.forall₂_take_append ss whole sections hsections
    have hsections' := List.forall₂_drop_append ss whole sections hsections
    obtain ⟨b', hpush, hawaits'⟩ := push_resting hawaits hwhole (hsize _ (List.mem_cons_self ..))
    rw [List.map_cons, pushAll, hpush]
    dsimp only
    rw [ih hawaits' hsections' fun p hp => hsize p (List.mem_cons_of_mem _ hp), List.nil_append,
      List.append_assoc, List.take_append_drop]
  | @broken part first rest whole sections packets begun unfinished next ih =>
    have hwhole := List.forall₂_take_append ss whole _ hsections
    obtain ⟨s, ss', hs, hsections', hdrop⟩ :=
      List.forall₂_cons_right_iff.mp (List.forall₂_drop_append ss whole _ hsections)
    obtain ⟨b', hpush, hawaits'⟩ := push_broken hawaits hwhole begun unfinished hs
      (hsize _ (List.mem_cons_self ..))
    rw [List.map_cons, pushAll, hpush]
    dsimp only
    rw [ih hawaits' hsections' fun p hp => hsize p (List.mem_cons_of_mem _ hp), List.append_assoc,
      List.singleton_append, ← hdrop, List.take_append_drop]

/-- With no section under way, a packet that sections start in continues nothing. -/
theorem continuation_eq_nil {bss : List Bytes} {p : SectionPacket} {packets : List SectionPacket}
    (h : Carries [] bss (p :: packets)) : p.continuation = [] := by
  generalize hunder : ([] : Bytes) = underWay at h
  cases h with
  | ongoing unfinished => exact absurd (List.append_eq_nil_iff.mp hunder.symm).2 unfinished
  | resting => rfl
  | broken => rfl

/-- A buffer gives out the sections that packets carry, in order and each of them once. The first of
the packets must begin with a section; what was pushed before does not matter. -/
theorem pushAll_delivers (b : SectionBuffer) {p : SectionPacket} {packets : List SectionPacket}
    {bss : List Bytes} {ss : List Section} (hcarries : Carries [] bss (p :: packets))
    (hstarts : p.starts = true) (hsections : List.Forall₂ (IsSection b.verifyCrc) ss bss)
    (hsize : ∀ q ∈ p :: packets, q.payload.length ≤ 184) :
    (b.pushAll ((p :: packets).map fun q => (q.payload, q.starts))).2 = ss := by
  have hfresh : b.push p.payload p.starts =
      push ⟨List.replicate 0 0xFF, true, b.verifyCrc⟩ p.payload p.starts := by
    rw [hstarts, payload_of_starts hstarts, continuation_eq_nil hcarries]
    exact (push_start b _).trans (push_start ⟨[], true, b.verifyCrc⟩ _).symm
  have hpushAll := pushAll_of_awaits hcarries (.idle 0) hsections hsize
  rw [List.map_cons, pushAll] at hpushAll ⊢
  rw [hfresh]
  exact hpushAll

set_option maxRecDepth 2000 in
/-- Two sections; the second is cut within its header, and stuffing ends the last packet. -/
theorem pushAll_delivers_two :
    (pushAll ⟨[0x4E, 0xF0], true, true⟩
      ([⟨[], [[0x70, 0x70, 0x05, 0xC0, 0x79, 0x12, 0x45, 0x00]], [0x70, 0x70], 0⟩,
        ⟨[0x05, 0xC0, 0x79, 0x12, 0x45, 0x01], [], [], 2⟩].map fun q =>
          (SectionPacket.payload q, SectionPacket.starts q))).2 =
      [⟨0x70, true, none, [0xC0, 0x79, 0x12, 0x45, 0x00], none⟩,
        ⟨0x70, true, none, [0xC0, 0x79, 0x12, 0x45, 0x01], none⟩] := by
  have hcarries : Carries [] [[0x70, 0x70, 0x05, 0xC0, 0x79, 0x12, 0x45, 0x00],
        [0x70, 0x70, 0x05, 0xC0, 0x79, 0x12, 0x45, 0x01]]
      [⟨[], [[0x70, 0x70, 0x05, 0xC0, 0x79, 0x12, 0x45, 0x00]], [0x70, 0x70], 0⟩,
        ⟨[0x05, 0xC0, 0x79, 0x12, 0x45, 0x01], [], [], 2⟩] :=
    @Carries.broken [] [0x70, 0x70] [0x05, 0xC0, 0x79, 0x12, 0x45, 0x01]
      [[0x70, 0x70, 0x05, 0xC0, 0x79, 0x12, 0x45, 0x00]] [] _ nofun nofun
      (@Carries.resting _ [] [] _ 2 .done)
  have hsections : List.Forall₂ (IsSection true)
      [⟨0x70, true, none, [0xC0, 0x79, 0x12, 0x45, 0x00], none⟩,
        ⟨0x70, true, none, [0xC0, 0x79, 0x12, 0x45, 0x01], none⟩]
      [[0x70, 0x70, 0x05, 0xC0, 0x79, 0x12, 0x45, 0x00],
        [0x70, 0x70, 0x05, 0xC0, 0x79, 0x12, 0x45, 0x01]] := .cons rfl (.cons rfl .nil)
  exact pushAll_delivers ⟨[0x4E, 0xF0], true, true⟩ hcarries rfl hsections (by decide)

end SectionBuffer

end DvbHost
