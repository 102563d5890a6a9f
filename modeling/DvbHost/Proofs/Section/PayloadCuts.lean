import DvbHost.Proofs.Section.Reassembly

/-!
# Payloads that are cut

What a buffer makes of octets does not depend on where they are cut. `Drains` says how octets are
drained without counting steps, and octets behind drained ones go on where these were left
(`Drains.append`). A buffer has room for one section of the greatest length and takes no more of a
payload than there is room for, even if sections in it become whole and make room. So the octets up
to there are taken as if they had come on their own, and the others are lost (`push_append`).
-/

namespace DvbHost

set_option autoImplicit false

namespace SectionBuffer

variable {verifyCrc : Bool} {bs x y : Bytes} {d e : Drained} {s : Section} {n : Nat}

/-! ## Draining -/

/-- How octets are drained. -/
inductive Drains (verifyCrc : Bool) : Bytes → Drained → Prop
  /-- Octets are missing, or stuffing is at the front. -/
  | rest {bs : Bytes} (atRest : AtRest verifyCrc bs) : Drains verifyCrc bs ⟨[], bs, false⟩
  | taken {bs : Bytes} {s : Section} {n : Nat} {d : Drained}
      (front : Section.ofBytes bs verifyCrc = .ok (s, n)) (next : Drains verifyCrc (bs.drop n) d) :
      Drains verifyCrc bs { d with sections := s :: d.sections }
  /-- The section at the front has a wrong checksum. -/
  | passed {bs : Bytes} {d : Drained} (front : Section.ofBytes bs verifyCrc = .error .crcMismatch)
      (next : Drains verifyCrc (bs.drop (statedSize bs)) d) : Drains verifyCrc bs d
  /-- The section at the front cannot have the length that its header states. -/
  | corrupt {bs : Bytes} {e : SiError} (front : Section.ofBytes bs verifyCrc = .error e)
      (defect : e ≠ .truncatedData ∧ e ≠ .endOfPsi ∧ e ≠ .crcMismatch) :
      Drains verifyCrc bs ⟨[], [], true⟩

/-- A section with a wrong checksum is there as a whole. -/
theorem statedSize_of_mismatch (h : Section.ofBytes bs verifyCrc = .error .crcMismatch) :
    3 ≤ statedSize bs ∧ statedSize bs ≤ bs.length := by
  match bs, h with
  | tableId :: b1 :: b2 :: tail, h =>
    rw [Section.ofBytes_cons] at h
    split at h
    · cases h
    · split at h
      · cases h
      · split at h
        · cases h
        · next hsplit =>
          exact ⟨Nat.le_add_right .., (Bytes.split?_eq_some.mp hsplit).1⟩

theorem statedSize_append (h : 3 ≤ bs.length) (y : Bytes) : statedSize (bs ++ y) = statedSize bs := by
  match bs, h with
  | _ :: _ :: _ :: _, _ => rfl

/-- Every round takes three octets or more, so a third of their number bounds the rounds. -/
theorem Drains.drainWithin_eq (h : Drains verifyCrc bs d) {fuel : Nat} (hfuel : bs.length < 3 * fuel) :
    drainWithin verifyCrc fuel bs = d := by
  induction h generalizing fuel with
  | rest atRest => exact drainWithin_atRest atRest fuel
  | taken front _ ih =>
    obtain ⟨fuel, rfl⟩ := Nat.exists_eq_add_one_of_ne_zero (by omega : fuel ≠ 0)
    have hsize := Section.size_of_ofBytes front
    rw [drainWithin, front]
    dsimp only
    rw [ih (by rw [List.length_drop]; omega)]
  | passed front _ ih =>
    obtain ⟨fuel, rfl⟩ := Nat.exists_eq_add_one_of_ne_zero (by omega : fuel ≠ 0)
    have hsize := statedSize_of_mismatch front
    rw [drainWithin, front]
    exact ih (by rw [List.length_drop]; omega)
  | corrupt front defect =>
    obtain ⟨fuel, rfl⟩ := Nat.exists_eq_add_one_of_ne_zero (by omega : fuel ≠ 0)
    obtain ⟨htruncated, hstuffing, hmismatch⟩ := defect
    rw [drainWithin, front]
    split <;> simp_all

theorem Drains.drain_eq (h : Drains verifyCrc bs d) : drain verifyCrc bs = d :=
  h.drainWithin_eq (by omega)

theorem exists_drains (verifyCrc : Bool) (bs : Bytes) : ∃ d, Drains verifyCrc bs d := by
  induction hlength : bs.length using Nat.strong_induction_on generalizing bs with
  | _ length ih =>
    have hshorter : ∀ n, 3 ≤ n → n ≤ bs.length → ∃ d, Drains verifyCrc (bs.drop n) d := by
      intro n hpos hle
      exact ih (bs.drop n).length (by rw [List.length_drop]; omega) _ rfl
    cases hfront : Section.ofBytes bs verifyCrc with
    | ok front =>
      have hsize := Section.size_of_ofBytes hfront
      obtain ⟨d, hd⟩ := hshorter front.2 hsize.1 hsize.2.2
      exact ⟨_, .taken hfront hd⟩
    | error e =>
      by_cases hmismatch : e = .crcMismatch
      · subst hmismatch
        obtain ⟨hpos, hle⟩ := statedSize_of_mismatch hfront
        obtain ⟨d, hd⟩ := hshorter _ hpos hle
        exact ⟨d, .passed hfront hd⟩
      · by_cases hrest : e = .truncatedData ∨ e = .endOfPsi
        · refine ⟨_, .rest ?_⟩
          rw [AtRest, hfront]
          exact hrest.imp (congrArg _) (congrArg _)
        · obtain ⟨htruncated, hstuffing⟩ := not_or.mp hrest
          exact ⟨_, .corrupt hfront ⟨htruncated, hstuffing, hmismatch⟩⟩

theorem drains_drain (verifyCrc : Bool) (bs : Bytes) : Drains verifyCrc bs (drain verifyCrc bs) := by
  obtain ⟨d, hd⟩ := exists_drains verifyCrc bs
  exact hd.drain_eq ▸ hd

/-- What is left is shorter, and unless a header was corrupt nothing more can be taken from it. -/
theorem Drains.left (h : Drains verifyCrc bs d) :
    d.rest.length ≤ bs.length ∧ if d.corrupt then d.rest = [] else AtRest verifyCrc d.rest := by
  induction h with
  | rest atRest => exact ⟨Nat.le_refl _, atRest⟩
  | taken _ _ ih | passed _ _ ih => exact ⟨ih.1.trans (by rw [List.length_drop]; exact Nat.sub_le ..), ih.2⟩
  | corrupt => exact ⟨Nat.zero_le _, rfl⟩

/-- What octets come to behind drained ones: behind a corrupt header they are lost, else they go on
where the drained ones were left. -/
def Continues (verifyCrc : Bool) (d : Drained) (y : Bytes) (e : Drained) : Prop :=
  if d.corrupt then e = ⟨[], [], true⟩ else Drains verifyCrc (d.rest ++ y) e

/-- Octets and octets behind them are drained one after the other. -/
theorem Drains.append (h : Drains verifyCrc x d) (he : Continues verifyCrc d y e) :
    Drains verifyCrc (x ++ y) { e with sections := d.sections ++ e.sections } := by
  induction h with
  | rest => exact he
  | @taken bs s n d front _ ih =>
    have hfront := (Section.ofBytes_append (by rw [front]; exact nofun) y).trans front
    have hnext := ih he
    rw [← List.drop_append_of_le_length (Section.size_of_ofBytes front).2.2] at hnext
    exact .taken hfront hnext
  | @passed bs d front _ ih =>
    have hfront := (Section.ofBytes_append (by rw [front]; exact nofun) y).trans front
    obtain ⟨hpos, hle⟩ := statedSize_of_mismatch front
    have hnext := ih he
    rw [← List.drop_append_of_le_length hle, ← statedSize_append (hpos.trans hle) y] at hnext
    exact .passed hfront hnext
  | @corrupt bs e' front defect =>
    have hfront := (Section.ofBytes_append (by rw [front]; simpa using defect.1) y).trans front
    obtain rfl : e = ⟨[], [], true⟩ := he
    exact .corrupt hfront defect

/-! ## Pushing -/

/-- How many octets the buffer takes next. -/
def room (b : SectionBuffer) : Nat := capacity - b.pending.length

/-- What more octets make of a buffer that knows its place. -/
theorem append_of_drains {pending data : Bytes}
    (h : Drains verifyCrc (pending ++ data.take (capacity - pending.length)) d) :
    append ⟨pending, true, verifyCrc⟩ data = (⟨d.rest, !d.corrupt, verifyCrc⟩, d.sections) := by
  rw [append, h.drain_eq, Bool.true_and]

/-- Octets that continue the pending ones are taken one after the other, as far as there was room for
all of them at first. -/
theorem append_append (pending x y : Bytes) :
    let b : SectionBuffer := ⟨pending, true, verifyCrc⟩
    let next := (b.append x).1.continuation (y.take (b.room - x.length))
    b.append (x ++ y) = (next.1, (b.append x).2 ++ next.2) := by
  intro b next
  obtain ⟨d, hd⟩ := exists_drains verifyCrc (pending ++ x.take b.room)
  have hx : b.append x = (⟨d.rest, !d.corrupt, verifyCrc⟩, d.sections) := append_of_drains hd
  have hnext : next = continuation ⟨d.rest, !d.corrupt, verifyCrc⟩ (y.take (b.room - x.length)) :=
    congrArg (fun r => continuation r.1 (y.take (b.room - x.length))) hx
  have hxy : ∀ e, Continues verifyCrc d (y.take (b.room - x.length)) e →
      b.append (x ++ y) = (⟨e.rest, !e.corrupt, verifyCrc⟩, d.sections ++ e.sections) := by
    intro e he
    have hboth := hd.append he
    rw [List.append_assoc, ← List.take_append] at hboth
    exact append_of_drains hboth
  obtain ⟨hlength, hleft⟩ := hd.left
  cases hcorrupt : d.corrupt with
  | true =>
    rw [hcorrupt, if_pos rfl] at hleft
    rw [hxy ⟨[], [], true⟩ (by rw [Continues, hcorrupt]; rfl), hnext, hx, hcorrupt, hleft]
    rfl
  | false =>
    obtain ⟨e, he⟩ := exists_drains verifyCrc (d.rest ++ y.take (b.room - x.length))
    -- what there was room for at first has room behind what is left of it
    have hroom : (y.take (b.room - x.length)).length ≤ capacity - d.rest.length := by
      have hpending : b.room = capacity - pending.length := rfl
      rw [List.length_append, List.length_take] at hlength
      rw [List.length_take]
      omega
    rw [hxy e (by rw [Continues, hcorrupt]; exact he), hnext, hx, hcorrupt, continuation,
      if_pos (Bool.not_false), Bool.not_false,
      append_of_drains (by rw [List.take_of_length_le hroom]; exact he)]

theorem push_of_not_synced {b : SectionBuffer} (h : b.synced = false) (data : Bytes) :
    b.push data false = (b, []) := by
  by_cases hdata : data = []
  · rw [hdata]
    rfl
  · rw [push_unmarked b data hdata, continuation, h, if_neg Bool.false_ne_true]

theorem push_synced (pending : Bytes) {data : Bytes} (h : data ≠ []) :
    push ⟨pending, true, verifyCrc⟩ data false = append ⟨pending, true, verifyCrc⟩ data :=
  push_unmarked _ data h

/-- Behind octets that were appended, no octets are no payload. -/
theorem push_append_synced (pending x data : Bytes) :
    (append ⟨pending, true, verifyCrc⟩ x).1.push data false =
      (append ⟨pending, true, verifyCrc⟩ x).1.continuation data := by
  by_cases hdata : data = []
  · obtain ⟨d, hd⟩ := exists_drains verifyCrc (pending ++ x.take (capacity - pending.length))
    have hleft := hd.left.2
    rw [hdata, append_of_drains hd]
    change (_, _) = continuation _ _
    cases hcorrupt : d.corrupt with
    | true => rfl
    | false =>
      rw [hcorrupt, if_neg Bool.false_ne_true] at hleft
      have hrest : Drains verifyCrc (d.rest ++ [].take (capacity - d.rest.length))
          ⟨[], d.rest, false⟩ := by
        rw [List.take_nil, List.append_nil]
        exact .rest hleft
      exact (append_of_drains hrest).symm
  · exact push_unmarked _ data hdata

/-- A payload that is cut in two is taken as its parts are: of the second as much as there was room
for behind the first, and all of it if that is so or if the buffer does not know its place. -/
theorem push_append (b : SectionBuffer) {x : Bytes} (hx : x ≠ []) (y : Bytes) :
    b.push (x ++ y) false = b.pushAll [(x, false), (y.take (b.room - x.length), false)] ∧
    (b.synced = false ∨ b.pending.length + x.length + y.length ≤ capacity →
      b.push (x ++ y) false = b.pushAll [(x, false), (y, false)]) := by
  cases hsynced : b.synced with
  | false =>
    have hpush := push_of_not_synced hsynced
    have hpushAll : ∀ data, b.pushAll [(x, false), (data, false)] = (b, []) := by
      intro data
      rw [pushAll, pushAll, pushAll, hpush, hpush]
      rfl
    rw [hpush, hpushAll, hpushAll]
    exact ⟨rfl, fun _ => rfl⟩
  | true =>
    obtain ⟨pending, synced, verifyCrc⟩ := b
    obtain rfl : synced = true := hsynced
    have hxy : x ++ y ≠ [] := List.append_ne_nil_of_left_ne_nil hx y
    have hcut : push ⟨pending, true, verifyCrc⟩ (x ++ y) false =
        pushAll ⟨pending, true, verifyCrc⟩
          [(x, false), (y.take (room ⟨pending, true, verifyCrc⟩ - x.length), false)] := by
      rw [pushAll, pushAll, pushAll, push_synced pending hxy, push_synced pending hx,
        push_append_synced, append_append, List.append_nil]
    refine ⟨hcut, fun hfits => ?_⟩
    have hroom : pending.length + x.length + y.length ≤ capacity := hfits.resolve_left Bool.false_ne_true.symm
    have hwhole : y.take (room ⟨pending, true, verifyCrc⟩ - x.length) = y := by
      refine List.take_of_length_le ?_
      change _ ≤ capacity - pending.length - x.length
      omega
    rwa [hwhole] at hcut

/-- A section for the time that is cut twice, the first time within its header. -/
theorem push_append_time :
    let b : SectionBuffer := ⟨[0x70, 0x70], true, true⟩
    [0x05, 0xC0, 0x79] ≠ ([] : Bytes) ∧ b.pending.length + 3 + 3 ≤ capacity ∧
      b.push ([0x05, 0xC0, 0x79] ++ [0x12, 0x45, 0x00]) false =
        b.pushAll [([0x05, 0xC0, 0x79], false), ([0x12, 0x45, 0x00], false)] := by
  intro b
  have hx : [0x05, 0xC0, 0x79] ≠ ([] : Bytes) := nofun
  have hroom : b.pending.length + 3 + 3 ≤ capacity := by decide
  exact ⟨hx, hroom, (push_append b hx [0x12, 0x45, 0x00]).2 (.inr hroom)⟩

/-! ## No room -/

/-- A section of the greatest length but for its last eight octets. -/
def almostLongest : Bytes := 0x70 :: 0x7F :: 0xFD :: List.replicate 4085 0x5A

def longest : Section := ⟨0x70, true, none, List.replicate 4093 0x5A, none⟩

def timeOctets : Bytes := [0x70, 0x70, 0x05, 0xC0, 0x79, 0x12, 0x45, 0x00]

def time : Section := ⟨0x70, true, none, [0xC0, 0x79, 0x12, 0x45, 0x00], none⟩

theorem isSection_longest : IsSection true longest (almostLongest ++ List.replicate 8 0x5A) := by
  have htail : List.replicate 4085 (0x5A : UInt8) ++ List.replicate 8 0x5A =
      List.replicate 4093 0x5A := List.replicate_append_replicate
  have hoctets : almostLongest ++ List.replicate 8 0x5A =
      0x70 :: 0x7F :: 0xFD :: List.replicate 4093 0x5A := by
    rw [almostLongest, List.cons_append, List.cons_append, List.cons_append, htail]
  have hlength : (0x70 :: 0x7F :: 0xFD :: List.replicate 4093 (0x5A : UInt8)).length =
      3 + Section.statedLength 0x7F 0xFD := by
    rw [List.length_cons, List.length_cons, List.length_cons, List.length_replicate]
    decide
  have hsplit := Bytes.split?_length (0x70 :: 0x7F :: 0xFD :: List.replicate 4093 0x5A) []
  rw [List.append_nil] at hsplit
  rw [IsSection, hoctets, Section.ofBytes_cons, if_neg (by decide), if_neg (by decide), ← hlength,
    hsplit]
  rfl

/-- The buffer behind the packets of such a section. -/
def almostFull : SectionBuffer := ((empty true).push (0 :: almostLongest) true).1

theorem length_almostLongest : almostLongest.length = 4088 := by
  rw [almostLongest, List.length_cons, List.length_cons, List.length_cons, List.length_replicate]

theorem almostFull_eq : almostFull = ⟨almostLongest, true, true⟩ := by
  have hatRest : AtRest true almostLongest := atRest_begun isSection_longest nofun
  have hroom : almostLongest.length ≤ capacity - 0 := by
    rw [length_almostLongest]
    decide
  have hrest : Drains true ([] ++ almostLongest.take (capacity - 0)) ⟨[], almostLongest, false⟩ := by
    rw [List.nil_append, List.take_of_length_le hroom]
    exact .rest hatRest
  have hpush : (empty true).push (0 :: almostLongest) true = append ⟨[], true, true⟩ almostLongest :=
    push_start (empty true) almostLongest
  rw [almostFull, hpush, append_of_drains hrest]
  rfl

/-- Of what follows, the last octets of the section fill the buffer. -/
theorem append_almostLongest (data : Bytes) :
    append ⟨almostLongest, true, true⟩ (List.replicate 8 0x5A ++ data) =
      (⟨[], true, true⟩, [longest]) := by
  have hroom : capacity - almostLongest.length = (List.replicate 8 (0x5A : UInt8)).length := by
    rw [length_almostLongest]
    rfl
  have hnext : Drains true ((almostLongest ++ List.replicate 8 0x5A).drop
      (almostLongest ++ List.replicate 8 0x5A).length) ⟨[], [], false⟩ := by
    rw [List.drop_length]
    exact .rest (.inl rfl)
  refine append_of_drains (d := ⟨[longest], [], false⟩) ?_
  rw [hroom, List.take_left]
  exact .taken isSection_longest hnext

/-- Octets behind the end of a section are lost for want of room, although the section makes room
when it becomes whole; on their own they are taken. -/
theorem push_almostFull :
    (almostFull.push (List.replicate 8 0x5A ++ timeOctets) false).2 = [longest] ∧
    (almostFull.pushAll [(List.replicate 8 0x5A, false), (timeOctets, false)]).2 =
      [longest, time] := by
  have hne : List.replicate 8 (0x5A : UInt8) ≠ [] := by decide
  have hone : almostFull.push (List.replicate 8 0x5A ++ timeOctets) false =
      (⟨[], true, true⟩, [longest]) := by
    rw [almostFull_eq, push_synced almostLongest (List.append_ne_nil_of_left_ne_nil hne _)]
    exact append_almostLongest timeOctets
  have htwo : almostFull.push (List.replicate 8 0x5A) false = (⟨[], true, true⟩, [longest]) := by
    rw [almostFull_eq, push_synced almostLongest hne]
    exact append_almostLongest []
  have htime : push ⟨[], true, true⟩ timeOctets false = (⟨[], true, true⟩, [time]) := by rfl
  rw [pushAll, pushAll, pushAll, hone, htwo, htime]
  exact ⟨rfl, rfl⟩

end SectionBuffer

end DvbHost
