import DvbHost.Proofs.Section.Framing
import DvbHost.Proofs.Section.PayloadCuts

/-!
# What a buffer holds between payloads

`Sound` is the invariant of a buffer: the octets that it holds are at rest, they are no more than a
section can have, and a buffer that does not know its place holds none. Whatever is pushed keeps it
(`sound_after`). A full buffer holds stuffing, because a section that lacks octets leaves room for
them; so no section is kept from coming out (`Unblocked`). Draining ends because each of its rounds
takes three octets or more (`length_lt_of_round`).
-/

namespace DvbHost

set_option autoImplicit false

namespace Section

variable {bs : Bytes} {verifyCrc : Bool} {tableId b1 b2 : UInt8} {tail : Bytes} {s : Section}
  {n : Nat} {e : SiError}

/-! ## Why there is no section at the front -/

theorem checksumOf_error {whole : Bytes} (h : checksumOf whole verifyCrc = .error e) :
    e = .lengthMismatch ∨ e = .crcMismatch := by
  rw [checksumOf] at h
  split_ifs at h
  · exact .inl (Except.error.inj h).symm
  · exact .inr (Except.error.inj h).symm

theorem extendedParts_error (h : extendedParts tail = .error e) : e = .lengthMismatch := by
  rw [extendedParts.eq_def] at h
  split at h
  · split_ifs at h
    exact (Except.error.inj h).symm
  · exact (Except.error.inj h).symm

/-- Of a whole section a length or the checksum can be wrong. -/
theorem ofWhole_error (h : ofWhole (tableId :: b1 :: b2 :: tail) verifyCrc = .error e) :
    e = .lengthMismatch ∨ e = .crcMismatch := by
  rw [ofWhole] at h
  split_ifs at h with hextended hid
  · cases hcrc : checksumOf (tableId :: b1 :: b2 :: tail) verifyCrc with
    | error e' =>
      rw [hcrc] at h
      exact Except.error.inj h ▸ checksumOf_error hcrc
    | ok crc =>
      cases hparts : extendedParts tail with
      | error e' =>
        rw [hcrc, hparts] at h
        exact .inl (Except.error.inj h ▸ extendedParts_error hparts)
      | ok parts =>
        rw [hcrc, hparts] at h
        cases h
  · cases hcrc : checksumOf (tableId :: b1 :: b2 :: tail) verifyCrc with
    | error e' =>
      rw [hcrc] at h
      exact Except.error.inj h ▸ checksumOf_error hcrc
    | ok crc =>
      rw [hcrc] at h
      cases h

/-- Why no section is read from the front of three octets or more. -/
theorem ofBytes_error (h : ofBytes (tableId :: b1 :: b2 :: tail) verifyCrc = .error e) :
    (e = .endOfPsi ∧ tableId = 0xFF) ∨
    (e = .truncatedData ∧ statedLength b1 b2 ≤ maxLength ∧
      (tableId :: b1 :: b2 :: tail).length < 3 + statedLength b1 b2) ∨
    e = .lengthMismatch ∨ e = .crcMismatch := by
  rw [ofBytes_cons] at h
  split at h
  · next hid => exact .inl ⟨(Except.error.inj h).symm, hid⟩
  · split at h
    · exact .inr (.inr (.inl (Except.error.inj h).symm))
    · next hmax =>
      split at h
      · next hsplit =>
        refine .inr (.inl ⟨(Except.error.inj h).symm, Nat.not_lt.mp hmax, ?_⟩)
        rw [Bytes.split?] at hsplit
        split_ifs at hsplit with hle
        exact Nat.not_le.mp hle
      · next whole rest hsplit =>
        have hwhole : whole = tableId :: b1 :: b2 :: tail.take (statedLength b1 b2) := by
          obtain ⟨-, rfl, -⟩ := Bytes.split?_eq_some.mp hsplit
          rw [Nat.add_comm]
          rfl
        cases hread : ofWhole whole verifyCrc with
        | error e' =>
          rw [hread] at h
          rw [hwhole] at hread
          exact .inr (.inr (Except.error.inj h ▸ ofWhole_error hread))
        | ok s =>
          rw [hread] at h
          cases h

/-- A section that lacks octets is shorter than the longest one. -/
theorem length_lt_of_truncated (h : ofBytes bs verifyCrc = .error .truncatedData) :
    bs.length < 3 + maxLength := by
  match bs, h with
  | tableId :: b1 :: b2 :: tail, h =>
    obtain ⟨he, -⟩ | ⟨-, hmax, hlt⟩ | he | he := ofBytes_error h
    · cases he
    · omega
    · cases he
    · cases he
  | [], _ | [_], _ | [_, _], _ =>
    simp only [List.length_cons, List.length_nil]
    omega

theorem head?_of_endOfPsi (h : ofBytes bs verifyCrc = .error .endOfPsi) : bs.head? = some 0xFF := by
  match bs, h with
  | tableId :: b1 :: b2 :: tail, h =>
    obtain ⟨-, rfl⟩ | ⟨he, -⟩ | he | he := ofBytes_error h
    · rfl
    · cases he
    · cases he
    · cases he

/-- For a section that is there as a whole, nothing behind it is needed. -/
theorem ofBytes_take_of_le (h : ofBytes bs verifyCrc = .ok (s, n)) {k : Nat} (hk : n ≤ k) :
    ofBytes (bs.take k) verifyCrc = .ok (s, n) := by
  by_cases htruncated : ofBytes (bs.take k) verifyCrc = .error .truncatedData
  · obtain ⟨tableId, b1, b2, tail, rest, rfl, -, rfl, hstated, -, -⟩ := ofBytes_form h
    obtain ⟨k, rfl⟩ := Nat.exists_eq_add_of_le' (Nat.le_of_add_right_le hk)
    obtain ⟨he, -⟩ | ⟨-, -, hlt⟩ | he | he := ofBytes_error htruncated
    · cases he
    · simp only [List.length_cons, List.length_take, List.length_append] at hlt
      omega
    · cases he
    · cases he
  · have hsame := ofBytes_append htruncated (bs.drop k)
    rw [List.take_append_drop] at hsame
    exact hsame.symm.trans h

end Section

namespace SectionBuffer

variable {verifyCrc : Bool} {bs pending data : Bytes} {b : SectionBuffer} {s : Section} {n : Nat}

/-! ## One round of draining -/

/-- What one round takes from the front: a section, or the octets of one with a wrong checksum. -/
def round (verifyCrc : Bool) (bs : Bytes) : Option (Option Section × Bytes) :=
  match Section.ofBytes bs verifyCrc with
  | .ok (s, size) => some (some s, bs.drop size)
  | .error .crcMismatch => some (none, bs.drop (statedSize bs))
  | .error _ => none

theorem round_of_atRest (h : AtRest verifyCrc bs) : round verifyCrc bs = none := by
  obtain h | h := h <;> rw [round, h]

theorem round_cases {taken : Option Section} {rest : Bytes}
    (h : round verifyCrc bs = some (taken, rest)) :
    (∃ s n, Section.ofBytes bs verifyCrc = .ok (s, n) ∧ taken = some s ∧ rest = bs.drop n) ∨
    (Section.ofBytes bs verifyCrc = .error .crcMismatch ∧ taken = none ∧
      rest = bs.drop (statedSize bs)) := by
  rw [round] at h
  split at h
  · next s n hfront =>
    cases h
    exact .inl ⟨s, n, hfront, rfl, rfl⟩
  · next hfront =>
    cases h
    exact .inr ⟨hfront, rfl, rfl⟩
  · cases h

/-- A round takes three octets or more. -/
theorem length_lt_of_round {taken : Option Section} {rest : Bytes}
    (h : round verifyCrc bs = some (taken, rest)) : rest.length + 3 ≤ bs.length := by
  obtain ⟨s, n, hfront, -, rfl⟩ | ⟨hfront, -, rfl⟩ := round_cases h
  · have hsize := Section.size_of_ofBytes hfront
    rw [List.length_drop]
    omega
  · have hsize := statedSize_of_mismatch hfront
    rw [List.length_drop]
    omega

/-- Draining is a round, and then draining what the round leaves. -/
theorem drain_of_round {taken : Option Section} {rest : Bytes}
    (h : round verifyCrc bs = some (taken, rest)) :
    drain verifyCrc bs = { drain verifyCrc rest with
      sections := taken.toList ++ (drain verifyCrc rest).sections } := by
  obtain ⟨s, n, hfront, rfl, rfl⟩ | ⟨hfront, rfl, rfl⟩ := round_cases h
  · exact (Drains.taken hfront (drains_drain verifyCrc _)).drain_eq
  · exact (Drains.passed hfront (drains_drain verifyCrc _)).drain_eq

/-- It ends where no round is possible. -/
theorem round_rest_drain (verifyCrc : Bool) (bs : Bytes) :
    round verifyCrc (drain verifyCrc bs).rest = none := by
  have hleft := (drains_drain verifyCrc bs).left.2
  split_ifs at hleft
  · rw [hleft]
    rfl
  · exact round_of_atRest hleft

/-! ## The invariant -/

structure Sound (verifyCrc : Bool) (b : SectionBuffer) : Prop where
  checks : b.verifyCrc = verifyCrc
  unsynced : b.synced = false → b.pending = []
  fits : b.pending.length ≤ capacity
  atRest : AtRest verifyCrc b.pending

theorem sound_empty (verifyCrc : Bool) : Sound verifyCrc (empty verifyCrc) :=
  ⟨rfl, fun _ => rfl, Nat.zero_le _, .inl rfl⟩

theorem sound_reset (h : b.verifyCrc = verifyCrc) : Sound verifyCrc b.reset :=
  ⟨h, fun _ => rfl, Nat.zero_le _, .inl rfl⟩

/-- Octets are appended as far as there is room, and what is left of them is at rest. -/
theorem sound_append (hfits : pending.length ≤ capacity) (data : Bytes) :
    Sound verifyCrc (append ⟨pending, true, verifyCrc⟩ data).1 := by
  obtain ⟨d, hd⟩ := exists_drains verifyCrc (pending ++ data.take (capacity - pending.length))
  obtain ⟨hlength, hleft⟩ := hd.left
  rw [List.length_append, List.length_take] at hlength
  rw [append_of_drains hd]
  cases hcorrupt : d.corrupt with
  | true =>
    rw [hcorrupt, if_pos rfl] at hleft
    rw [hleft]
    exact ⟨rfl, fun _ => rfl, Nat.zero_le _, .inl rfl⟩
  | false =>
    rw [hcorrupt, if_neg Bool.false_ne_true] at hleft
    exact ⟨rfl, nofun, by dsimp only; omega, hleft⟩

theorem Sound.continuation (h : Sound verifyCrc b) (data : Bytes) :
    Sound verifyCrc (b.continuation data).1 := by
  obtain ⟨pending, synced, verifyCrc⟩ := b
  obtain rfl := h.checks
  cases synced with
  | false => exact h
  | true => exact sound_append h.fits data

/-- What a marked payload makes of a buffer: the octets before the start end what was under way, and
those behind it are taken by a buffer that holds nothing. -/
theorem push_marked_eq (b : SectionBuffer) {previous : Bytes} (hprevious : previous.length < 256)
    (next : Bytes) :
    ∃ ended, b.push (UInt8.ofNat previous.length :: (previous ++ next)) true =
      ((append ⟨[], true, b.verifyCrc⟩ next).1,
        ended ++ (append ⟨[], true, b.verifyCrc⟩ next).2) := by
  have hpointer : (UInt8.ofNat previous.length).toNat = previous.length := by
    rw [UInt8.toNat_ofNat']
    exact Nat.mod_eq_of_lt hprevious
  have hchecks : (b.continuation previous).1.verifyCrc = b.verifyCrc := by
    rw [continuation]
    split <;> rfl
  rw [push, if_pos rfl, hpointer, Bytes.split?_length]
  dsimp only
  split_ifs
  · exact ⟨[], rfl⟩
  · exact ⟨(b.continuation previous).2, by rw [hchecks]⟩

/-- Every payload keeps the invariant. -/
theorem Sound.push (h : Sound verifyCrc b) (payload : Bytes) (unitStart : Bool) :
    Sound verifyCrc (b.push payload unitStart).1 := by
  cases payload with
  | nil => exact h
  | cons pointer tail =>
    cases unitStart with
    | false => exact h.continuation (pointer :: tail)
    | true =>
      cases hsplit : Bytes.split? pointer.toNat tail with
      | none =>
        rw [SectionBuffer.push, if_pos rfl, hsplit]
        exact sound_reset h.checks
      | some parts =>
        obtain ⟨previous, next⟩ := parts
        obtain ⟨hle, hprevious, hnext⟩ := Bytes.split?_eq_some.mp hsplit
        have hlength : previous.length = pointer.toNat := by
          rw [hprevious, List.length_take_of_le hle]
        have htail : tail = previous ++ next := by
          rw [hprevious, hnext, List.take_append_drop]
        obtain ⟨ended, hpush⟩ := push_marked_eq b (hlength ▸ pointer.toNat_lt) next
        rw [hlength, UInt8.ofNat_toNat, ← htail] at hpush
        rw [hpush, h.checks]
        exact sound_append (Nat.zero_le _) next

/-- What can be done to a buffer. -/
inductive Action
  | push (payload : Bytes) (unitStart : Bool)
  | reset

def act (b : SectionBuffer) : Action → SectionBuffer
  | .push payload unitStart => (b.push payload unitStart).1
  | .reset => b.reset

/-- The buffer after actions, from an empty one on. -/
def after (verifyCrc : Bool) (actions : List Action) : SectionBuffer :=
  actions.foldl act (empty verifyCrc)

theorem Sound.act (h : Sound verifyCrc b) (a : Action) : Sound verifyCrc (b.act a) := by
  cases a with
  | push payload unitStart => exact h.push payload unitStart
  | reset => exact sound_reset h.checks

theorem sound_after (verifyCrc : Bool) (actions : List Action) :
    Sound verifyCrc (after verifyCrc actions) := by
  induction actions using List.reverseRecOn with
  | nil => exact sound_empty verifyCrc
  | append_singleton actions a ih =>
    rw [after, List.foldl_append]
    exact ih.act a

/-! ## No section is kept from coming out -/

/-- A section that begins with the octets in a buffer comes out once the others are appended. -/
theorem append_front (hfits : pending.length ≤ capacity)
    (h : Section.ofBytes (pending ++ data) verifyCrc = .ok (s, n)) :
    ∃ later, (append ⟨pending, true, verifyCrc⟩ data).2 = s :: later := by
  have htaken : (pending ++ data).take capacity =
      pending ++ data.take (capacity - pending.length) := by
    rw [List.take_append, List.take_of_length_le hfits]
  have hfront := Section.ofBytes_take_of_le h (Section.size_of_ofBytes h).2.1
  change Section.ofBytes ((pending ++ data).take capacity) verifyCrc = .ok (s, n) at hfront
  rw [htaken] at hfront
  obtain ⟨d, hd⟩ := exists_drains verifyCrc
    ((pending ++ data.take (capacity - pending.length)).drop n)
  exact ⟨d.sections, by rw [append_of_drains (.taken hfront hd)]⟩

/-- A section that lacks octets leaves room for them, so a full buffer holds stuffing. -/
theorem Sound.stuffing_of_full (h : Sound verifyCrc b) (hfull : b.pending.length = capacity) :
    Section.ofBytes b.pending verifyCrc = .error .endOfPsi :=
  h.atRest.resolve_left fun htruncated =>
    absurd hfull (Nat.ne_of_lt (Section.length_lt_of_truncated htruncated))

/-- What a buffer holds does not keep a section from coming out. -/
structure Unblocked (verifyCrc : Bool) (b : SectionBuffer) : Prop where
  /-- What a full buffer holds is the beginning of no section. -/
  full : b.pending.length = capacity →
    ∀ x, Section.ofBytes (b.pending ++ x) verifyCrc = .error .endOfPsi
  /-- The section under way comes out with the payload that brings its last octets. -/
  continued : b.synced = true → ∀ rest s n,
    Section.ofBytes (b.pending ++ rest) verifyCrc = .ok (s, n) →
      ∃ later, (b.push rest false).2 = s :: later
  /-- A section that begins at the start in a marked payload, and is there as a whole, comes out. -/
  begun : ∀ previous next s n, previous.length < 256 → Section.ofBytes next verifyCrc = .ok (s, n) →
    s ∈ (b.push (UInt8.ofNat previous.length :: (previous ++ next)) true).2

theorem Sound.unblocked (h : Sound verifyCrc b) : Unblocked verifyCrc b := by
  obtain ⟨pending, synced, verifyCrc⟩ := b
  obtain rfl := h.checks
  refine ⟨fun hfull => ?_, fun hsynced rest s n hs => ?_, fun previous next s n hprevious hs => ?_⟩
  · have hstuffing := h.stuffing_of_full hfull
    exact fun x => (Section.ofBytes_append (by rw [hstuffing]; nofun) x).trans hstuffing
  · obtain rfl : synced = true := hsynced
    have hrest : rest ≠ [] := by
      rintro rfl
      rw [List.append_nil] at hs
      obtain hrest | hrest := h.atRest <;> rw [hs] at hrest <;> cases hrest
    rw [push_synced pending hrest]
    exact append_front h.fits hs
  · obtain ⟨ended, hpush⟩ := push_marked_eq ⟨pending, synced, verifyCrc⟩ hprevious next
    obtain ⟨later, hlater⟩ := @append_front _ [] next _ _ (Nat.zero_le _) hs
    rw [hpush, hlater]
    exact List.mem_append_right ended List.mem_cons_self

/-- After any pushes and resets, a buffer that does not know its place is empty; the octets that are
pending are at most 4096, and what is read from their front is that octets are missing or that
stuffing begins; if the buffer is full they begin with stuffing; and no section is kept from coming
out. Draining ends: it goes on in rounds of which each takes three octets or more, stops where no
round is possible, and needs no more rounds than a third of the octets. -/
theorem pending_atRest (verifyCrc : Bool) (actions : List Action) :
    let b := after verifyCrc actions
    (b.synced = false → b.pending = []) ∧
    b.pending.length ≤ 4096 ∧
    (Section.ofBytes b.pending verifyCrc = .error .truncatedData ∨
      Section.ofBytes b.pending verifyCrc = .error .endOfPsi) ∧
    (b.pending.length = 4096 → b.pending.head? = some 0xFF) ∧
    Unblocked verifyCrc b ∧
    ∀ bs : Bytes,
      (∀ taken rest, round verifyCrc bs = some (taken, rest) →
        rest.length + 3 ≤ bs.length ∧ drain verifyCrc bs = { drain verifyCrc rest with
          sections := taken.toList ++ (drain verifyCrc rest).sections }) ∧
      round verifyCrc (drain verifyCrc bs).rest = none ∧
      ∀ fuel, bs.length < 3 * fuel → drainWithin verifyCrc fuel bs = drain verifyCrc bs := by
  intro b
  have hsound : Sound verifyCrc b := sound_after verifyCrc actions
  refine ⟨hsound.unsynced, hsound.fits, hsound.atRest, fun hfull => ?_, hsound.unblocked,
    fun bs => ⟨fun taken rest h => ⟨length_lt_of_round h, drain_of_round h⟩,
      round_rest_drain verifyCrc bs, fun fuel => (drains_drain verifyCrc bs).drainWithin_eq⟩⟩
  exact Section.head?_of_endOfPsi (hsound.stuffing_of_full hfull)

/-- A buffer that was reset within a section; one that is full of stuffing; one that holds the
header of a section and is given the rest of it; and a round that takes this section. -/
theorem pending_atRest_cases :
    (after true [.push [0x00, 0x70] true, .reset]).pending = [] ∧
    (after true [.push (0x00 :: List.replicate 4096 0xFF) true]).pending.head? = some 0xFF ∧
    (∃ later, ((after true [.push [0x00, 0x70, 0x70, 0x05] true]).push
      [0xC0, 0x79, 0x12, 0x45, 0x00] false).2 = time :: later) ∧
    [0xFF].length + 3 ≤ (timeOctets ++ [0xFF]).length := by
  have hstuffing : ∀ next, (append ⟨[], true, true⟩ next).1.pending.length = 4096 →
      (after true [.push (0x00 :: next) true]).pending.head? = some 0xFF :=
    fun next => (pending_atRest true [.push (0x00 :: next) true]).2.2.2.1
  have hfull : (append ⟨[], true, true⟩ (List.replicate 4096 0xFF)).1.pending.length = 4096 := by
    have happend := @append_start true [] [] _ .nil (atRest_stuffing 4096)
      (by rw [List.flatten_nil, List.nil_append, List.length_replicate]; exact Nat.le_refl _)
    rw [List.flatten_nil, List.nil_append] at happend
    rw [happend, List.length_replicate]
  have hpending : (after true [.push [0x00, 0x70, 0x70, 0x05] true]).pending =
      [0x70, 0x70, 0x05] := rfl
  have htime : Section.ofBytes ((after true [.push [0x00, 0x70, 0x70, 0x05] true]).pending ++
      [0xC0, 0x79, 0x12, 0x45, 0x00]) true = .ok (time, 8) := by
    rw [hpending]
    decide
  have hunblocked := (pending_atRest true [.push [0x00, 0x70, 0x70, 0x05] true]).2.2.2.2.1
  have hround : round true (timeOctets ++ [0xFF]) = some (some time, [0xFF]) := rfl
  exact ⟨(pending_atRest true [.push [0x00, 0x70] true, .reset]).1 rfl, hstuffing _ hfull,
    hunblocked.continued rfl _ time 8 htime,
    (((pending_atRest true []).2.2.2.2.2 _).1 _ _ hround).1⟩

end SectionBuffer

end DvbHost
