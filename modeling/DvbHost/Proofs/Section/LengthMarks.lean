import DvbHost.Proofs.Section.Writing

/-!
# Parts behind their lengths

The length of a part is left open while the part is written, and filled in at its end; parts may
stand within parts. `extent` counts, from the steps alone, the octets up to the end of a part, and
`Laid` says from the steps alone what is to stand in the section. What a draft holds agrees with it
because an end changes nothing but the two octets that were left open at its beginning
(`endLength_put`). A part that twelve bits cannot measure is refused and left as it is.
-/

namespace DvbHost

set_option autoImplicit false

namespace SectionDraft

/-! ## Steps of writing -/

inductive Step
  | octets (bs : Bytes)
  | loop (l : DescriptorLoop)
  | beginPart
  | endPart

/-- A draft while steps are made. -/
structure Progress where
  draft : SectionDraft
  /-- Where lengths are open, that of the innermost part first. -/
  marks : List LengthMark
  /-- What was said at the ends of parts. -/
  outcomes : List (Except SiError Unit)

/-- A part that ends is the innermost. -/
def Progress.next (p : Progress) : Step → Progress
  | .octets bs => { p with draft := p.draft.put bs }
  | .loop l => ⟨(p.draft.putLoop l).2, p.marks, p.outcomes ++ [(p.draft.putLoop l).1]⟩
  | .beginPart => ⟨p.draft.beginLength.1, p.draft.beginLength.2 :: p.marks, p.outcomes⟩
  | .endPart =>
    match p.marks with
    | [] => p
    | m :: marks => ⟨(p.draft.endLength m).2, marks, p.outcomes ++ [(p.draft.endLength m).1]⟩

def write (d : SectionDraft) (steps : List Step) : Progress := steps.foldl Progress.next ⟨d, [], []⟩

/-- With so many parts open at first, no end lacks its beginning, and none is open at last. -/
def nested : (depth : Nat) → List Step → Bool
  | depth, [] => depth == 0
  | depth, .octets _ :: steps | depth, .loop _ :: steps => nested depth steps
  | depth, .beginPart :: steps => nested (depth + 1) steps
  | 0, .endPart :: _ => false
  | depth + 1, .endPart :: steps => nested depth steps

/-- How many octets are written until the part ends within which `depth` parts are open. -/
def extent : (depth : Nat) → List Step → Nat
  | _, [] => 0
  | depth, .octets bs :: steps => bs.length + extent depth steps
  | depth, .loop l :: steps => 2 + l.toBytes.length + extent depth steps
  | depth, .beginPart :: steps => 2 + extent (depth + 1) steps
  | 0, .endPart :: _ => 0
  | depth + 1, .endPart :: steps => extent depth steps

/-- Two octets: four ones, and the number in twelve bits. -/
structure LengthField (field : Bytes) (n : Nat) : Prop where
  length : field.length = 2
  ones : bits 12 4 field.number = 0xF
  number : bits 0 12 field.number = n

/-- What steps are to write: the octets in the order in which they are put, and at the beginning of
each part the number of octets from there to its end. -/
inductive Laid : List Step → Bytes → Prop
  | nil : Laid [] []
  | octets {steps : List Step} {out : Bytes} (bs : Bytes) (next : Laid steps out) :
      Laid (.octets bs :: steps) (bs ++ out)
  | loop {steps : List Step} {field out : Bytes} {l : DescriptorLoop}
      (hfield : LengthField field l.toBytes.length) (next : Laid steps out) :
      Laid (.loop l :: steps) (field ++ l.toBytes ++ out)
  | beginPart {steps : List Step} {field out : Bytes} (hfield : LengthField field (extent 0 steps))
      (next : Laid steps out) : Laid (.beginPart :: steps) (field ++ out)
  | endPart {steps : List Step} {out : Bytes} (next : Laid steps out) : Laid (.endPart :: steps) out

variable {steps rest : List Step} {d : SectionDraft} {depth n : Nat}

/-! ## One part -/

/-- The length field of a part, which stays open if the part is too long. -/
def fieldOf (n : Nat) : Bytes := Bytes.ofNumber 2 (0xF000 + if n ≤ 0x0FFF then n else 0)

def endOutcome (n : Nat) : Except SiError Unit :=
  if n ≤ 0x0FFF then .ok () else .error .lengthMismatch

theorem length_fieldOf (n : Nat) : (fieldOf n).length = 2 := Bytes.length_ofNumber 2 _

theorem endOutcome_eq_ok : endOutcome n = .ok () ↔ n ≤ 4095 := by
  rw [endOutcome]
  split_ifs with h
  · exact iff_of_true rfl h
  · exact iff_of_false nofun h

theorem endOutcome_eq_error : endOutcome n = .error .lengthMismatch ↔ 4095 < n := by
  rw [endOutcome]
  split_ifs with h
  · exact iff_of_false nofun (Nat.not_lt.mpr h)
  · exact iff_of_true rfl (Nat.not_le.mp h)

theorem lengthField_fieldOf (h : n ≤ 4095) : LengthField (fieldOf n) n := by
  have hnumber : (fieldOf n).number = 0xF000 + n := by
    rw [fieldOf, if_pos h]
    exact Bytes.number_ofNumber_of_lt (by omega)
  refine ⟨length_fieldOf n, ?_, ?_⟩
  · rw [hnumber, bits_eq]
    omega
  · rw [hnumber, bits_eq]
    omega

theorem put_put (d : SectionDraft) (x y : Bytes) : (d.put x).put y = d.put (x ++ y) := by
  rw [put, put, put, List.append_assoc]

/-- The end of a part fills in what was left open at its beginning, and touches nothing else. -/
theorem endLength_put (d : SectionDraft) (bs : Bytes) :
    (d.beginLength.1.put bs).endLength d.beginLength.2 =
      (endOutcome bs.length, d.put (fieldOf bs.length ++ bs)) := by
  have hposition : d.beginLength.2.position = d.body.length := rfl
  have hbody : (d.beginLength.1.put bs).body = d.body ++ ([0xF0, 0x00] ++ bs) :=
    List.append_assoc ..
  have hlength : (d.body ++ ([0xF0, 0x00] ++ bs)).length - d.body.length - 2 = bs.length := by
    simp only [List.length_append, List.length_cons, List.length_nil]
    omega
  have hbehind : (d.body ++ ([0xF0, 0x00] ++ bs)).drop (d.body.length + 2) = bs := by
    rw [List.drop_length_add_append]
    rfl
  rw [endLength, hposition, hbody, hlength, List.take_left, hbehind, endOutcome, fieldOf]
  split_ifs
  · rw [List.append_assoc]
    rfl
  · exact Prod.ext rfl (put_put d [0xF0, 0x00] bs)

theorem putLoop_eq (d : SectionDraft) (l : DescriptorLoop) :
    d.putLoop l = (endOutcome l.toBytes.length, d.put (fieldOf l.toBytes.length ++ l.toBytes)) :=
  endLength_put d l.toBytes

/-! ## Parts within parts -/

/-- Steps whose parts all begin and end among them. -/
inductive Balanced : List Step → Prop
  | nil : Balanced []
  | octets {steps : List Step} (bs : Bytes) (next : Balanced steps) : Balanced (.octets bs :: steps)
  | loop {steps : List Step} (l : DescriptorLoop) (next : Balanced steps) :
      Balanced (.loop l :: steps)
  | part {inner steps : List Step} (inside : Balanced inner) (next : Balanced steps) :
      Balanced (.beginPart :: (inner ++ .endPart :: steps))

theorem Balanced.nested_append (h : Balanced steps) (depth : Nat) (rest : List Step) :
    nested depth (steps ++ rest) = nested depth rest := by
  induction h generalizing depth rest with
  | nil => rfl
  | octets bs _ ih => exact ih depth rest
  | loop l _ ih => exact ih depth rest
  | @part inner steps _ _ ihInside ihNext =>
    rw [List.cons_append, List.append_assoc, nested, ihInside, List.cons_append, nested, ihNext]

theorem Balanced.nested (h : Balanced steps) : nested 0 steps = true := by
  have happend := h.nested_append 0 []
  rwa [List.append_nil] at happend

theorem Balanced.append {first second : List Step} (h : Balanced first) (h' : Balanced second) :
    Balanced (first ++ second) := by
  induction h with
  | nil => exact h'
  | octets bs _ ih => exact .octets bs ih
  | loop l _ ih => exact .loop l ih
  | part inside _ _ ih =>
    rw [List.cons_append, List.append_assoc]
    exact .part inside ih

/-- Steps that end `depth` parts that are open, one after the other. -/
inductive Ends : (depth : Nat) → List Step → Prop
  | none {steps : List Step} (h : Balanced steps) : Ends 0 steps
  | one {depth : Nat} {inner steps : List Step} (inside : Balanced inner)
      (next : Ends depth steps) : Ends (depth + 1) (inner ++ .endPart :: steps)

theorem Ends.behind (h : Ends depth steps) {first : List Step} (hfirst : Balanced first) :
    Ends depth (first ++ steps) := by
  cases h with
  | none h => exact .none (hfirst.append h)
  | one inside next =>
    rw [← List.append_assoc]
    exact .one (hfirst.append inside) next

theorem ends_of_nested (h : nested depth steps = true) : Ends depth steps := by
  induction steps generalizing depth with
  | nil =>
    obtain rfl := beq_iff_eq.mp h
    exact .none .nil
  | cons step steps ih =>
    cases step with
    | octets bs => exact (ih h).behind (.octets bs .nil)
    | loop l => exact (ih h).behind (.loop l .nil)
    | beginPart =>
      -- of the ends behind it, the first is that of the part that begins here
      cases @ih (depth + 1) h with
      | one inside next =>
        have hsteps := next.behind (.part inside .nil)
        rwa [List.cons_append, List.append_assoc] at hsteps
    | endPart =>
      cases depth with
      | zero => cases h
      | succ depth => exact .one .nil (ih h)

theorem balanced_of_nested (h : nested 0 steps = true) : Balanced steps := by
  cases ends_of_nested h with
  | none h => exact h

/-- Every end has the beginning of its part before it. -/
theorem Balanced.exists_begin (h : Balanced steps) {before after : List Step}
    (hsteps : steps = before ++ .endPart :: after) :
    ∃ outer inner, before = outer ++ .beginPart :: inner ∧ Balanced inner := by
  induction h generalizing before after with
  | nil => cases before <;> cases hsteps
  | octets bs _ ih | loop bs _ ih =>
    cases before with
    | nil => cases hsteps
    | cons step before =>
      obtain ⟨rfl, hbehind⟩ := List.cons.inj hsteps
      obtain ⟨outer, inner, rfl, hinner⟩ := ih hbehind
      exact ⟨_ :: outer, inner, rfl, hinner⟩
  | @part inside steps hinside _ ihInside ihNext =>
    cases before with
    | nil => cases hsteps
    | cons step before =>
      obtain ⟨rfl, hbehind⟩ := List.cons.inj hsteps
      -- the end stands within the part, or is its end, or stands behind it
      obtain ⟨between, rfl, hbetween⟩ | ⟨between, rfl, hbetween⟩ :=
        List.append_eq_append_iff.mp hbehind
      · cases between with
        | nil => exact ⟨[], inside, by rw [List.append_nil]; rfl, hinside⟩
        | cons step between =>
          obtain ⟨rfl, hnext⟩ := List.cons.inj hbetween
          obtain ⟨outer, inner, rfl, hinner⟩ := ihNext hnext
          exact ⟨.beginPart :: (inside ++ .endPart :: outer), inner, by simp, hinner⟩
      · cases between with
        | nil => exact ⟨[], before, rfl, by rwa [List.append_nil] at hinside⟩
        | cons step between =>
          obtain ⟨rfl, -⟩ := List.cons.inj hbetween
          obtain ⟨outer, inner, rfl, hinner⟩ := ihInside rfl
          exact ⟨.beginPart :: outer, inner, rfl, hinner⟩

/-- What balanced steps write they write wherever they stand. -/
theorem Balanced.extent_append (h : Balanced steps) (depth : Nat) (rest : List Step) :
    extent depth (steps ++ rest) = extent 0 steps + extent depth rest := by
  induction h generalizing depth rest with
  | nil => exact (Nat.zero_add _).symm
  | octets bs _ ih =>
    rw [List.cons_append, extent, extent, ih, Nat.add_assoc]
  | loop l _ ih =>
    rw [List.cons_append, extent, extent, ih, ← Nat.add_assoc]
  | @part inner steps _ _ ihInside ihNext =>
    rw [List.cons_append, List.append_assoc, List.cons_append, extent, extent, ihInside, ihInside,
      extent, extent, ihNext]
    omega

theorem Balanced.extent_end (h : Balanced steps) (rest : List Step) :
    extent 0 (steps ++ .endPart :: rest) = extent 0 steps := h.extent_append 0 _

/-! ## What is written -/

/-- The octets that balanced steps put into a draft. -/
def written : List Step → Bytes
  | [] => []
  | .octets bs :: steps => bs ++ written steps
  | .loop l :: steps => fieldOf l.toBytes.length ++ l.toBytes ++ written steps
  | .beginPart :: steps => fieldOf (extent 0 steps) ++ written steps
  | .endPart :: steps => written steps

theorem Balanced.written_append (h : Balanced steps) (rest : List Step) :
    written (steps ++ rest) = written steps ++ written rest := by
  induction h generalizing rest with
  | nil => rfl
  | octets bs _ ih => rw [List.cons_append, written, written, ih, List.append_assoc]
  | loop l _ ih => rw [List.cons_append, written, written, ih, ← List.append_assoc]
  | @part inner steps hinside _ ihInside ihNext =>
    rw [List.cons_append, List.append_assoc, List.cons_append, written, written,
      hinside.extent_end, hinside.extent_end, ihInside, ihInside, written, written, ihNext]
    simp only [List.append_assoc]

theorem Balanced.length_written (h : Balanced steps) : (written steps).length = extent 0 steps := by
  induction h with
  | nil => rfl
  | octets bs _ ih => rw [written, List.length_append, ih, extent]
  | loop l _ ih =>
    rw [written, List.length_append, List.length_append, length_fieldOf, ih, extent]
  | @part inner steps hinside _ ihInside ihNext =>
    rw [written, List.length_append, length_fieldOf, hinside.written_append, List.length_append,
      ihInside, written, ihNext, extent, hinside.extent_append, extent]

/-- Twelve bits measure every part. -/
def Measured : List Step → Prop
  | [] => True
  | .octets _ :: steps | .endPart :: steps => Measured steps
  | .loop l :: steps => l.toBytes.length ≤ 4095 ∧ Measured steps
  | .beginPart :: steps => extent 0 steps ≤ 4095 ∧ Measured steps

theorem Measured.laid (h : Measured steps) : Laid steps (written steps) := by
  induction steps with
  | nil => exact .nil
  | cons step steps ih =>
    cases step with
    | octets bs => exact .octets bs (ih h)
    | loop l => exact .loop (lengthField_fieldOf h.1) (ih h.2)
    | beginPart => exact .beginPart (lengthField_fieldOf h.1) (ih h.2)
    | endPart => exact .endPart (ih h)

theorem Balanced.measured_append (h : Balanced steps) (rest : List Step) :
    Measured (steps ++ rest) ↔ Measured steps ∧ Measured rest := by
  induction h generalizing rest with
  | nil => exact iff_of_eq (true_and _).symm
  | octets bs _ ih => exact ih rest
  | loop l _ ih => rw [List.cons_append, Measured, Measured, ih, and_assoc]
  | @part inner steps hinside _ ihInside ihNext =>
    rw [List.cons_append, List.append_assoc, List.cons_append, Measured, Measured,
      hinside.extent_end, hinside.extent_end, ihInside, ihInside, Measured, Measured, ihNext]
    simp only [and_assoc]

/-! ## The run -/

theorem next_loop (p : Progress) (l : DescriptorLoop) :
    p.next (.loop l) = ⟨p.draft.put (fieldOf l.toBytes.length ++ l.toBytes), p.marks,
      p.outcomes ++ [endOutcome l.toBytes.length]⟩ := by
  rw [Progress.next, putLoop_eq]

theorem next_endPart (d : SectionDraft) (bs : Bytes) (marks : List LengthMark)
    (outcomes : List (Except SiError Unit)) :
    Progress.next ⟨d.beginLength.1.put bs, d.beginLength.2 :: marks, outcomes⟩ .endPart =
      ⟨d.put (fieldOf bs.length ++ bs), marks, outcomes ++ [endOutcome bs.length]⟩ := by
  rw [Progress.next]
  dsimp only
  rw [endLength_put]

/-- A part whose inner steps put their octets into the draft. -/
theorem run_part {inner : List Step} {p : Progress} {said : List (Except SiError Unit)}
    (h : inner.foldl Progress.next (p.next .beginPart) =
      ⟨p.draft.beginLength.1.put (written inner), p.draft.beginLength.2 :: p.marks,
        p.outcomes ++ said⟩) (hlength : (written inner).length = n) (steps : List Step) :
    (.beginPart :: (inner ++ .endPart :: steps)).foldl Progress.next p =
      steps.foldl Progress.next ⟨p.draft.put (fieldOf n ++ written inner), p.marks,
        p.outcomes ++ (said ++ [endOutcome n])⟩ := by
  rw [List.foldl_cons, List.foldl_append, h, List.foldl_cons, next_endPart, hlength,
    List.append_assoc]

/-- Balanced steps put their octets into a draft, and leave the parts open that were open before. No
end among them is refused exactly if every part can be measured. -/
theorem Balanced.run (h : Balanced steps) (p : Progress) :
    ∃ outcomes, steps.foldl Progress.next p =
        ⟨p.draft.put (written steps), p.marks, p.outcomes ++ outcomes⟩ ∧
      ((∀ o ∈ outcomes, o = .ok ()) ↔ Measured steps) := by
  induction h generalizing p with
  | nil =>
    refine ⟨[], ?_, iff_of_true nofun trivial⟩
    rw [written, put, List.append_nil, List.append_nil]
    rfl
  | octets bs _ ih =>
    obtain ⟨outcomes, hrun, hmeasured⟩ := ih (p.next (.octets bs))
    refine ⟨outcomes, ?_, hmeasured⟩
    rw [List.foldl_cons, hrun, written, ← put_put]
    rfl
  | loop l _ ih =>
    obtain ⟨outcomes, hrun, hmeasured⟩ := ih (p.next (.loop l))
    refine ⟨endOutcome l.toBytes.length :: outcomes, ?_, ?_⟩
    · rw [List.foldl_cons, hrun, next_loop, written, put_put, List.append_assoc p.outcomes]
      rfl
    · rw [List.forall_mem_cons, endOutcome_eq_ok, hmeasured, Measured]
  | @part inner steps hinside _ ihInside ihNext =>
    obtain ⟨said, hsaid, hmeasured⟩ := ihInside (p.next .beginPart)
    have hpart := run_part hsaid hinside.length_written
    obtain ⟨behind, hbehind, hmeasured'⟩ := ihNext ⟨p.draft.put (fieldOf (extent 0 inner) ++
      written inner), p.marks, p.outcomes ++ (said ++ [endOutcome (extent 0 inner)])⟩
    refine ⟨said ++ [endOutcome (extent 0 inner)] ++ behind, ?_, ?_⟩
    · rw [hpart, hbehind, written, hinside.extent_end, hinside.written_append, written]
      simp only [put_put, List.append_assoc]
    · rw [List.forall_mem_append, List.forall_mem_append, hmeasured, hmeasured', Measured,
        hinside.extent_end, hinside.measured_append, Measured, List.forall_mem_singleton,
        endOutcome_eq_ok, and_comm (a := Measured inner), and_assoc]

/-! ## Nested parts -/

/-- What is said at the end of a part of `n` octets. An end that is refused changes nothing. -/
structure Ended (n : Nat) (before : SectionDraft) (said : Except SiError Unit × SectionDraft) :
    Prop where
  measured : said.1 = .ok () ↔ n ≤ 4095
  refused : said.1 = .error .lengthMismatch ↔ 4095 < n
  unchanged : 4095 < n → said.2 = before

theorem ended_put (d : SectionDraft) (bs : Bytes) :
    Ended bs.length (d.beginLength.1.put bs)
      ((d.beginLength.1.put bs).endLength d.beginLength.2) := by
  rw [endLength_put]
  refine ⟨endOutcome_eq_ok, endOutcome_eq_error, fun h => ?_⟩
  have hopen : fieldOf bs.length = [0xF0, 0x00] := by
    rw [fieldOf, if_neg (Nat.not_le.mpr h)]
    rfl
  rw [hopen]
  exact (put_put d [0xF0, 0x00] bs).symm

/-- The end of a part, whatever is written before the part. -/
theorem ended_part (d : SectionDraft) (outer : List Step) {inner : List Step}
    (hinner : Balanced inner) :
    let p := d.write (outer ++ .beginPart :: inner)
    ∃ m marks, p.marks = m :: marks ∧ p.draft.body.length = m.position + 2 + extent 0 inner ∧
      Ended (extent 0 inner) p.draft (p.draft.endLength m) := by
  intro p
  have hrun : p = inner.foldl Progress.next ((d.write outer).next .beginPart) := by
    change d.write _ = _
    rw [write, List.foldl_append, List.foldl_cons]
    rfl
  obtain ⟨outcomes, hwritten, -⟩ := hinner.run ((d.write outer).next .beginPart)
  rw [hrun, hwritten, ← hinner.length_written]
  refine ⟨_, _, rfl, ?_, ended_put (d.write outer).draft (written inner)⟩
  change ((d.write outer).draft.body ++ [0xF0, 0x00] ++ written inner).length = _
  rw [List.length_append, List.length_append]
  rfl

/-- A finished section: the header with the section length, what was put, and the checksum. -/
theorem finished_put {bs s : Bytes} (h : (d.put bs).finish = .ok s) :
    ∃ crc : Bytes, crc.length = (if d.checksum then 4 else 0) ∧
      s = d.tableId :: Bytes.ofNumber 2 (d.indicators + (s.length - 3)) ++
        extendedOctets d.extended ++ (d.body ++ bs) ++ crc := by
  rw [finish_eq] at h
  split_ifs at h
  obtain rfl := Except.ok.inj h
  refine ⟨(d.put bs).trailer, length_trailer _, ?_⟩
  rw [length_finished, Nat.add_sub_cancel_left]
  rfl

/-- Steps in which parts are properly nested. At an end, the octets behind the length field that is
filled in are those that the steps write from the beginning of the part to here; the end is refused
exactly if they are more than 4095, and then the draft stays as it is. If no end is refused and the
section can be finished, it is the header with the section length, then the octets that were put, in
order and with the length of each part at its beginning, and then the checksum. -/
theorem nested_lengths (d : SectionDraft) {steps : List Step} (h : nested 0 steps = true) :
    (∀ before after, steps = before ++ .endPart :: after →
      ∃ outer inner, before = outer ++ .beginPart :: inner ∧ nested 0 inner = true ∧
        let p := d.write before
        let n := extent 0 (inner ++ .endPart :: after)
        ∃ m marks, p.marks = m :: marks ∧ p.draft.body.length = m.position + 2 + n ∧
          Ended n p.draft (p.draft.endLength m)) ∧
    (∀ before l after, steps = before ++ .loop l :: after →
      let opened := (d.write before).draft.beginLength.1
      Ended l.toBytes.length (opened.put l.toBytes) ((d.write before).draft.putLoop l)) ∧
    ∀ s, (∀ o ∈ (d.write steps).outcomes, o = .ok ()) → (d.write steps).draft.finish = .ok s →
      ∃ out crc, Laid steps out ∧ crc.length = (if d.checksum then 4 else 0) ∧
        s = d.tableId :: Bytes.ofNumber 2 (d.indicators + (s.length - 3)) ++
          extendedOctets d.extended ++ (d.body ++ out) ++ crc := by
  have hbalanced := balanced_of_nested h
  refine ⟨fun before after hsteps => ?_, fun before l after _ => ended_put _ l.toBytes,
    fun s hok hfinish => ?_⟩
  · obtain ⟨outer, inner, rfl, hinner⟩ := hbalanced.exists_begin hsteps
    refine ⟨outer, inner, rfl, hinner.nested, ?_⟩
    intro p n
    have hn : n = extent 0 inner := hinner.extent_end after
    rw [hn]
    exact ended_part d outer hinner
  · obtain ⟨outcomes, hrun, hmeasured⟩ := hbalanced.run ⟨d, [], []⟩
    have hwrite : d.write steps = ⟨d.put (written steps), [], outcomes⟩ := hrun
    rw [hwrite] at hok hfinish
    obtain ⟨crc, hcrc, hs⟩ := finished_put hfinish
    exact ⟨written steps, crc, (hmeasured.mp hok).laid, hcrc, hs⟩

/-- A part that holds two octets, an empty part and an empty descriptor loop. -/
def partsWithin : List Step :=
  [.octets [0x01], .beginPart, .octets [0xAA, 0xBB], .beginPart, .endPart, .loop .empty, .endPart,
    .octets [0x02]]

/-- A part of 4096 octets, which is about to end. -/
def overlong : List Step := [.beginPart, .octets (List.replicate 4096 0xFF)]

/-- Parts that are measured, in a section that is finished; and a part that is an octet too long. -/
theorem nested_lengths_partsWithin :
    nested 0 partsWithin = true ∧ nested 0 (overlong ++ [.endPart]) = true ∧
    (∃ out crc, Laid partsWithin out ∧ crc.length = 0 ∧
      [0x72, 0x70, 0x0A, 0x01, 0xF0, 0x06, 0xAA, 0xBB, 0xF0, 0x00, 0xF0, 0x00, 0x02] =
        [0x72, 0x70, 0x0A] ++ out ++ crc) ∧
    ∃ m, let d := ((ofShort 0x72 true false).write overlong).draft
      (d.endLength m).1 = .error .lengthMismatch ∧ (d.endLength m).2 = d := by
  have hnested : nested 0 partsWithin = true := rfl
  have hlong : nested 0 (overlong ++ [.endPart]) = true := rfl
  refine ⟨hnested, hlong, ?_, ?_⟩
  · obtain ⟨out, crc, hlaid, hcrc, hs⟩ := (nested_lengths (ofShort 0x72 true false) hnested).2.2
      [0x72, 0x70, 0x0A, 0x01, 0xF0, 0x06, 0xAA, 0xBB, 0xF0, 0x00, 0xF0, 0x00, 0x02]
      (by decide) (by decide)
    exact ⟨out, crc, hlaid, hcrc, hs⟩
  · obtain ⟨outer, inner, hbefore, -, m, -, -, -, hended⟩ :=
      (nested_lengths (ofShort 0x72 true false) hlong).1 overlong [] rfl
    have hinner : inner = [.octets (List.replicate 4096 0xFF)] := by
      rcases outer with _ | ⟨_, _ | ⟨_, outer⟩⟩
      · exact (List.cons.inj hbefore).2.symm
      · cases (List.cons.inj hbefore).2
      · exact absurd (List.cons.inj (List.cons.inj hbefore).2).2 (by simp)
    have hextent : 4095 < extent 0 (inner ++ [.endPart]) := by
      rw [hinner, List.singleton_append, extent, extent, List.length_replicate]
      decide
    exact ⟨m, hended.refused.mpr hextent, hended.unchanged hextent⟩

end SectionDraft

end DvbHost
