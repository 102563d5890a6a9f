import DvbHost.Proofs.Layout.Field
import DvbHost.Proofs.Outcome

/-!
# Descriptor loops kept as octets

A block is a descriptor loop that is kept as its octets. One pass checks them, and another takes the
descriptors from them and ends without a word where it cannot go on. Both are compared with a loop
that is kept as its descriptors: what passes the check is the concatenation of exactly the
descriptors that are taken, and what does not is refused for what remains behind the longest run of
whole ones (`loops_as_octets`).
-/

namespace DvbHost

set_option autoImplicit false

structure DescriptorBlock where
  octets : Bytes
  deriving DecidableEq

/-- What is made of a value is made of the outcome. -/
theorem Cursor.fst_map {α β : Type} (p : Cursor α) (g : α → β) (s : Bytes) :
    ((p >>= fun a => pure (g a)) s).1 = (p s).1.map g :=
  congrArg Prod.fst (Cursor.map_apply p g s)

namespace DescriptorBlock

/-- The check of a loop, which skips its descriptors one after the other. -/
def check : Bytes → Except SiError Unit
  | [] => .ok ()
  | [_] => .error .lengthMismatch
  | _ :: len :: tail =>
    if len.toNat ≤ tail.length then check (tail.drop len.toNat) else .error .descriptorTruncated
termination_by bs => bs.length
decreasing_by simp only [List.length_drop, List.length_cons]; omega

/-- The block of octets that pass the check. -/
def ofOctets (bs : Bytes) : Except SiError DescriptorBlock := do
  check bs
  return ⟨bs⟩

/-- The descriptor at the front, and the octets behind it. -/
def next : Bytes → Option (RawDescriptor × Bytes)
  | tag :: len :: tail =>
    if len.toNat ≤ tail.length then
      some (⟨tag, tail.take len.toNat, RawDescriptor.length_take_lt len tail⟩,
        tail.drop len.toNat)
    else none
  | _ => none

variable {bs rest : Bytes} {d : RawDescriptor}

theorem read_eq_ok_iff_next : RawDescriptor.read bs = (.ok d, rest) ↔ next bs = some (d, rest) := by
  match bs with
  | [] => simp [RawDescriptor.read, next]
  | [b] => simp [RawDescriptor.read, next]
  | tag :: len :: tail =>
    rw [RawDescriptor.read, next]
    split <;> simp

/-- What is taken from the front stands there. -/
theorem next_eq_some_iff : next bs = some (d, rest) ↔ bs = d.toBytes ++ rest := by
  rw [← read_eq_ok_iff_next, RawDescriptor.parses]
  simp

theorem length_lt_of_next (h : next bs = some (d, rest)) : rest.length < bs.length := by
  rw [next_eq_some_iff.mp h, List.length_append]
  have hpos := d.length_pos
  omega

/-- The descriptors that are taken one after the other until none can be taken. -/
def iterate (bs : Bytes) : List RawDescriptor :=
  match _hnext : next bs with
  | none => []
  | some (d, rest) => d :: iterate rest
termination_by bs.length
decreasing_by exact length_lt_of_next ‹_›

/-- A block in the next octets, and the octets behind it. -/
def readWithLength (data : Bytes) (length : UInt16) : Except SiError (DescriptorBlock × Bytes) :=
  match data.split? length.toNat with
  | none => .error .truncatedData
  | some (octets, rest) => do return (← ofOctets octets, rest)

/-- A block behind its length, which is the low 12 bits of a word. -/
def read (data : Bytes) : Except SiError (DescriptorBlock × Bytes) :=
  if data.length < 2 then .error .truncatedData
  else readWithLength (data.drop 2) (UInt16.ofNat (Bytes.number (data.take 2)) &&& 0x0FFF)

/-! ## Taking descriptors -/

theorem iterate_of_none (h : next bs = none) : iterate bs = [] := by
  unfold iterate
  split
  · rfl
  · next hsome => rw [h] at hsome; cases hsome

theorem iterate_append (d : RawDescriptor) (rest : Bytes) :
    iterate (d.toBytes ++ rest) = d :: iterate rest := by
  have hnext : next (d.toBytes ++ rest) = some (d, rest) := next_eq_some_iff.mpr rfl
  rw [iterate]
  split
  · next hnone => rw [hnext] at hnone; cases hnone
  · next hsome =>
    rw [hnext] at hsome
    cases hsome
    rfl

theorem iterate_flatMap_append (items : List RawDescriptor) (rest : Bytes) :
    iterate (items.flatMap RawDescriptor.toBytes ++ rest) = items ++ iterate rest := by
  induction items with
  | nil => rfl
  | cons d items ih =>
    rw [List.flatMap_cons, List.append_assoc, iterate_append, ih, List.cons_append]

/-- Behind the descriptors that are taken there remain octets from which none can be. -/
theorem exists_rest (bs : Bytes) :
    ∃ rest, bs = (iterate bs).flatMap RawDescriptor.toBytes ++ rest ∧ next rest = none := by
  induction bs using iterate.induct with
  | case1 bs hnone => exact ⟨bs, by rw [iterate_of_none hnone]; rfl, hnone⟩
  | case2 bs d tail hsome ih =>
    obtain ⟨rest, hrest, hnone⟩ := ih
    refine ⟨rest, ?_, hnone⟩
    rw [next_eq_some_iff.mp hsome, iterate_append, List.flatMap_cons, List.append_assoc, ← hrest]

/-! ## Checking -/

/-- What the check makes of octets from which no descriptor can be taken. -/
def refusal : Bytes → Except SiError Unit
  | [] => .ok ()
  | [_] => .error .lengthMismatch
  | _ :: _ :: _ => .error .descriptorTruncated

theorem not_le_of_next {tag len : UInt8} {tail : Bytes} (h : next (tag :: len :: tail) = none) :
    ¬len.toNat ≤ tail.length := by
  intro hle
  rw [next, if_pos hle] at h
  cases h

/-- Behind a tag and a length, too few octets are the only reason. -/
theorem read_of_next {tag len : UInt8} {tail : Bytes} (h : next (tag :: len :: tail) = none) :
    RawDescriptor.read (tag :: len :: tail) =
      (.error .descriptorTruncated, tag :: len :: tail) := by
  rw [RawDescriptor.read, if_neg (not_le_of_next h)]

theorem check_of_none (h : next rest = none) : check rest = refusal rest := by
  match rest, h with
  | [], _ => rw [check, refusal]
  | [_], _ => rw [check, refusal]
  | _ :: _ :: _, h => rw [check, if_neg (not_le_of_next h), refusal]

theorem check_append (d : RawDescriptor) (rest : Bytes) :
    check (d.toBytes ++ rest) = check rest := by
  obtain ⟨tag, data, fits⟩ := d
  have hlength : (UInt8.ofNat data.length).toNat = data.length := UInt8.toNat_ofNat_of_lt' fits
  have hle : data.length ≤ (data ++ rest).length := by simp
  rw [RawDescriptor.toBytes, List.cons_append, List.cons_append, check, hlength, if_pos hle,
    List.drop_left]

theorem check_flatMap_append (items : List RawDescriptor) (rest : Bytes) :
    check (items.flatMap RawDescriptor.toBytes ++ rest) = check rest := by
  induction items with
  | nil => rfl
  | cons d items ih => rw [List.flatMap_cons, List.append_assoc, check_append, ih]

/-- Whole descriptors from the front, and what remains behind them; no run of them is longer. -/
structure LongestRun (bs : Bytes) (items : List RawDescriptor) (rest : Bytes) : Prop where
  octets : bs = items.flatMap RawDescriptor.toBytes ++ rest
  longest : ∀ (more : List RawDescriptor) (behind : Bytes),
    bs = more.flatMap RawDescriptor.toBytes ++ behind → more.length ≤ items.length

/-- Any run of descriptors is the beginning of what is taken. -/
theorem LongestRun.iff_of_none {items : List RawDescriptor} (hnone : next rest = none)
    (hbs : bs = (iterate bs).flatMap RawDescriptor.toBytes ++ rest) {behind : Bytes} :
    LongestRun bs items behind ↔ items = iterate bs ∧ behind = rest := by
  constructor
  · rintro ⟨hrun, hlongest⟩
    have hitems : iterate bs = items ++ iterate behind := by
      rw [hrun, iterate_flatMap_append]
    have hlength := hlongest _ _ hbs
    rw [hitems, List.length_append] at hlength
    have hempty : iterate behind = [] := List.eq_nil_of_length_eq_zero (by omega)
    rw [hempty, List.append_nil] at hitems
    rw [hitems, hrun] at hbs
    exact ⟨hitems.symm, List.append_cancel_left hbs⟩
  · rintro ⟨rfl, rfl⟩
    refine ⟨hbs, fun more behind hmore => ?_⟩
    have hitems : iterate bs = more ++ iterate behind := by
      rw [hmore, iterate_flatMap_append]
    rw [hitems, List.length_append]
    exact Nat.le_add_right ..

/-! ## Blocks and loops -/

/-- A loop that is read from octets is checked and taken apart. -/
theorem untilEndWithin_eq (items : List RawDescriptor) (hnone : next rest = none) {fuel : Nat}
    (hfuel : (items.flatMap RawDescriptor.toBytes ++ rest).length ≤ fuel) :
    (Cursor.untilEndWithin RawDescriptor.read fuel
        (items.flatMap RawDescriptor.toBytes ++ rest)).1 =
      (refusal rest).map fun _ => items := by
  induction items generalizing fuel with
  | nil =>
    rw [List.flatMap_nil, List.nil_append] at hfuel ⊢
    cases fuel with
    | zero =>
      rw [List.eq_nil_of_length_eq_zero (Nat.le_zero.mp hfuel)]
      rfl
    | succ fuel =>
      match rest with
      | [] => rfl
      | [_] => rfl
      | _ :: _ :: _ =>
        show (((RawDescriptor.read >>= _) : Cursor (List RawDescriptor)) _).1 = _
        rw [Cursor.bind_error (read_of_next hnone)]
        rfl
  | cons d items ih =>
    -- A descriptor is never empty, so the octets are enough tries for those that are there.
    rw [List.flatMap_cons, List.append_assoc] at hfuel ⊢
    have hpos := d.length_pos
    cases fuel with
    | zero =>
      rw [List.length_append] at hfuel
      omega
    | succ fuel =>
      rw [List.length_append] at hfuel
      have htail : (Cursor.untilEndWithin RawDescriptor.read fuel
          (items.flatMap RawDescriptor.toBytes ++ rest)).1 = (refusal rest).map fun _ => items :=
        ih (by omega)
      show (((RawDescriptor.read >>= fun d =>
        Cursor.untilEndWithin RawDescriptor.read fuel >>= fun items => pure (d :: items)) :
          Cursor (List RawDescriptor)) (d.toBytes ++ _)).1 = _
      rw [Cursor.bind_ok (d.reads _), Cursor.fst_map, htail]
      cases refusal rest <;> rfl

theorem ofOctets_of_rest (hbs : bs = (iterate bs).flatMap RawDescriptor.toBytes ++ rest)
    (hnone : next rest = none) : ofOctets bs = (refusal rest).map fun _ => ⟨bs⟩ := by
  have hcheck : check bs = refusal rest := by
    rw [← check_of_none hnone, ← check_flatMap_append (iterate bs) rest, ← hbs]
  rw [ofOctets, hcheck]
  cases refusal rest <;> rfl

theorem ofBytes_eq (bs : Bytes) :
    DescriptorLoop.ofBytes bs = (ofOctets bs).map fun block => ⟨iterate block.octets⟩ := by
  obtain ⟨rest, hbs, hnone⟩ := exists_rest bs
  have hitems := untilEndWithin_eq (iterate bs) hnone (Nat.le_refl _)
  rw [← hbs] at hitems
  rw [DescriptorLoop.ofBytes, Cursor.run, Cursor.untilEnd, hitems, ofOctets_of_rest hbs hnone]
  cases refusal rest <;> rfl

/-- A loop that is kept as its descriptors writes the octets of the block. -/
theorem ofOctets_eq (bs : Bytes) :
    ofOctets bs = (DescriptorLoop.ofBytes bs).map fun l => ⟨l.toBytes⟩ := by
  cases hloop : DescriptorLoop.ofBytes bs with
  | ok l =>
    have hblock := ofBytes_eq bs
    rw [hloop] at hblock
    obtain ⟨block, hok, -⟩ := Outcome.ok_of_map hblock.symm
    obtain ⟨_, -, hkept⟩ := Outcome.ok_of_bind hok
    cases hkept
    rw [hok, (DescriptorLoop.ofBytes_eq_ok bs l).mp hloop]
    rfl
  | error e =>
    have hblock := ofBytes_eq bs
    rw [hloop] at hblock
    cases hok : ofOctets bs with
    | ok block => rw [hok] at hblock; cases hblock
    | error e' => rw [hok] at hblock; cases hblock; rfl

/-- Octets are a run of descriptors if they pass the check, and then those are taken from them. -/
theorem eq_flatMap_iff (bs : Bytes) (items : List RawDescriptor) :
    bs = items.flatMap RawDescriptor.toBytes ↔ ofOctets bs = .ok ⟨bs⟩ ∧ iterate bs = items := by
  have hitems := DescriptorLoop.ofBytes_eq_ok bs ⟨items⟩
  rw [DescriptorLoop.toBytes] at hitems
  rw [← hitems, ofBytes_eq]
  constructor
  · intro h
    obtain ⟨block, hok, hitems⟩ := Outcome.ok_of_map h
    obtain ⟨_, -, hkept⟩ := Outcome.ok_of_bind hok
    cases hkept
    exact ⟨hok, congrArg DescriptorLoop.items hitems⟩
  · rintro ⟨hok, rfl⟩
    rw [hok]
    rfl

/-- What a reading step answers: a loop as its octets and the octets behind it, or an error. -/
def answer (p : Cursor DescriptorLoop) (data : Bytes) : Except SiError (DescriptorBlock × Bytes) :=
  match p data with
  | (.ok l, rest) => .ok (⟨l.toBytes⟩, rest)
  | (.error e, _) => .error e

theorem answer_of_error {p : Cursor DescriptorLoop} {data : Bytes} {e : SiError}
    (h : p data = (.error e, rest)) : answer p data = .error e := by
  rw [answer, h]

theorem readWithLength_eq (data : Bytes) (length : UInt16) :
    readWithLength data length = answer (DescriptorLoop.ofLength length.toNat) data := by
  unfold readWithLength DescriptorLoop.ofLength
  cases hsplit : data.split? length.toNat with
  | none =>
    have hbytes : Cursor.bytes length.toNat data = (.error .truncatedData, data) := by
      rw [Cursor.bytes, hsplit]
    exact (answer_of_error (Cursor.bind_error hbytes)).symm
  | some parts =>
    obtain ⟨octets, rest⟩ := parts
    have hbytes : Cursor.bytes length.toNat data = (.ok octets, rest) := by
      rw [Cursor.bytes, hsplit]
    rw [answer, Cursor.bind_ok hbytes, Cursor.lift]
    show (ofOctets octets >>= fun block => pure (block, rest)) = _
    rw [ofOctets_eq]
    cases DescriptorLoop.ofBytes octets <;> rfl

/-- The low 12 bits of a word, cut out of it by a mask. -/
theorem toNat_mask (w : UInt16) : (w &&& 0x0FFF).toNat = bits 0 12 w.toNat := by
  rw [UInt16.toNat_and, bits_eq, Nat.pow_zero, Nat.div_one]
  exact Nat.and_two_pow_sub_one_eq_mod w.toNat 12

theorem read_eq (data : Bytes) : read data = answer DescriptorLoop.read data := by
  unfold read DescriptorLoop.read
  by_cases hshort : data.length < 2
  · obtain ⟨rest, herror⟩ := Cursor.takes_u16.needs data hshort
    have hlength : Cursor.length12 data = (.error .truncatedData, rest) :=
      Cursor.bind_error herror
    rw [if_pos hshort, answer_of_error (Cursor.bind_error hlength)]
  · match data, hshort with
    | [], hshort => exact absurd Nat.two_pos hshort
    | [_], hshort => exact absurd Nat.one_lt_two hshort
    | a :: b :: data, hshort =>
      have hlength : Cursor.length12 (a :: b :: data) =
          (.ok (bits 0 12 (UInt16.ofNat (Bytes.number [a, b])).toNat), data) := by
        have hbytes : Cursor.bytes 2 (a :: b :: data) = (.ok [a, b], data) :=
          Cursor.reads_bytes [a, b] data
        have hword : Cursor.u16 (a :: b :: data) =
            (.ok (UInt16.ofNat (Bytes.number [a, b])), data) := Cursor.bind_ok hbytes
        exact Cursor.bind_ok hword
      rw [if_neg hshort, answer, Cursor.bind_ok hlength, ← toNat_mask]
      exact readWithLength_eq data _

/-- What passes the check is a run of descriptors, which are then taken one after the other, and
what does not is refused for the octets behind the longest run. A block is what a loop reads, at any
length and behind its own. -/
theorem loops_as_octets (bs : Bytes) :
    (∀ items : List RawDescriptor, bs = items.flatMap RawDescriptor.toBytes ↔
      ofOctets bs = .ok ⟨bs⟩ ∧ iterate bs = items) ∧
    (∃ rest, (∀ items behind, LongestRun bs items behind ↔ items = iterate bs ∧ behind = rest) ∧
      ofOctets bs = match rest with
        | [] => .ok ⟨bs⟩
        | [_] => .error .lengthMismatch
        | _ :: _ :: _ => .error .descriptorTruncated) ∧
    DescriptorLoop.ofBytes bs = (ofOctets bs).map (fun block => ⟨iterate block.octets⟩) ∧
    (∀ length, readWithLength bs length = answer (DescriptorLoop.ofLength length.toNat) bs) ∧
    read bs = answer DescriptorLoop.read bs := by
  refine ⟨eq_flatMap_iff bs, ?_, ofBytes_eq bs, readWithLength_eq bs, read_eq bs⟩
  obtain ⟨rest, hbs, hnone⟩ := exists_rest bs
  refine ⟨rest, fun items behind => LongestRun.iff_of_none hnone hbs, ?_⟩
  rw [ofOctets_of_rest hbs hnone]
  match rest with
  | [] => rfl
  | [_] => rfl
  | _ :: _ :: _ => rfl

end DescriptorBlock

end DvbHost
