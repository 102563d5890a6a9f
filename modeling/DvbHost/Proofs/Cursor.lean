import DvbHost.Bytes.Cursor
import DvbHost.Proofs.Bytes

/-!
# Reading what was written

`Reads` and `ReadsAll` say that a reading step takes exactly the octets that write a value. They
compose along the steps of a reading, so a format is read back field by field. `Takes` says how many
octets a step takes, and `Yields` what all its values are like, whatever the octets are.
-/

namespace DvbHost.Cursor

set_option autoImplicit false

variable {α β : Type} {p : Cursor α} {f : α → Cursor β} {a : α} {b : β} {bs cs : Bytes}

/-- The octets write the value, whatever follows them. -/
def Reads (p : Cursor α) (bs : Bytes) (a : α) : Prop := ∀ tail, p (bs ++ tail) = (.ok a, tail)

/-- The octets write the value, and nothing follows them. -/
def ReadsAll (p : Cursor α) (bs : Bytes) (a : α) : Prop := p bs = (.ok a, [])

theorem Reads.all (h : Reads p bs a) : ReadsAll p bs a := by
  have htail := h []
  rwa [List.append_nil] at htail

theorem ReadsAll.run (h : ReadsAll p bs a) : p.run bs = .ok a := congrArg Prod.fst h

/-- A step that succeeds leaves its octets to the next. -/
theorem bind_ok {s rest : Bytes} (h : p s = (.ok a, rest)) : (p >>= f) s = f a rest := by
  simp only [bind, h]

theorem bind_error {s rest : Bytes} {e : SiError} (h : p s = (.error e, rest)) :
    (p >>= f) s = (.error e, rest) := by
  simp only [bind, h]

/-- What is made of a value is made of the outcome, and takes nothing. -/
theorem map_apply (p : Cursor α) (g : α → β) (s : Bytes) :
    (p >>= fun a => pure (g a)) s = ((p s).1.map g, (p s).2) := by
  cases h : p s with
  | mk outcome rest =>
    cases outcome with
    | ok a => rw [bind_ok h]; rfl
    | error e => rw [bind_error h]; rfl

theorem reads_pure (a : α) : Reads (pure a) [] a := fun _ => rfl

theorem Reads.bind (hp : Reads p bs a) (hf : Reads (f a) cs b) : Reads (p >>= f) (bs ++ cs) b := by
  intro tail
  rw [List.append_assoc, bind_ok (hp (cs ++ tail))]
  exact hf tail

/-- A last step that takes no octets. -/
theorem Reads.map (hp : Reads p bs a) (g : α → β) : Reads (p >>= fun a => pure (g a)) bs (g a) := by
  have h := hp.bind (f := fun a => pure (g a)) (reads_pure (g a))
  rwa [List.append_nil] at h

theorem Reads.bindAll (hp : Reads p bs a) (hf : ReadsAll (f a) cs b) :
    ReadsAll (p >>= f) (bs ++ cs) b := by
  rw [ReadsAll, bind_ok (hp cs)]
  exact hf

theorem ReadsAll.map (hp : ReadsAll p bs a) (g : α → β) :
    ReadsAll (p >>= fun a => pure (g a)) bs (g a) := by
  rw [ReadsAll, bind_ok hp]
  rfl

/-! ## Fields -/

theorem reads_bytes (bs : Bytes) : Reads (bytes bs.length) bs bs := by
  intro tail
  rw [bytes, Bytes.split?_length]

theorem bytes_of_le {n : Nat} {s : Bytes} (h : n ≤ s.length) :
    bytes n s = (.ok (s.take n), s.drop n) := by
  have hsplit : s.split? n = some (s.take n, s.drop n) := if_pos h
  rw [bytes, hsplit]

theorem bytes_of_lt {n : Nat} {s : Bytes} (h : s.length < n) :
    bytes n s = (.error .truncatedData, s) := by
  have hsplit : s.split? n = none := if_neg (Nat.not_le.mpr h)
  rw [bytes, hsplit]

theorem reads_u8 (b : UInt8) : Reads u8 [b] b := fun _ => rfl

theorem reads_u16 (w : UInt16) : Reads u16 (Bytes.ofUInt16 w) w := by
  have hlength := Bytes.length_ofUInt16 w
  have hnumber : UInt16.ofNat (Bytes.ofUInt16 w).number = w := by
    rw [Bytes.ofUInt16, Bytes.number_ofNumber_of_lt w.toNat_lt, UInt16.ofNat_toNat]
  have h := (reads_bytes (Bytes.ofUInt16 w)).map fun bs => UInt16.ofNat bs.number
  rwa [hlength, hnumber] at h

/-- The lower bits of a field of two octets are a length. -/
theorem reads_u16_number {n : Nat} (h : n < 0x10000) :
    Reads u16 (Bytes.ofNumber 2 n) (UInt16.ofNat n) := by
  have hw := reads_u16 (UInt16.ofNat n)
  rwa [Bytes.ofUInt16, UInt16.toNat_ofNat', Nat.mod_eq_of_lt h] at hw

theorem reads_length12 {upper length : Nat} (hupper : upper < 0x10) (hlength : length < 0x1000) :
    Reads length12 (Bytes.ofNumber 2 (upper * 0x1000 + length)) length := by
  have hword : upper * 0x1000 + length < 0x10000 := by omega
  have hlow : (upper * 0x1000 + length) / 2 ^ 0 % 2 ^ 12 = length := by omega
  have h := (reads_u16_number hword).map fun w => bits 0 12 w.toNat
  rwa [UInt16.toNat_ofNat', Nat.mod_eq_of_lt hword, bits_eq, hlow] at h

/-! ## Parts and ends -/

theorem readsAll_lift {r : Except SiError α} (h : r = .ok a) : ReadsAll (lift r) [] a := by
  rw [h]
  rfl

theorem ReadsAll.exactly (h : ReadsAll p bs a) : ReadsAll (exactly p) bs a := by
  rw [ReadsAll, Cursor.exactly, bind_ok h]
  rfl

/-- A part that is cut off is read alone. -/
theorem ReadsAll.within (h : ReadsAll p bs a) : Reads (within bs.length p) bs a := by
  have hlift : Reads (lift (p.run bs)) [] a := by
    rw [h.run]
    exact fun _ => rfl
  have hwithin := (reads_bytes bs).bind (f := fun part => lift (p.run part)) hlift
  rwa [List.append_nil] at hwithin

/-! ## Loops -/

/-- Each of the byte strings has octets and writes the entry at its place. -/
def Entries (p : Cursor α) : List Bytes → List α → Prop :=
  List.Forall₂ fun bs a => 0 < bs.length ∧ Reads p bs a

/-- No entry is empty, so the octets bound the number of entries that are tried. -/
theorem Entries.untilEndWithin {bss : List Bytes} {as : List α} (h : Entries p bss as) :
    ∀ {fuel : Nat}, bss.flatten.length ≤ fuel →
      ReadsAll (untilEndWithin p fuel) bss.flatten as := by
  induction h with
  | nil =>
    intro fuel _
    cases fuel <;> rfl
  | @cons bs a bss as hentry _ ih =>
    intro fuel hfuel
    obtain ⟨hpos, hreads⟩ := hentry
    rw [List.flatten_cons, List.length_append] at hfuel
    cases fuel with
    | zero => omega
    | succ fuel =>
      have htail : ReadsAll (Cursor.untilEndWithin p fuel) bss.flatten as := ih (by omega)
      have hcons := hreads.bindAll
        (f := fun a => Cursor.untilEndWithin p fuel >>= fun as => pure (a :: as))
        (htail.map (List.cons a))
      cases bs with
      | nil => exact absurd hpos (by decide)
      | cons b bs => exact hcons

theorem Entries.untilEnd {bss : List Bytes} {as : List α} (h : Entries p bss as) :
    ReadsAll (untilEnd p) bss.flatten as :=
  h.untilEndWithin (Nat.le_refl _)

/-! ## Steps of a fixed size -/

/-- The step fails on less than `n` octets. -/
def Needs (n : Nat) (p : Cursor α) : Prop :=
  ∀ s : Bytes, s.length < n → ∃ rest, p s = (.error .truncatedData, rest)

/-- The step takes `n` octets, whatever they are. -/
structure Takes (n : Nat) (p : Cursor α) : Prop where
  needs : Needs n p
  takes : ∀ s : Bytes, n ≤ s.length → ∃ a, p s = (.ok a, s.drop n)

variable {m n : Nat}

theorem needs_zero (p : Cursor α) : Needs 0 p := fun _ h => absurd h (Nat.not_lt_zero _)

theorem takes_pure (a : α) : Takes 0 (pure a) := ⟨needs_zero _, fun _ _ => ⟨a, rfl⟩⟩

theorem takes_bytes (n : Nat) : Takes n (bytes n) where
  needs s h := ⟨s, bytes_of_lt h⟩
  takes s h := ⟨s.take n, bytes_of_le h⟩

theorem takes_u8 : Takes 1 u8 where
  needs s h := by
    rw [List.eq_nil_of_length_eq_zero (Nat.lt_one_iff.mp h)]
    exact ⟨[], rfl⟩
  takes s h := by
    cases s with
    | nil => exact absurd h (by decide)
    | cons b s => exact ⟨b, rfl⟩

theorem Takes.needs_bind (hp : Takes m p) (hf : ∀ a, Needs n (f a)) : Needs (m + n) (p >>= f) := by
  intro s hs
  by_cases h : s.length < m
  · obtain ⟨rest, hrest⟩ := hp.needs s h
    exact ⟨rest, bind_error hrest⟩
  · obtain ⟨a, ha⟩ := hp.takes s (Nat.not_lt.mp h)
    rw [bind_ok ha]
    apply hf a
    rw [List.length_drop]
    omega

theorem Takes.bind (hp : Takes m p) (hf : ∀ a, Takes n (f a)) : Takes (m + n) (p >>= f) where
  needs := hp.needs_bind fun a => (hf a).needs
  takes s hs := by
    obtain ⟨a, ha⟩ := hp.takes s (by omega)
    obtain ⟨b, hb⟩ := (hf a).takes (s.drop m) (by rw [List.length_drop]; omega)
    rw [List.drop_drop] at hb
    exact ⟨b, (bind_ok ha).trans hb⟩

theorem Takes.map (hp : Takes n p) (g : α → β) : Takes n (p >>= fun a => pure (g a)) :=
  hp.bind fun a => takes_pure (g a)

theorem takes_u16 : Takes 2 u16 := (takes_bytes 2).map _

/-! ## What is read -/

/-- Every value that the step gives has a property. -/
def Yields (p : Cursor α) (P : α → Prop) : Prop := ∀ ⦃s a rest⦄, p s = (.ok a, rest) → P a

variable {P : α → Prop} {Q : β → Prop}

theorem yields_pure (h : P a) : Yields (pure a) P := by
  intro s b rest hb
  injection hb with hb _
  injection hb with hb
  exact hb ▸ h

theorem Yields.bind (hp : Yields p P) (hf : ∀ a, P a → Yields (f a) Q) : Yields (p >>= f) Q := by
  intro s b rest hb
  cases hstep : p s with
  | mk outcome s' =>
    cases outcome with
    | ok a =>
      rw [bind_ok hstep] at hb
      exact hf a (hp hstep) hb
    | error e =>
      rw [bind_error hstep] at hb
      injection hb with hb _
      cases hb

/-- A step whose value does not matter. -/
theorem yields_bind (hf : ∀ a, Yields (f a) Q) : Yields (p >>= f) Q :=
  Yields.bind (P := fun _ => True) (fun _ _ _ _ => trivial) fun a _ => hf a

theorem Yields.untilEndWithin (hp : Yields p P) (fuel : Nat) :
    Yields (untilEndWithin p fuel) fun as => ∀ a ∈ as, P a := by
  induction fuel with
  | zero => exact yields_pure nofun
  | succ fuel ih =>
    have hcons : Yields (p >>= fun a => Cursor.untilEndWithin p fuel >>= fun as => pure (a :: as))
        fun as => ∀ a ∈ as, P a :=
      hp.bind fun a ha => ih.bind fun as has => yields_pure (List.forall_mem_cons.mpr ⟨ha, has⟩)
    intro s as rest has
    cases s with
    | nil =>
      injection has with has _
      injection has with has
      exact has ▸ nofun
    | cons b s => exact hcons has

theorem Yields.entries (hp : Yields p P) (size : Nat) :
    Yields (entries size p) fun as => ∀ a ∈ as, P a := by
  intro s as rest has
  rw [Cursor.entries] at has
  split at has
  · exact hp.untilEndWithin s.length has
  · injection has with has _
    cases has

end DvbHost.Cursor
