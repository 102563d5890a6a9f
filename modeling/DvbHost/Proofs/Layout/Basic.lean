import DvbHost.Proofs.Cursor

/-!
# Layouts

A layout says which octets write which values, and says it by concatenation: fields one after the
other, words made of bit fields, a length or a count in front of what it measures. It never cuts.

`Parses` ties a reading step to a layout. The step succeeds exactly on octets that begin with a
layout of a value; it gives that value, takes its octets and leaves the others. `Exhausts` says the
same of a step that succeeds only when it has used up the data. Both compose along the steps of a
reading, and through loops that end by a count (`Parses.repeated`), with the data
(`Parses.untilEnd`), or with a part that is cut off first (`Exhausts.within`).
-/

namespace DvbHost

set_option autoImplicit false

/-- Which octets write which values. -/
abbrev Layout (α : Type) := Bytes → α → Prop

/-! ## Bit fields -/

/-- Bit fields from the most significant one on, each a width and a value. -/
abbrev BitFields := List (Nat × Nat)

namespace BitFields

def width (fs : BitFields) : Nat := (fs.map Prod.fst).sum

/-- The number that the fields write together. -/
def number : BitFields → Nat
  | [] => 0
  | f :: fs => f.2 * 2 ^ width fs + number fs

def Fit (fs : BitFields) : Prop := ∀ f ∈ fs, f.2 < 2 ^ f.1

/-- The values of fields of some widths in a number. -/
def values : List Nat → Nat → List Nat
  | [], _ => []
  | w :: ws, n => bits ws.sum w n :: values ws n

variable {f : Nat × Nat} {fs : BitFields} {n : Nat}

theorem width_cons : width (f :: fs) = f.1 + width fs := rfl

theorem fit_cons : Fit (f :: fs) ↔ f.2 < 2 ^ f.1 ∧ Fit fs := List.forall_mem_cons

theorem number_lt (h : Fit fs) : number fs < 2 ^ width fs := by
  induction fs with
  | nil => exact Nat.one_pos
  | cons f fs ih =>
    obtain ⟨hvalue, hrest⟩ := fit_cons.mp h
    have hnumber := ih hrest
    calc f.2 * 2 ^ width fs + number fs
        < f.2 * 2 ^ width fs + 2 ^ width fs := Nat.add_lt_add_left hnumber _
      _ = (f.2 + 1) * 2 ^ width fs := (Nat.succ_mul ..).symm
      _ ≤ 2 ^ f.1 * 2 ^ width fs := Nat.mul_le_mul_right _ hvalue
      _ = 2 ^ width (f :: fs) := (Nat.pow_add ..).symm

/-- The lower bits of a number do not depend on those above them. -/
theorem values_mod (ws : List Nat) {k : Nat} (hk : ws.sum ≤ k) (n : Nat) :
    values ws (n % 2 ^ k) = values ws n := by
  induction ws with
  | nil => rfl
  | cons w ws ih =>
    rw [List.sum_cons] at hk
    have hpow : 2 ^ k = 2 ^ ws.sum * 2 ^ (k - ws.sum) := by
      rw [← Nat.pow_add, Nat.add_sub_of_le (by omega)]
    have hdvd : 2 ^ w ∣ 2 ^ (k - ws.sum) := Nat.pow_dvd_pow 2 (by omega)
    have hhead : bits ws.sum w (n % 2 ^ k) = bits ws.sum w n := by
      rw [bits_eq, bits_eq, hpow, Nat.mod_mul_right_div_self, Nat.mod_mod_of_dvd _ hdvd]
    rw [values, values, hhead, ih (by omega)]

/-- Fields that fit write a number exactly if their values are those bits of it. -/
theorem number_eq_iff :
    Fit fs ∧ number fs = n ↔ n < 2 ^ width fs ∧ fs.map Prod.snd = values (fs.map Prod.fst) n := by
  induction fs generalizing n with
  | nil => simp [Fit, number, width, values, eq_comm]
  | cons f fs ih =>
    have hpos : 0 < 2 ^ width fs := Nat.two_pow_pos _
    have hlow : values (fs.map Prod.fst) n = values (fs.map Prod.fst) (n % 2 ^ width fs) :=
      (values_mod _ (Nat.le_refl _) n).symm
    have htail := ih (n := n % 2 ^ width fs)
    rw [List.map_cons, List.map_cons, values, List.cons.injEq, hlow, width_cons, fit_cons, bits_eq]
    change _ ↔ _ ∧ f.2 = n / 2 ^ width fs % 2 ^ f.1 ∧ _
    constructor
    · rintro ⟨⟨hvalue, hfit⟩, rfl⟩
      have hnumber := number_lt hfit
      have hdiv : number (f :: fs) / 2 ^ width fs = f.2 := by
        rw [number, Nat.mul_comm, Nat.mul_add_div hpos, Nat.div_eq_of_lt hnumber, Nat.add_zero]
      have hmod : number (f :: fs) % 2 ^ width fs = number fs := by
        rw [number, Nat.mul_comm, Nat.mul_add_mod, Nat.mod_eq_of_lt hnumber]
      refine ⟨number_lt (fit_cons.mpr ⟨hvalue, hfit⟩), ?_, ?_⟩
      · rw [hdiv, Nat.mod_eq_of_lt hvalue]
      · exact (htail.mp ⟨hfit, hmod.symm⟩).2
    · rintro ⟨hlt, hvalue, hvalues⟩
      obtain ⟨hfit, hnumber⟩ := htail.mpr ⟨Nat.mod_lt _ hpos, hvalues⟩
      have hdiv : n / 2 ^ width fs < 2 ^ f.1 := by
        apply Nat.div_lt_of_lt_mul
        rwa [← Nat.pow_add, Nat.add_comm]
      rw [Nat.mod_eq_of_lt hdiv] at hvalue
      refine ⟨⟨hvalue ▸ hdiv, hfit⟩, ?_⟩
      rw [number, hnumber, hvalue, Nat.mul_comm, Nat.div_add_mod]

/-- The octets hold these bit fields and nothing else. -/
structure Packed (fs : BitFields) (bs : Bytes) : Prop where
  fit : fs.Fit
  octets : bs = Bytes.ofNumber (fs.width / 8) fs.number

/-- Octets hold bit fields of their width exactly if the values are those bits of their number. -/
theorem packed_iff {bs : Bytes} (h : fs.width = 8 * bs.length) :
    Packed fs bs ↔ fs.map Prod.snd = values (fs.map Prod.fst) bs.number := by
  have hlength : fs.width / 8 = bs.length := by omega
  have hpow : 256 ^ bs.length = 2 ^ fs.width := by
    rw [h, Nat.pow_mul]
  have hlt : bs.number < 2 ^ fs.width := hpow ▸ bs.number_lt
  constructor
  · rintro ⟨hfit, hoctets⟩
    have hnumber : fs.number = bs.number := by
      rw [hlength] at hoctets
      rw [hoctets, Bytes.number_ofNumber_of_lt (hpow ▸ number_lt hfit)]
    exact (number_eq_iff.mp ⟨hfit, hnumber⟩).2
  · intro hvalues
    obtain ⟨hfit, hnumber⟩ := number_eq_iff.mpr ⟨hlt, hvalues⟩
    exact ⟨hfit, by rw [hlength, hnumber, Bytes.ofNumber_number]⟩

theorem Packed.length {bs : Bytes} {width : Nat} (h : Packed fs bs) (hwidth : fs.width = 8 * width) :
    bs.length = width := by
  rw [h.octets, Bytes.length_ofNumber]
  omega

/-- Bit fields of whole octets are those of the number that the octets write. -/
theorem packed_number {bs : Bytes} (width : Nat) (h : fs.width = 8 * width) :
    Packed fs bs ↔ ∃ n < 256 ^ width, bs = Bytes.ofNumber width n ∧
      fs.map Prod.snd = values (fs.map Prod.fst) n := by
  constructor
  · intro hbs
    have hlength := hbs.length h
    refine ⟨bs.number, hlength ▸ Bytes.number_lt bs, ?_, (packed_iff (hlength ▸ h)).mp hbs⟩
    rw [← hlength, Bytes.ofNumber_number]
  · rintro ⟨n, hn, rfl, hvalues⟩
    rw [packed_iff (by rw [Bytes.length_ofNumber, h]), Bytes.number_ofNumber_of_lt hn]
    exact hvalues

theorem packed_octet {bs : Bytes} (h : fs.width = 8) :
    Packed fs bs ↔
      ∃ b : UInt8, bs = [b] ∧ fs.map Prod.snd = values (fs.map Prod.fst) b.toNat := by
  rw [packed_number 1 h]
  constructor
  · rintro ⟨n, hn, rfl, hvalues⟩
    exact ⟨UInt8.ofNat n, rfl, by rwa [UInt8.toNat_ofNat_of_lt' hn]⟩
  · rintro ⟨b, rfl, hvalues⟩
    refine ⟨b.toNat, b.toNat_lt, ?_, hvalues⟩
    change _ = [UInt8.ofNat b.toNat]
    rw [UInt8.ofNat_toNat]

theorem packed_word {bs : Bytes} (h : fs.width = 16) :
    Packed fs bs ↔ ∃ w : UInt16, bs = Bytes.ofUInt16 w ∧
      fs.map Prod.snd = values (fs.map Prod.fst) w.toNat := by
  rw [packed_number 2 h]
  constructor
  · rintro ⟨n, hn, rfl, hvalues⟩
    have htoNat : (UInt16.ofNat n).toNat = n := UInt16.toNat_ofNat_of_lt' hn
    exact ⟨UInt16.ofNat n, by rw [Bytes.ofUInt16, htoNat], by rwa [htoNat]⟩
  · rintro ⟨w, rfl, hvalues⟩
    exact ⟨w.toNat, w.toNat_lt, rfl, hvalues⟩

end BitFields

/-! ## Values of bit fields -/

theorem bits_lt (low width n : Nat) : bits low width n < 2 ^ width :=
  Nat.mod_lt _ (Nat.two_pow_pos width)

theorem flag_eq_bits_iff {b : Bool} {i n : Nat} : b.toNat = bits i 1 n ↔ b = n.testBit i := by
  have hbit : n.testBit i = decide (bits i 1 n = 1) := testBit_eq n i
  have hlt : bits i 1 n < 2 := bits_lt i 1 n
  cases b <;> rw [hbit] <;> simp <;> omega

/-! ## Steps and their layouts -/

namespace Cursor

variable {α β : Type} {p : Cursor α} {f : α → Cursor β} {L : Layout α} {M : α → Layout β}

/-- The step succeeds exactly on octets that begin with a layout, and takes that layout. -/
def Parses (p : Cursor α) (L : Layout α) : Prop :=
  ∀ s a rest, p s = (.ok a, rest) ↔ ∃ taken, s = taken ++ rest ∧ L taken a

/-- The step succeeds exactly on octets that are a layout, and leaves none. -/
def Exhausts (p : Cursor α) (L : Layout α) : Prop :=
  ∀ s a rest, p s = (.ok a, rest) ↔ rest = [] ∧ L s a

/-- One layout and behind it another, which may depend on the value of the first. -/
def Then (L : Layout α) (M : α → Layout β) : Layout β := fun bs b =>
  ∃ a head, L head a ∧ ∃ tail, bs = head ++ tail ∧ M a tail b

/-- A layout of another value. -/
def Image (g : α → β) (L : Layout α) : Layout β := fun bs b => ∃ a, L bs a ∧ g a = b

theorem Parses.congr {L' : Layout α} (h : Parses p L) (hL : ∀ bs a, L bs a ↔ L' bs a) :
    Parses p L' := by
  intro s a rest
  rw [h]
  simp only [hL]

theorem Exhausts.congr {L' : Layout α} (h : Exhausts p L) (hL : ∀ bs a, L bs a ↔ L' bs a) :
    Exhausts p L' := by
  intro s a rest
  rw [h, hL]

theorem Exhausts.run_eq_ok_iff (h : Exhausts p L) {bs : Bytes} {a : α} :
    p.run bs = .ok a ↔ L bs a := by
  constructor
  · intro hrun
    exact ((h bs a (p bs).2).mp (Prod.ext hrun rfl)).2
  · intro hL
    exact congrArg Prod.fst ((h bs a []).mpr ⟨rfl, hL⟩)

/-- The steps of a reading that succeeds. -/
theorem bind_eq_ok {s rest : Bytes} {b : β} :
    (p >>= f) s = (.ok b, rest) ↔ ∃ a mid, p s = (.ok a, mid) ∧ f a mid = (.ok b, rest) := by
  constructor
  · intro h
    cases hp : p s with
    | mk outcome mid =>
      cases outcome with
      | ok a =>
        rw [bind_ok hp] at h
        exact ⟨a, mid, rfl, h⟩
      | error e =>
        rw [bind_error hp] at h
        injection h with h _
        cases h
  · rintro ⟨a, mid, hp, hf⟩
    rw [bind_ok hp, hf]

theorem bind_assoc {γ : Type} (p : Cursor α) (f : α → Cursor β) (g : β → Cursor γ) :
    ((p >>= f) >>= g) = p >>= fun a => f a >>= g := by
  funext s
  simp only [Bind.bind]
  cases p s with
  | mk outcome rest => cases outcome <;> rfl

/-- A computation behind an outcome. -/
theorem lift_map (r : Except SiError α) (g : α → β) :
    (lift r >>= fun a => pure (g a)) = lift (r.map g) := by
  cases r <;> rfl

/-- The first two of three steps may be taken as one. -/
theorem Parses.assoc {γ : Type} {g : β → Cursor γ} {N : Layout γ} (h : Parses ((p >>= f) >>= g) N) :
    Parses (p >>= fun a => f a >>= g) N :=
  bind_assoc p f g ▸ h

theorem Exhausts.assoc {γ : Type} {g : β → Cursor γ} {N : Layout γ}
    (h : Exhausts ((p >>= f) >>= g) N) : Exhausts (p >>= fun a => f a >>= g) N :=
  bind_assoc p f g ▸ h

theorem Parses.bind (hp : Parses p L) (hf : ∀ a, Parses (f a) (M a)) :
    Parses (p >>= f) (Then L M) := by
  intro s b rest
  rw [bind_eq_ok]
  constructor
  · rintro ⟨a, mid, ha, hb⟩
    obtain ⟨bs, rfl, hbs⟩ := (hp ..).mp ha
    obtain ⟨cs, rfl, hcs⟩ := (hf ..).mp hb
    exact ⟨bs ++ cs, (List.append_assoc ..).symm, a, bs, hbs, cs, rfl, hcs⟩
  · rintro ⟨_, rfl, a, bs, hbs, cs, rfl, hcs⟩
    exact ⟨a, cs ++ rest, (hp ..).mpr ⟨bs, List.append_assoc .., hbs⟩, (hf ..).mpr ⟨cs, rfl, hcs⟩⟩

theorem Parses.bindAll (hp : Parses p L) (hf : ∀ a, Exhausts (f a) (M a)) :
    Exhausts (p >>= f) (Then L M) := by
  intro s b rest
  rw [bind_eq_ok]
  constructor
  · rintro ⟨a, mid, ha, hb⟩
    obtain ⟨bs, rfl, hbs⟩ := (hp ..).mp ha
    obtain ⟨rfl, hmid⟩ := (hf ..).mp hb
    exact ⟨rfl, a, bs, hbs, mid, rfl, hmid⟩
  · rintro ⟨rfl, a, bs, hbs, cs, rfl, hcs⟩
    exact ⟨a, cs, (hp ..).mpr ⟨bs, rfl, hbs⟩, (hf ..).mpr ⟨rfl, hcs⟩⟩

theorem pure_eq_ok {a b : α} {s rest : Bytes} :
    (pure a : Cursor α) s = (.ok b, rest) ↔ a = b ∧ s = rest := by
  change (Except.ok a, s) = (.ok b, rest) ↔ _
  rw [Prod.mk.injEq, Except.ok.injEq]

theorem Parses.map (hp : Parses p L) (g : α → β) :
    Parses (p >>= fun a => pure (g a)) (Image g L) := by
  intro s b rest
  rw [bind_eq_ok]
  simp only [pure_eq_ok]
  constructor
  · rintro ⟨a, _, ha, rfl, rfl⟩
    obtain ⟨bs, hs, hbs⟩ := (hp ..).mp ha
    exact ⟨bs, hs, a, hbs, rfl⟩
  · rintro ⟨bs, hs, a, hbs, rfl⟩
    exact ⟨a, rest, (hp ..).mpr ⟨bs, hs, hbs⟩, rfl, rfl⟩

theorem Exhausts.map (hp : Exhausts p L) (g : α → β) :
    Exhausts (p >>= fun a => pure (g a)) (Image g L) := by
  intro s b rest
  rw [bind_eq_ok]
  simp only [pure_eq_ok]
  constructor
  · rintro ⟨a, _, ha, rfl, rfl⟩
    obtain ⟨rfl, hs⟩ := (hp ..).mp ha
    exact ⟨rfl, a, hs, rfl⟩
  · rintro ⟨rfl, a, hs, rfl⟩
    exact ⟨a, [], (hp ..).mpr ⟨rfl, hs⟩, rfl, rfl⟩

/-! ## Fields -/

theorem parses_bytes (n : Nat) : Parses (bytes n) fun bs a => bs.length = n ∧ a = bs := by
  intro s a rest
  rw [bytes]
  constructor
  · intro h
    split at h
    · rename_i head tail hsplit
      obtain ⟨hn, rfl, rfl⟩ := Bytes.split?_eq_some.mp hsplit
      obtain ⟨hok, rfl⟩ := Prod.mk.inj h
      exact ⟨s.take n, (List.take_append_drop n s).symm, List.length_take_of_le hn,
        (Except.ok.inj hok).symm⟩
    · cases (Prod.mk.inj h).1
  · rintro ⟨bs, rfl, rfl, rfl⟩
    rw [Bytes.split?_length]

theorem parses_u8 : Parses u8 fun bs b => bs = [b] := by
  intro s b rest
  cases s with
  | nil => simp [u8]
  | cons c s => simp [u8, eq_comm]

/-- A word is written by its number. -/
theorem parses_word {ω : Type} {n : Nat} {g : Nat → ω} {k : ω → Nat}
    (hgk : ∀ m, m < 256 ^ n → k (g m) = m) (hkg : ∀ w, g (k w) = w) :
    Parses (bytes n >>= fun bs => pure (g bs.number)) fun bs w =>
      k w < 256 ^ n ∧ bs = Bytes.ofNumber n (k w) := by
  refine ((parses_bytes n).map fun bs => g (Bytes.number bs)).congr fun bs w => ⟨?_, ?_⟩
  · rintro ⟨a, ⟨rfl, rfl⟩, rfl⟩
    have hlt := Bytes.number_lt a
    rw [hgk _ hlt, Bytes.ofNumber_number]
    exact ⟨hlt, rfl⟩
  · rintro ⟨hlt, rfl⟩
    refine ⟨_, ⟨Bytes.length_ofNumber .., rfl⟩, ?_⟩
    change g (Bytes.number (Bytes.ofNumber n (k w))) = w
    rw [Bytes.number_ofNumber_of_lt hlt, hkg]

theorem parses_u16 : Parses u16 fun bs w => bs = Bytes.ofUInt16 w :=
  (parses_word (fun _ h => UInt16.toNat_ofNat_of_lt' h) fun _ => UInt16.ofNat_toNat).congr
    fun _ w => and_iff_right w.toNat_lt

theorem parses_u24 : Parses u24 fun bs w => w.toNat < 256 ^ 3 ∧ bs = Bytes.ofNumber 3 w.toNat :=
  parses_word (fun _ h => UInt32.toNat_ofNat_of_lt' (Nat.lt_trans h (by decide)))
    fun _ => UInt32.ofNat_toNat

theorem parses_u32 : Parses u32 fun bs w => bs = Bytes.ofUInt32 w :=
  (parses_word (fun _ h => UInt32.toNat_ofNat_of_lt' h) fun _ => UInt32.ofNat_toNat).congr
    fun _ w => and_iff_right w.toNat_lt

/-! ## Parts and ends -/

theorem exhausts_rest : Exhausts rest fun bs a => a = bs := by
  intro s a rest
  simp [Cursor.rest, eq_comm, and_comm]

theorem Parses.exactly (h : Parses p L) : Exhausts (exactly p) L := by
  intro s a rest
  rw [Cursor.exactly, bind_eq_ok]
  constructor
  · rintro ⟨b, mid, hb, hend⟩
    obtain ⟨_, mid', hfinish, hpure⟩ := bind_eq_ok.mp hend
    obtain ⟨rfl, rfl⟩ := pure_eq_ok.mp hpure
    obtain ⟨bs, rfl, hbs⟩ := (h ..).mp hb
    cases mid with
    | nil =>
      rw [List.append_nil]
      exact ⟨(Prod.mk.inj hfinish).2.symm, hbs⟩
    | cons c mid => cases (Prod.mk.inj hfinish).1
  · rintro ⟨rfl, hs⟩
    exact ⟨a, [], (h ..).mpr ⟨s, (List.append_nil s).symm, hs⟩, rfl⟩

/-- A part that is read on its own is a layout as a whole. -/
theorem parses_part {g : Bytes → Except SiError α} (hg : ∀ bs a, g bs = .ok a ↔ L bs a)
    {q : Cursor Bytes} {N : Bytes → Bytes → Prop} (hq : Parses q N) :
    Parses (q >>= fun part => lift (g part)) fun bs a => ∃ part, N bs part ∧ L part a := by
  intro s a rest
  rw [bind_eq_ok]
  have hlift : ∀ part mid, lift (g part) mid = (.ok a, rest) ↔ L part a ∧ mid = rest := by
    intro part mid
    rw [lift, Prod.mk.injEq, hg]
  simp only [hlift]
  constructor
  · rintro ⟨part, _, hpart, hL, rfl⟩
    obtain ⟨bs, hs, hbs⟩ := (hq ..).mp hpart
    exact ⟨bs, hs, part, hbs, hL⟩
  · rintro ⟨bs, hs, part, hbs, hL⟩
    exact ⟨part, rest, (hq ..).mpr ⟨bs, hs, hbs⟩, hL, rfl⟩

/-- All that is left, read on its own. -/
theorem exhausts_part {g : Bytes → Except SiError α} (hg : ∀ bs a, g bs = .ok a ↔ L bs a) :
    Exhausts (Cursor.rest >>= fun part => lift (g part)) L := by
  intro s a rest
  rw [bind_eq_ok]
  constructor
  · rintro ⟨part, mid, hpart, hlift⟩
    obtain ⟨rfl, rfl⟩ := (exhausts_rest ..).mp hpart
    obtain ⟨hok, rfl⟩ := Prod.mk.inj hlift
    exact ⟨rfl, (hg ..).mp hok⟩
  · rintro ⟨rfl, hs⟩
    exact ⟨s, [], rfl, Prod.ext ((hg ..).mpr hs) rfl⟩

theorem Exhausts.within (h : Exhausts p L) (n : Nat) :
    Parses (within n p) fun bs a => bs.length = n ∧ L bs a := by
  refine (parses_part (fun _ _ => h.run_eq_ok_iff) (parses_bytes n)).congr fun bs a => ⟨?_, ?_⟩
  · rintro ⟨_, ⟨hlength, rfl⟩, hL⟩
    exact ⟨hlength, hL⟩
  · rintro ⟨hlength, hL⟩
    exact ⟨bs, ⟨hlength, rfl⟩, hL⟩

/-! ## Loops -/

/-- Entries one after the other and nothing else. -/
def Many (L : Layout α) : Layout (List α) := fun bs as =>
  ∃ parts : List Bytes, bs = parts.flatten ∧ List.Forall₂ L parts as

theorem many_nil {bs : Bytes} : Many L bs [] ↔ bs = [] := by
  constructor
  · rintro ⟨_, rfl, ⟨⟩⟩
    rfl
  · rintro rfl
    exact ⟨[], rfl, .nil⟩

theorem many_cons {bs : Bytes} {a : α} {as : List α} :
    Many L bs (a :: as) ↔ ∃ cs ds, bs = cs ++ ds ∧ L cs a ∧ Many L ds as := by
  constructor
  · rintro ⟨_, rfl, hparts⟩
    cases hparts with
    | cons hentry hrest => exact ⟨_, _, List.flatten_cons, hentry, _, rfl, hrest⟩
  · rintro ⟨cs, _, rfl, hentry, parts, rfl, hrest⟩
    exact ⟨cs :: parts, List.flatten_cons.symm, .cons hentry hrest⟩

/-- Entries with one written form each have one written form together. -/
theorem many_iff_flatMap {P : α → Prop} {write : α → Bytes}
    (hL : ∀ bs a, L bs a ↔ P a ∧ bs = write a) {bs : Bytes} {as : List α} :
    Many L bs as ↔ (∀ a ∈ as, P a) ∧ bs = as.flatMap write := by
  induction as generalizing bs with
  | nil => simp [many_nil]
  | cons a as ih =>
    rw [many_cons, List.forall_mem_cons, List.flatMap_cons]
    constructor
    · rintro ⟨cs, ds, rfl, hentry, hrest⟩
      obtain ⟨ha, rfl⟩ := (hL ..).mp hentry
      obtain ⟨has, rfl⟩ := ih.mp hrest
      exact ⟨⟨ha, has⟩, rfl⟩
    · rintro ⟨⟨ha, has⟩, rfl⟩
      exact ⟨_, _, rfl, (hL ..).mpr ⟨ha, rfl⟩, ih.mpr ⟨has, rfl⟩⟩

theorem Many.of_empty {as : List α} (hpos : ∀ bs a, L bs a → bs ≠ []) (h : Many L [] as) :
    as = [] := by
  cases as with
  | nil => rfl
  | cons a as =>
    obtain ⟨cs, ds, hnil, hentry, _⟩ := many_cons.mp h
    exact absurd (List.append_eq_nil_iff.mp hnil.symm).1 (hpos cs a hentry)

/-- One step of a loop: an entry, and the entries behind it. -/
theorem cons_eq_ok {q : Cursor (List α)} {s rest : Bytes} {as : List α} :
    (p >>= fun a => q >>= fun as => pure (a :: as)) s = (.ok as, rest) ↔
      ∃ a as' mid, as = a :: as' ∧ p s = (.ok a, mid) ∧ q mid = (.ok as', rest) := by
  simp only [bind_eq_ok, pure_eq_ok]
  constructor
  · rintro ⟨a, mid, ha, as', _, has, rfl, rfl⟩
    exact ⟨a, as', mid, rfl, ha, has⟩
  · rintro ⟨a, as', mid, rfl, ha, has⟩
    exact ⟨a, mid, ha, as', rest, has, rfl, rfl⟩

theorem Parses.repeated (h : Parses p L) (n : Nat) :
    Parses (repeated p n) fun bs as => as.length = n ∧ Many L bs as := by
  induction n with
  | zero =>
    intro s as rest
    rw [Cursor.repeated, pure_eq_ok]
    constructor
    · rintro ⟨rfl, rfl⟩
      exact ⟨[], rfl, rfl, many_nil.mpr rfl⟩
    · rintro ⟨bs, rfl, hlength, hbs⟩
      obtain rfl := List.eq_nil_of_length_eq_zero hlength
      obtain rfl := many_nil.mp hbs
      exact ⟨rfl, rfl⟩
  | succ n ih =>
    intro s as rest
    rw [Cursor.repeated, cons_eq_ok]
    constructor
    · rintro ⟨a, as', mid, rfl, ha, has⟩
      obtain ⟨cs, rfl, hcs⟩ := (h ..).mp ha
      obtain ⟨ds, rfl, hlength, hds⟩ := (ih ..).mp has
      refine ⟨cs ++ ds, (List.append_assoc ..).symm, ?_, many_cons.mpr ⟨cs, ds, rfl, hcs, hds⟩⟩
      rw [List.length_cons, hlength]
    · rintro ⟨bs, rfl, hlength, hbs⟩
      cases as with
      | nil => cases hlength
      | cons a as =>
        obtain ⟨cs, ds, rfl, hcs, hds⟩ := many_cons.mp hbs
        exact ⟨a, as, ds ++ rest, rfl, (h ..).mpr ⟨cs, List.append_assoc .., hcs⟩,
          (ih ..).mpr ⟨ds, rfl, Nat.succ.inj hlength, hds⟩⟩

/-- Every entry has octets, so as many tries as there are octets are enough. -/
theorem Parses.untilEndWithin (h : Parses p L) (hpos : ∀ bs a, L bs a → bs ≠ []) (fuel : Nat)
    {s rest : Bytes} {as : List α} (hfuel : s.length ≤ fuel) :
    Cursor.untilEndWithin p fuel s = (.ok as, rest) ↔ rest = [] ∧ Many L s as := by
  induction fuel generalizing s as with
  | zero =>
    obtain rfl := List.eq_nil_of_length_eq_zero (Nat.le_zero.mp hfuel)
    rw [Cursor.untilEndWithin, pure_eq_ok]
    constructor
    · rintro ⟨rfl, rfl⟩
      exact ⟨rfl, many_nil.mpr rfl⟩
    · rintro ⟨rfl, hs⟩
      exact ⟨(hs.of_empty hpos).symm, rfl⟩
  | succ fuel ih =>
    cases s with
    | nil =>
      change (Except.ok [], []) = _ ↔ _
      rw [Prod.mk.injEq, Except.ok.injEq]
      constructor
      · rintro ⟨rfl, rfl⟩
        exact ⟨rfl, many_nil.mpr rfl⟩
      · rintro ⟨rfl, hs⟩
        exact ⟨(hs.of_empty hpos).symm, rfl⟩
    | cons b s =>
      change (p >>= fun a => Cursor.untilEndWithin p fuel >>= fun as => pure (a :: as)) (b :: s) = _
        ↔ _
      rw [cons_eq_ok]
      have hshort : ∀ {cs ds : Bytes} {a : α}, L cs a → b :: s = cs ++ ds → ds.length ≤ fuel := by
        intro cs ds a hcs hs
        have hlength := congrArg List.length hs
        have hcs := List.length_pos_of_ne_nil (hpos cs a hcs)
        rw [List.length_append] at hlength
        omega
      constructor
      · rintro ⟨a, as', mid, rfl, ha, has⟩
        obtain ⟨cs, hs, hcs⟩ := (h ..).mp ha
        obtain ⟨rfl, hmid⟩ := (ih (hshort hcs hs)).mp has
        exact ⟨rfl, many_cons.mpr ⟨cs, mid, hs, hcs, hmid⟩⟩
      · rintro ⟨rfl, hs⟩
        cases as with
        | nil => cases many_nil.mp hs
        | cons a as =>
          obtain ⟨cs, ds, hs, hcs, hds⟩ := many_cons.mp hs
          exact ⟨a, as, ds, rfl, (h ..).mpr ⟨cs, hs, hcs⟩, (ih (hshort hcs hs)).mpr ⟨rfl, hds⟩⟩

theorem Parses.untilEnd (h : Parses p L) (hpos : ∀ bs a, L bs a → bs ≠ []) :
    Exhausts (untilEnd p) (Many L) := fun s _ _ =>
  h.untilEndWithin hpos s.length (Nat.le_refl _)

/-- Entries take as many octets together as each by itself. -/
theorem Many.length {size : α → Nat} (hL : ∀ bs a, L bs a → bs.length = size a) {bs : Bytes}
    {as : List α} (h : Many L bs as) : bs.length = (as.map size).sum := by
  induction as generalizing bs with
  | nil => rw [many_nil.mp h, List.map_nil, List.sum_nil, List.length_nil]
  | cons a as ih =>
    obtain ⟨cs, ds, rfl, hentry, hrest⟩ := many_cons.mp h
    rw [List.length_append, hL cs a hentry, ih hrest, List.map_cons, List.sum_cons]

/-- What holds of whatever an entry can be holds of all entries. -/
theorem Many.forall {P : α → Prop} (hL : ∀ bs a, L bs a → P a) {bs : Bytes} {as : List α}
    (h : Many L bs as) : ∀ a ∈ as, P a := by
  induction as generalizing bs with
  | nil => exact nofun
  | cons a as ih =>
    obtain ⟨cs, ds, -, hentry, hrest⟩ := many_cons.mp h
    exact List.forall_mem_cons.mpr ⟨hL cs a hentry, ih hrest⟩

/-- The check for a whole number of entries refuses no entries. -/
theorem Parses.entries (h : Parses p L) {size : Nat} (hsize : 0 < size)
    (hL : ∀ bs a, L bs a → bs.length = size) : Exhausts (entries size p) (Many L) := by
  have hall := h.untilEnd fun bs a ha => List.ne_nil_of_length_pos ((hL bs a ha).symm ▸ hsize)
  intro s as rest
  rw [Cursor.entries]
  by_cases hwhole : s.length % size = 0
  · rw [if_pos hwhole]
    exact hall s as rest
  · rw [if_neg hwhole]
    refine iff_of_false (fun h => ?_) fun hmany => hwhole ?_
    · cases (Prod.mk.inj h).1
    · rw [hmany.2.length hL, List.map_const', List.sum_replicate, smul_eq_mul]
      exact Nat.mul_mod_left ..

end Cursor

end DvbHost
