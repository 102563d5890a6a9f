import Mathlib.Tactic.IntervalCases
import DvbHost.Text.Utf8

/-!
# What replaces broken UTF-8

`Replaced` says which text a byte string stands for without mention of a decoder: a character's
octets are the character, and where no character can be read the longest beginning of one, or a
single octet that begins none, is one replacement character. These are the maximal subparts of the
Unicode standard. The decoder gives this text and no other is possible.
-/

namespace DvbHost.Text.Utf8

set_option autoImplicit false

open String (utf8EncodeChar)

/-! ## The text of a byte string -/

/-- The octets are the first ones of some character. -/
def Begins (part : Bytes) : Prop := ∃ c : Char, part <+: utf8EncodeChar c

/-- No character can be read in front of `part ++ rest`, and `part` is as much of it as one
replacement character stands for. -/
structure Broken (part rest : Bytes) : Prop where
  nonempty : part ≠ []
  unreadable : ∀ c, ¬ utf8EncodeChar c <+: part ++ rest
  subpart : Begins part ∨ part.length = 1
  longest : ∀ longer, longer <+: part ++ rest → Begins longer → longer.length ≤ part.length

inductive Replaced : Bytes → List Char → Prop where
  | nil : Replaced [] []
  | char (c : Char) {rest : Bytes} {cs : List Char} :
      Replaced rest cs → Replaced (utf8EncodeChar c ++ rest) (c :: cs)
  | broken {part rest : Bytes} {cs : List Char} :
      Broken part rest → Replaced rest cs → Replaced (part ++ rest) (replacement :: cs)

/-! ## The octets of a character -/

/-- The numbers of the characters that take `n` octets. -/
def Takes (n m : Nat) : Prop :=
  (n = 1 ∧ m < 0x80) ∨ (n = 2 ∧ 0x80 ≤ m ∧ m < 0x800) ∨
    (n = 3 ∧ 0x800 ≤ m ∧ m < 0x10000 ∧ ¬ (0xD800 ≤ m ∧ m < 0xE000)) ∨
    (n = 4 ∧ 0x10000 ≤ m ∧ m < 0x110000)

theorem takes_toNat_iff {c : Char} {n : Nat} : Takes n c.toNat ↔ c.utf8Size = n := by
  have hvalid : c.toNat < 0xD800 ∨ 0xDFFF < c.toNat ∧ c.toNat < 0x110000 := c.valid
  have h1 : c.utf8Size = 1 ↔ c.toNat ≤ 0x7F := Char.utf8Size_eq_one_iff
  have h2 : c.utf8Size = 2 ↔ 0x7F < c.toNat ∧ c.toNat ≤ 0x7FF := Char.utf8Size_eq_two_iff
  have h3 : c.utf8Size = 3 ↔ 0x7FF < c.toNat ∧ c.toNat ≤ 0xFFFF := Char.utf8Size_eq_three_iff
  have h4 : c.utf8Size = 4 ↔ 0xFFFF < c.toNat := Char.utf8Size_eq_four_iff
  have hsize := c.utf8Size_eq
  unfold Takes
  omega

theorem exists_of_takes {n m : Nat} (h : Takes n m) : ∃ c : Char, c.toNat = m ∧ c.utf8Size = n := by
  have hvalid : m.isValidChar := by
    unfold Takes at h
    unfold Nat.isValidChar
    omega
  exact ⟨Char.ofNatAux m hvalid, rfl, takes_toNat_iff.mp h⟩

/-- Characters are cut into blocks by their last bits, and all of a block take as many octets. -/
theorem Takes.of_block {n m k l : Nat} (h : Takes n m) (hk : k + 1 < n)
    (hblock : m / 64 ^ k = l / 64 ^ k) : Takes n l := by
  have hk : k ≤ 2 := by
    unfold Takes at h
    omega
  -- No block reaches over 0x800, 0x10000, 0x110000 or an end of the surrogates.
  unfold Takes at h ⊢
  interval_cases k <;> norm_num at hblock <;> omega

/-- The first octet of a character. -/
def lead (n m : Nat) : Nat :=
  match n with
  | 1 => m
  | 2 => 0xC0 + m / 64
  | 3 => 0xE0 + m / 64 ^ 2
  | _ => 0xF0 + m / 64 ^ 3

/-- The `n` octets behind the first one, of six bits each. -/
def behind : Nat → Nat → Bytes
  | 0, _ => []
  | n + 1, m => UInt8.ofNat (0x80 + m / 64 ^ n % 64) :: behind n m

theorem utf8EncodeChar_eq (c : Char) :
    utf8EncodeChar c =
      UInt8.ofNat (lead c.utf8Size c.toNat) :: behind (c.utf8Size - 1) c.toNat := by
  have htakes : Takes c.utf8Size c.toNat := takes_toNat_iff.mpr rfl
  unfold utf8EncodeChar
  simp only [Char.toNat_val]
  obtain ⟨hn, h⟩ | ⟨hn, h⟩ | ⟨hn, h⟩ | ⟨hn, h⟩ := htakes
  · rw [hn, if_pos (by omega)]
    rfl
  · have htop : c.toNat / 64 % 32 = c.toNat / 64 := by omega
    rw [hn, if_neg (by omega), if_pos (by omega), htop]
    simp [lead, behind, Nat.add_comm]
  · have htop : c.toNat / 4096 % 16 = c.toNat / 4096 := by omega
    rw [hn, if_neg (by omega), if_neg (by omega), if_pos (by omega), htop]
    simp [lead, behind, Nat.add_comm]
  · have htop : c.toNat / 262144 % 8 = c.toNat / 262144 := by omega
    rw [hn, if_neg (by omega), if_neg (by omega), if_neg (by omega), htop]
    simp [lead, behind, Nat.add_comm]

theorem getElem?_behind {n m j : Nat} (hj : j < n) :
    (behind n m)[j]? = some (UInt8.ofNat (0x80 + m / 64 ^ (n - 1 - j) % 64)) := by
  induction n generalizing j with
  | zero => exact absurd hj (Nat.not_lt_zero j)
  | succ n ih =>
    cases j with
    | zero => rfl
    | succ j =>
      rw [behind, List.getElem?_cons_succ, ih (Nat.lt_of_succ_lt_succ hj)]
      rw [show n + 1 - 1 - (j + 1) = n - 1 - j by omega]

/-- An octet that is not the first of a character. -/
theorem getElem?_utf8EncodeChar {c : Char} {j : Nat} (hpos : 0 < j) (hj : j < c.utf8Size) :
    (utf8EncodeChar c)[j]? =
      some (UInt8.ofNat (0x80 + c.toNat / 64 ^ (c.utf8Size - 1 - j) % 64)) := by
  obtain ⟨i, rfl⟩ := Nat.exists_eq_add_of_lt hpos
  rw [utf8EncodeChar_eq, Nat.zero_add, List.getElem?_cons_succ, getElem?_behind (by omega)]
  rw [show c.utf8Size - 1 - 1 - i = c.utf8Size - 1 - (i + 1) by omega]

theorem lead_eq_iff {b n m : Nat} (h : Takes n m) :
    b = lead n m ↔ (n = 1 ∧ b = m) ∨ (n = 2 ∧ b = 0xC0 + m / 64) ∨
      (n = 3 ∧ b = 0xE0 + m / 64 ^ 2) ∨ (n = 4 ∧ b = 0xF0 + m / 64 ^ 3) := by
  unfold Takes at h
  obtain ⟨rfl, -⟩ | ⟨rfl, -⟩ | ⟨rfl, -⟩ | ⟨rfl, -⟩ := h <;> simp [lead]

theorem lead_lt {n m : Nat} (h : Takes n m) : lead n m < 256 := by
  have hlead := (lead_eq_iff h).mp rfl
  unfold Takes at h
  omega

theorem singleton_prefix_iff {b : UInt8} {c : Char} :
    [b] <+: utf8EncodeChar c ↔ b.toNat = lead c.utf8Size c.toNat := by
  have hlead : lead c.utf8Size c.toNat < 256 := lead_lt (takes_toNat_iff.mpr rfl)
  rw [utf8EncodeChar_eq, List.cons_prefix_cons, and_iff_left List.nil_prefix, ← UInt8.toNat_inj,
    UInt8.toNat_ofNat_of_lt' hlead]

/-- A character is not the beginning of another one. -/
theorem eq_of_isPrefix {c d : Char} (h : utf8EncodeChar c <+: utf8EncodeChar d) : c = d := by
  obtain ⟨tail, htail⟩ := h
  have hc := @ByteArray.utf8DecodeChar?_utf8EncodeChar_append tail.toByteArray c
  have hd := @ByteArray.utf8DecodeChar?_utf8EncodeChar_append ByteArray.empty d
  rw [← List.toByteArray_append, htail] at hc
  rw [ByteArray.append_empty, hc] at hd
  exact Option.some.inj hd

theorem concat_prefix_iff {α : Type} {p l : List α} {x : α} :
    p ++ [x] <+: l ↔ p <+: l ∧ l[p.length]? = some x := by
  constructor
  · rintro ⟨tail, rfl⟩
    exact ⟨⟨x :: tail, by simp⟩, by simp⟩
  · rintro ⟨⟨tail, rfl⟩, hx⟩
    cases tail with
    | nil => simp at hx
    | cons y tail =>
      obtain rfl : y = x := by simpa using hx
      exact ⟨tail, by simp⟩

/-! ## A character under way -/

/-- The characters that begin with the octets are those with `owed` more octets and, before the
bits of these, the value. -/
structure Standing (part : Bytes) (value owed : Nat) : Prop where
  nonempty : part ≠ []
  pos : 0 < owed
  prefix_iff : ∀ c : Char, part <+: utf8EncodeChar c ↔
    c.utf8Size = part.length + owed ∧ c.toNat / 64 ^ owed = value

/-- The decoder is in the state after the octets, and waits for just the octets that go on. -/
structure Reached (part : Bytes) (p : Pending) : Prop extends Standing part p.value p.owed where
  begins : Begins part
  next_iff : ∀ x : UInt8, p.low ≤ x.toNat ∧ x.toNat ≤ p.high ↔ Begins (part ++ [x])

theorem Begins.of_concat {part : Bytes} {x : UInt8} (h : Begins (part ++ [x])) : Begins part :=
  h.imp fun _ hc => (List.prefix_append part [x]).trans hc

namespace Standing

variable {part : Bytes} {value owed : Nat}

theorem concat_prefix_iff (h : Standing part value owed) {x : UInt8} {c : Char} :
    part ++ [x] <+: utf8EncodeChar c ↔ c.utf8Size = part.length + owed ∧
      (0x80 ≤ x.toNat ∧ x.toNat < 0xC0) ∧
      c.toNat / 64 ^ (owed - 1) = value * 64 + x.toNat % 64 := by
  have hpos := h.pos
  have hlength := List.length_pos_iff.mpr h.nonempty
  rw [Utf8.concat_prefix_iff, h.prefix_iff, and_assoc]
  refine and_congr_right fun hsize => ?_
  rw [getElem?_utf8EncodeChar hlength (by omega), Option.some_inj, ← UInt8.toNat_inj,
    show c.utf8Size - 1 - part.length = owed - 1 by omega,
    show c.toNat / 64 ^ owed = c.toNat / 64 ^ (owed - 1) / 64 by
      rw [Nat.div_div_eq_div_mul, ← Nat.pow_succ, Nat.succ_eq_add_one, Nat.sub_add_cancel hpos],
    UInt8.toNat_ofNat_of_lt' (by change _ < 256; omega)]
  omega

/-- The first of the characters that have `x` next tells whether there are any. -/
theorem begins_concat_iff (h : Standing part value owed) {x : UInt8} :
    Begins (part ++ [x]) ↔ (0x80 ≤ x.toNat ∧ x.toNat < 0xC0) ∧
      Takes (part.length + owed) ((value * 64 + x.toNat % 64) * 64 ^ (owed - 1)) := by
  have hpos := h.pos
  have hlength := List.length_pos_iff.mpr h.nonempty
  have hpow : 0 < 64 ^ (owed - 1) := Nat.pow_pos (by decide)
  constructor
  · rintro ⟨c, hc⟩
    obtain ⟨hsize, hx, hvalue⟩ := h.concat_prefix_iff.mp hc
    refine ⟨hx, (takes_toNat_iff.mpr hsize).of_block (k := owed - 1) (by omega) ?_⟩
    rw [Nat.mul_div_cancel _ hpow, hvalue]
  · rintro ⟨hx, htakes⟩
    obtain ⟨c, hnumber, hsize⟩ := exists_of_takes htakes
    refine ⟨c, h.concat_prefix_iff.mpr ⟨hsize, hx, ?_⟩⟩
    rw [hnumber, Nat.mul_div_cancel _ hpow]

theorem concat (h : Standing part value owed) (howed : 1 < owed) {x : UInt8}
    (hx : 0x80 ≤ x.toNat ∧ x.toNat < 0xC0) :
    Standing (part ++ [x]) (value * 64 + x.toNat % 64) (owed - 1) where
  nonempty := by simp
  pos := by omega
  prefix_iff c := by
    rw [h.concat_prefix_iff, and_iff_right hx, List.length_append, List.length_singleton]
    rw [show part.length + 1 + (owed - 1) = part.length + owed by omega]

/-- The state that waits for the octets of a range, if these are the ones that go on. -/
theorem reached {low high : Nat} (h : Standing part value owed) (hle : low ≤ high)
    (hmax : high < 256)
    (hrange : ∀ x : UInt8, low ≤ x.toNat ∧ x.toNat ≤ high ↔ (0x80 ≤ x.toNat ∧ x.toNat < 0xC0) ∧
      Takes (part.length + owed) ((value * 64 + x.toNat % 64) * 64 ^ (owed - 1))) :
    Reached part ⟨value, owed, low, high⟩ := by
  have hnext (x : UInt8) : low ≤ x.toNat ∧ x.toNat ≤ high ↔ Begins (part ++ [x]) := by
    rw [h.begins_concat_iff, hrange]
  have hlow : (UInt8.ofNat low).toNat = low :=
    UInt8.toNat_ofNat_of_lt' (Nat.lt_of_le_of_lt hle hmax)
  exact ⟨h, ((hnext (UInt8.ofNat low)).mp (by omega)).of_concat, hnext⟩

end Standing

namespace Reached

variable {part : Bytes} {p : Pending}

/-- An octet that goes on and is not the last one. -/
theorem concat (h : Reached part p) (howed : 1 < p.owed) {x : UInt8}
    (hx : p.low ≤ x.toNat ∧ x.toNat ≤ p.high) :
    Reached (part ++ [x]) ⟨p.value * 64 + x.toNat % 64, p.owed - 1, 0x80, 0xBF⟩ := by
  obtain ⟨c, hc⟩ := (h.next_iff x).mp hx
  have hstanding := h.toStanding.concat howed (h.concat_prefix_iff.mp hc).2.1
  obtain ⟨hsize, hvalue⟩ := (hstanding.prefix_iff c).mp hc
  refine hstanding.reached (by decide) (by decide) fun y => ?_
  have hblock : Takes ((part ++ [x]).length + (p.owed - 1))
      (((p.value * 64 + x.toNat % 64) * 64 + y.toNat % 64) * 64 ^ (p.owed - 1 - 1)) := by
    have hlength : 0 < part.length := List.length_pos_iff.mpr h.nonempty
    refine (takes_toNat_iff.mpr hsize).of_block (k := p.owed - 1) ?_ ?_
    · rw [List.length_append, List.length_singleton]
      omega
    · obtain ⟨k, hk⟩ := Nat.exists_eq_add_of_lt howed
      rw [hvalue, show p.owed - 1 = k + 1 by omega, Nat.add_sub_cancel, Nat.pow_succ,
        ← Nat.div_div_eq_div_mul, Nat.mul_div_cancel _ (Nat.pow_pos (by decide))]
      omega
  exact ⟨fun hy => ⟨⟨hy.1, by omega⟩, hblock⟩, fun hy => ⟨hy.1.1, by omega⟩⟩

/-- An octet that goes on and is the last one. -/
theorem complete (h : Reached part p) (howed : p.owed = 1) {x : UInt8}
    (hx : p.low ≤ x.toNat ∧ x.toNat ≤ p.high) :
    utf8EncodeChar (Char.ofNat (p.value * 64 + x.toNat % 64)) = part ++ [x] := by
  obtain ⟨c, hc⟩ := (h.next_iff x).mp hx
  obtain ⟨hsize, -, hvalue⟩ := h.concat_prefix_iff.mp hc
  have hnumber : c.toNat = p.value * 64 + x.toNat % 64 := by
    simpa [howed] using hvalue
  rw [← hnumber, Char.ofNat_toNat]
  refine (hc.eq_of_length ?_).symm
  rw [List.length_append, List.length_singleton, String.length_utf8EncodeChar, hsize, howed]

theorem not_complete (h : Reached part p) (c : Char) : ¬ utf8EncodeChar c <+: part := by
  intro hc
  obtain ⟨d, hd⟩ := h.begins
  obtain rfl := eq_of_isPrefix (hc.trans hd)
  have hsize := ((h.prefix_iff c).mp hd).1
  have hlength := hc.length_le
  have hpos := h.pos
  rw [String.length_utf8EncodeChar] at hlength
  omega

end Reached

/-- Octets with none of a character behind that could go on. -/
theorem Broken.of_next {part rest : Bytes} (hne : part ≠ [])
    (hcomplete : ∀ c, ¬ utf8EncodeChar c <+: part) (hsubpart : Begins part ∨ part.length = 1)
    (hnext : ∀ x ∈ rest.head?, ¬ Begins (part ++ [x])) : Broken part rest := by
  have hlongest (longer : Bytes) (hlonger : longer <+: part ++ rest) (hbegins : Begins longer) :
      longer.length ≤ part.length := by
    by_contra hlength
    have hlonger_length := hlonger.length_le
    rw [List.length_append] at hlonger_length
    cases rest with
    | nil => exact hlength hlonger_length
    | cons x rest =>
      have hx : part ++ [x] <+: part ++ x :: rest := ⟨rest, by simp⟩
      have hpart := List.prefix_of_prefix_length_le hx hlonger (by simp; omega)
      exact hnext x rfl (hbegins.imp fun _ hc => hpart.trans hc)
  refine ⟨hne, fun c hc => ?_, hsubpart, hlongest⟩
  have hlength := hlongest _ hc ⟨c, List.prefix_rfl⟩
  exact hcomplete c (List.prefix_of_prefix_length_le hc (List.prefix_append part rest) hlength)

/-! ## The decoder -/

/-- What a first octet `b` makes of the state between characters. -/
theorem reached_lead {b : UInt8} {value owed low high : Nat} (howed : 0 < owed) (hle : low ≤ high)
    (hmax : high < 256)
    (hlead : ∀ n m, Takes n m → (b.toNat = lead n m ↔ n = 1 + owed ∧ m / 64 ^ owed = value))
    (hrange : ∀ x < 256, low ≤ x ∧ x ≤ high ↔
      (0x80 ≤ x ∧ x < 0xC0) ∧ Takes (1 + owed) ((value * 64 + x % 64) * 64 ^ (owed - 1))) :
    Reached [b] ⟨value, owed, low, high⟩ := by
  have hstanding : Standing [b] value owed :=
    ⟨List.cons_ne_nil _ _, howed, fun c => by
      rw [singleton_prefix_iff, hlead _ _ (takes_toNat_iff.mpr rfl), List.length_singleton]⟩
  exact hstanding.reached hle hmax fun x => hrange x.toNat x.toNat_lt

/-- What an octet between characters is: a character, the first octet of one, or neither. -/
theorem start_cases (b : UInt8) :
    (∃ c, start b.toNat = ([c], none) ∧ utf8EncodeChar c = [b]) ∨
    (∃ p, start b.toNat = ([], some p) ∧ Reached [b] p) ∨
    (start b.toNat = ([replacement], none) ∧ ¬ Begins [b]) := by
  have hb := b.toNat_lt
  unfold start
  split_ifs with hascii
  case pos =>
    obtain ⟨c, hnumber, hsize⟩ := exists_of_takes (.inl ⟨rfl, hascii⟩)
    refine .inl ⟨c, ?_, ?_⟩
    · rw [← hnumber, Char.ofNat_toNat]
    · rw [utf8EncodeChar_eq, hsize, hnumber]
      simp [lead, behind]
  case neg =>
    refine .inr (.inr ⟨rfl, fun ⟨c, hc⟩ => ?_⟩)
    have htakes : Takes c.utf8Size c.toNat := takes_toNat_iff.mpr rfl
    have hlead := (lead_eq_iff htakes).mp (singleton_prefix_iff.mp hc)
    unfold Takes at htakes
    omega
  -- First octets differ in their numbers only: the bits, how many octets are owed, the range.
  all_goals
    refine .inr (.inl ⟨_, rfl, reached_lead (by decide) (by decide) (by decide) ?_ ?_⟩)
    · intro n m h
      rw [lead_eq_iff h]
      unfold Takes at h
      norm_num
      omega
    · intro x hx
      norm_num [Takes]
      omega

/-- A character under way with nothing behind that goes on. -/
theorem Reached.broken {part rest : Bytes} {p : Pending} (h : Reached part p)
    (hnext : ∀ x ∈ rest.head?, ¬ (p.low ≤ x.toNat ∧ x.toNat ≤ p.high)) : Broken part rest :=
  .of_next h.nonempty h.not_complete (.inl h.begins) fun x hx =>
    fun hbegins => hnext x hx ((h.next_iff x).mpr hbegins)

/-- An octet between characters that begins none. -/
theorem Broken.of_not_begins {b : UInt8} {rest : Bytes} (h : ¬ Begins [b]) : Broken [b] rest := by
  refine .of_next (List.cons_ne_nil _ _) (fun c hc => h ⟨c, ?_⟩) (.inr rfl) fun x _ hbegins =>
    h (show Begins ([b] ++ [x]) from hbegins).of_concat
  have hlength := hc.length_le
  have hpos := c.utf8Size_pos
  rw [String.length_utf8EncodeChar, List.length_singleton] at hlength
  exact hc.eq_of_length_le (by rw [String.length_utf8EncodeChar]; exact hpos) ▸ List.prefix_rfl

/-- The decoder gives what the octets stand for, together with those of the character under way. -/
theorem replaced_decodeFrom (bs : Bytes) :
    Replaced bs (decodeFrom none bs) ∧
    ∀ part p, Reached part p → Replaced (part ++ bs) (decodeFrom (some p) bs) := by
  -- By the octets that are left: `Reached` is what the state says of those before them.
  induction bs with
  | nil => exact ⟨.nil, fun part p h => .broken (h.broken (by simp)) .nil⟩
  | cons b bs ih =>
    have hnone : Replaced (b :: bs) (decodeFrom none (b :: bs)) := by
      rw [decodeFrom]
      obtain ⟨c, hstart, hc⟩ | ⟨p, hstart, hp⟩ | ⟨hstart, hb⟩ := start_cases b
      · rw [hstart]
        have h := Replaced.char c ih.1
        rwa [hc] at h
      · rw [hstart]
        exact ih.2 [b] p hp
      · rw [hstart]
        exact .broken (.of_not_begins hb) ih.1
    refine ⟨hnone, fun part p h => ?_⟩
    rw [decodeFrom, advance]
    split
    · next hx =>
      have howed := h.pos
      split
      · next hlast =>
        have hreplaced := Replaced.char (Char.ofNat (p.value * 64 + b.toNat % 64)) ih.1
        rwa [h.complete (by omega) hx, List.append_assoc] at hreplaced
      · next hmore =>
        have hreplaced := ih.2 _ _ (h.concat (by omega) hx)
        rwa [List.append_assoc] at hreplaced
    · next hx =>
      have hbroken : Broken part (b :: bs) := h.broken (by simpa using hx)
      exact .broken hbroken hnone

/-! ## One text for each byte string -/

theorem Broken.length_le {part rest part' rest' : Bytes} (h : Broken part rest)
    (h' : Broken part' rest') (heq : part ++ rest = part' ++ rest') :
    part.length ≤ part'.length := by
  obtain hbegins | hone := h.subpart
  · exact h'.longest part (heq ▸ List.prefix_append part rest) hbegins
  · exact hone ▸ List.length_pos_iff.mpr h'.nonempty

namespace Replaced

variable {bs part rest : Bytes} {cs ds : List Char}

theorem eq_nil (h : Replaced [] cs) : cs = [] := by
  generalize hbs : [] = bs at h
  cases h with
  | nil => rfl
  | char c _ =>
    have hempty := (List.append_eq_nil_iff.mp hbs.symm).1
    rw [utf8EncodeChar_eq] at hempty
    cases hempty
  | broken hbroken _ => exact absurd (List.append_eq_nil_iff.mp hbs.symm).1 hbroken.nonempty

theorem eq_char {c : Char} (h : Replaced (utf8EncodeChar c ++ rest) cs) :
    ∃ ds, cs = c :: ds ∧ Replaced rest ds := by
  generalize hbs : utf8EncodeChar c ++ rest = bs at h
  cases h with
  | nil =>
    have hempty := (List.append_eq_nil_iff.mp hbs).1
    rw [utf8EncodeChar_eq] at hempty
    cases hempty
  | char d hrest =>
    have hc := List.prefix_append (utf8EncodeChar c) rest
    have hd : utf8EncodeChar d <+: utf8EncodeChar c ++ rest := hbs ▸ List.prefix_append _ _
    obtain rfl : c = d := by
      obtain h | h := List.prefix_or_prefix_of_prefix hc hd
      · exact eq_of_isPrefix h
      · exact (eq_of_isPrefix h).symm
    exact ⟨_, rfl, List.append_cancel_left hbs ▸ hrest⟩
  | broken hbroken _ =>
    exact absurd (hbs ▸ List.prefix_append _ _) (hbroken.unreadable c)

theorem eq_broken (hbroken : Broken part rest) (h : Replaced (part ++ rest) cs) :
    ∃ ds, cs = replacement :: ds ∧ Replaced rest ds := by
  generalize hbs : part ++ rest = bs at h
  cases h with
  | nil => exact absurd (List.append_eq_nil_iff.mp hbs).1 hbroken.nonempty
  | char c _ => exact absurd (hbs ▸ List.prefix_append _ _) (hbroken.unreadable c)
  | broken hbroken' hrest =>
    have hlength := Nat.le_antisymm (hbroken.length_le hbroken' hbs)
      (hbroken'.length_le hbroken hbs.symm)
    obtain ⟨-, rfl⟩ := List.append_inj hbs hlength
    exact ⟨_, rfl, hrest⟩

theorem unique (h : Replaced bs cs) (h' : Replaced bs ds) : cs = ds := by
  induction h generalizing ds with
  | nil => exact h'.eq_nil.symm
  | char c _ ih =>
    obtain ⟨ds, rfl, hrest⟩ := h'.eq_char
    rw [ih hrest]
  | broken hbroken _ ih =>
    obtain ⟨ds, rfl, hrest⟩ := h'.eq_broken hbroken
    rw [ih hrest]

end Replaced

theorem decode_eq_iff {bs : Bytes} {cs : List Char} : decode bs = cs ↔ Replaced bs cs :=
  ⟨fun h => h ▸ (replaced_decodeFrom bs).1, fun h => (replaced_decodeFrom bs).1.unique h⟩

/-- The octets of characters are read as these characters. -/
theorem decode_utf8 (cs : List Char) : decode (cs.flatMap utf8EncodeChar) = cs := by
  rw [decode_eq_iff]
  induction cs with
  | nil => exact .nil
  | cons c cs ih => exact .char c ih

end DvbHost.Text.Utf8
