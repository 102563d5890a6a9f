import DvbHost.Bytes
import Mathlib

/-!
# Laws of byte strings

A field of `width` octets holds the numbers below `256 ^ width`, and `number` reads back those that
`ofNumber` writes. Bit fields are quotients and remainders, which `bits_eq` makes plain to arithmetic.
-/

namespace DvbHost.Bytes

set_option autoImplicit false

variable {n : Nat} {bs head tail : Bytes}

theorem split?_eq_some :
    split? n bs = some (head, tail) ↔ n ≤ bs.length ∧ head = bs.take n ∧ tail = bs.drop n := by
  rw [split?]
  by_cases h : n ≤ bs.length
  · rw [if_pos h, Option.some.injEq, Prod.mk.injEq]
    exact ⟨fun he => ⟨h, he.1.symm, he.2.symm⟩, fun he => ⟨he.2.1.symm, he.2.2.symm⟩⟩
  · rw [if_neg h]
    exact ⟨nofun, fun he => absurd he.1 h⟩

/-- What is cut off first is the same whatever follows. -/
theorem split?_append (h : split? n bs = some (head, tail)) (x : Bytes) :
    split? n (bs ++ x) = some (head, tail ++ x) := by
  obtain ⟨hn, rfl, rfl⟩ := split?_eq_some.mp h
  rw [split?_eq_some, List.take_append_of_le_length hn, List.drop_append_of_le_length hn,
    List.length_append]
  exact ⟨Nat.le_add_right_of_le hn, rfl, rfl⟩

theorem split?_length (head tail : Bytes) : split? head.length (head ++ tail) = some (head, tail) :=
  split?_eq_some.mpr ⟨by simp, by simp, by simp⟩

/-! ## Parts of a fixed size -/

theorem length_of_mem_cut {count : Nat} {part : Bytes} (hlength : n * count ≤ bs.length)
    (h : part ∈ cut n count bs) : part.length = n := by
  induction count generalizing bs with
  | zero => cases h
  | succ count ih =>
    rw [Nat.mul_succ] at hlength
    rw [cut, List.mem_cons] at h
    obtain rfl | h := h
    · rw [List.length_take]
      omega
    · exact ih (by rw [List.length_drop]; omega) h

/-- The parts together are what was cut. -/
theorem flatten_cut {count : Nat} (hlength : bs.length = n * count) :
    (cut n count bs).flatten = bs := by
  induction count generalizing bs with
  | zero => exact (List.eq_nil_of_length_eq_zero hlength).symm
  | succ count ih =>
    rw [Nat.mul_succ] at hlength
    rw [cut, List.flatten_cons, ih (by rw [List.length_drop]; omega), List.take_append_drop]

/-- Parts that stand one after the other are what is cut off, whatever follows them. -/
theorem cut_flatten {parts : List Bytes} (h : ∀ part ∈ parts, part.length = n) (tail : Bytes) :
    cut n parts.length (parts.flatten ++ tail) = parts := by
  induction parts with
  | nil => rfl
  | cons part parts ih =>
    obtain rfl := h part (List.mem_cons_self ..)
    rw [List.length_cons, cut, List.flatten_cons, List.append_assoc, List.take_left, List.drop_left,
      ih fun other hother => h other (List.mem_cons_of_mem part hother)]

/-! ## Numbers -/

theorem number_concat (bs : Bytes) (b : UInt8) : number (bs ++ [b]) = number bs * 256 + b.toNat := by
  rw [number, List.foldl_append]
  rfl

theorem number_pair (a b : UInt8) : number [a, b] = a.toNat * 256 + b.toNat := by
  simp [number]

/-- A field of `n` octets holds numbers of `8 * n` bits. -/
theorem number_lt (bs : Bytes) : number bs < 256 ^ bs.length := by
  induction bs using List.reverseRecOn with
  | nil => exact Nat.one_pos
  | append_singleton bs b ih =>
    have hb := b.toNat_lt
    rw [number_concat, List.length_append, List.length_singleton, Nat.pow_succ]
    omega

theorem number_ofNumber (width n : Nat) : number (ofNumber width n) = n % 256 ^ width := by
  induction width generalizing n with
  | zero => simp [ofNumber, number, Nat.mod_one]
  | succ width ih =>
    have hpow : 256 ^ (width + 1) = 256 * 256 ^ width := Nat.pow_succ'
    rw [ofNumber, number_concat, ih, UInt8.toNat_ofNat', hpow, Nat.mod_mul]
    omega

theorem number_ofNumber_of_lt {width : Nat} (h : n < 256 ^ width) : number (ofNumber width n) = n := by
  rw [number_ofNumber, Nat.mod_eq_of_lt h]

/-- Octets are the field of the number that they write. -/
theorem ofNumber_number (bs : Bytes) : ofNumber bs.length (number bs) = bs := by
  induction bs using List.reverseRecOn with
  | nil => rfl
  | append_singleton bs b ih =>
    have hb := b.toNat_lt
    have hlow : UInt8.ofNat (number bs * 256 + b.toNat) = b := by
      apply UInt8.toNat_inj.mp
      rw [UInt8.toNat_ofNat']
      omega
    have hhigh : (number bs * 256 + b.toNat) / 256 = number bs := by omega
    rw [List.length_append, List.length_singleton, number_concat, ofNumber, hhigh, hlow, ih]

theorem length_ofUInt16 (w : UInt16) : (ofUInt16 w).length = 2 := length_ofNumber 2 _

theorem length_ofUInt32 (w : UInt32) : (ofUInt32 w).length = 4 := length_ofNumber 4 _

/-- A field of two octets. -/
theorem ofNumber_two (n : Nat) : ofNumber 2 n = [UInt8.ofNat (n / 256), UInt8.ofNat n] := rfl

/-- Two octets are the field of the number that they write. -/
theorem ofNumber_two_octets (a b : UInt8) : ofNumber 2 (a.toNat * 256 + b.toNat) = [a, b] := by
  have ha := a.toNat_lt
  have hb := b.toNat_lt
  have hfirst : UInt8.ofNat ((a.toNat * 256 + b.toNat) / 256) = a := by
    apply UInt8.toNat_inj.mp
    rw [UInt8.toNat_ofNat']
    omega
  have hsecond : UInt8.ofNat (a.toNat * 256 + b.toNat) = b := by
    apply UInt8.toNat_inj.mp
    rw [UInt8.toNat_ofNat']
    omega
  rw [ofNumber_two, hfirst, hsecond]

end DvbHost.Bytes

namespace DvbHost

set_option autoImplicit false

theorem bits_eq (low width n : Nat) : bits low width n = n / 2 ^ low % 2 ^ width := rfl

theorem flagWeight_eq (i : Nat) (b : Bool) : flagWeight i b = if b then 2 ^ i else 0 := rfl

/-- A bit as a digit. -/
theorem testBit_eq (n i : Nat) : n.testBit i = decide (n / 2 ^ i % 2 = 1) :=
  Nat.testBit_eq_decide_div_mod_eq

end DvbHost
