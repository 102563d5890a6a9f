import DvbHost.Crc32
import DvbHost.Proofs.Bytes

/-!
# The checksum of a section with its checksum

The four octets of the register, fed into the register, move it out: each of them meets itself at
the top, so nothing is reduced, and after the fourth the register is zero. No other four octets do
that: the generator is odd, so a reduction leaves a one at the lower end of the register, and with
it in sight the register cannot become zero any more.
-/

namespace DvbHost.Crc32

set_option autoImplicit false

/-- The octet at the top of the register. -/
def top (r : UInt32) : UInt8 := (r >>> 24).toUInt8

theorem top_eq (r : UInt32) : top r = UInt8.ofNat (r.toNat / 0x1000000) := by
  apply UInt8.toNat_inj.mp
  rw [top, UInt32.toNat_toUInt8, UInt32.toNat_shiftRight, Nat.shiftRight_eq_div_pow,
    UInt8.toNat_ofNat']
  rfl

theorem toNat_shiftLeft_eight (r : UInt32) : (r <<< 8).toNat = r.toNat * 256 % 0x100000000 := by
  rw [UInt32.toNat_shiftLeft, Nat.shiftLeft_eq]
  rfl

theorem entry_zero : entry 0 = 0 := by decide

theorem table_zero (h : 0 < table.size) : table[0] = 0 := by
  have hentry : table[0] = entry 0 := by simp only [table, Array.getElem_ofFn]
  rw [hentry, entry_zero]

/-- The octet at the top leaves the register without a trace. -/
theorem step_top (r : UInt32) : step r (top r) = r <<< 8 := by
  have hindex : ((r >>> 24).toUInt8 ^^^ top r).toNat = 0 := by
    rw [top, UInt8.xor_self]
    rfl
  simp only [step, hindex, table_zero, UInt32.xor_zero]

/-- The octets of the register are its top octets, one place further each time. -/
theorem ofUInt32_eq (r : UInt32) : Bytes.ofUInt32 r =
    [top r, top (r <<< 8), top (r <<< 8 <<< 8), top (r <<< 8 <<< 8 <<< 8)] := by
  have hr := r.toNat_lt
  have hoctet : ∀ m n : Nat, m % 256 = n % 256 → UInt8.ofNat m = UInt8.ofNat n := by
    intro m n h
    apply UInt8.toNat_inj.mp
    rw [UInt8.toNat_ofNat', UInt8.toNat_ofNat']
    exact h
  simp only [top_eq, toNat_shiftLeft_eight]
  change [UInt8.ofNat (r.toNat / 256 / 256 / 256), UInt8.ofNat (r.toNat / 256 / 256),
    UInt8.ofNat (r.toNat / 256), UInt8.ofNat r.toNat] = _
  rw [hoctet (r.toNat / 256 / 256 / 256) (r.toNat / 0x1000000) (by omega),
    hoctet (r.toNat / 256 / 256) (r.toNat * 256 % 0x100000000 / 0x1000000) (by omega),
    hoctet (r.toNat / 256)
      (r.toNat * 256 % 0x100000000 * 256 % 0x100000000 / 0x1000000) (by omega),
    hoctet r.toNat (r.toNat * 256 % 0x100000000 * 256 % 0x100000000 * 256 % 0x100000000 / 0x1000000)
      (by omega)]

theorem shiftLeft_out (r : UInt32) : r <<< 8 <<< 8 <<< 8 <<< 8 = 0 := by
  apply UInt32.toNat_inj.mp
  rw [toNat_shiftLeft_eight, toNat_shiftLeft_eight, toNat_shiftLeft_eight, toNat_shiftLeft_eight]
  change _ = 0
  omega

/-- Octets with their own checksum behind them are found right. -/
theorem verify_append_checksum (octets : Bytes) :
    verify (octets ++ Bytes.ofUInt32 (checksum octets)) = true := by
  rw [verify, checksum, List.foldl_append, ofUInt32_eq]
  change (step (step (step (step (checksum octets) _) _) _) _ == 0) = true
  rw [step_top, step_top, step_top, step_top, shiftLeft_out]
  rfl

/-! ## No other octets -/

/-- A register that is even after a shift was not reduced. -/
theorem shift_of_even {r : UInt32} (even : (shift r).toNat % 2 = 0) :
    (shift r).toNat = 2 * r.toNat := by
  have htwice : (r <<< 1).toNat = 2 * r.toNat % 0x100000000 := by
    rw [UInt32.toNat_shiftLeft, Nat.shiftLeft_eq, Nat.mul_comm]
    rfl
  rw [shift] at even ⊢
  split at even
  · next h =>
    rw [if_pos h, htwice]
    omega
  · rw [UInt32.toNat_xor, Nat.xor_mod_two_eq, htwice] at even
    have hodd : generator.toNat % 2 = 1 := rfl
    omega

/-- A register whose last octet is zero after eight shifts was not reduced in any of them. -/
theorem shifts_of_low_zero {r : UInt32} {n : Nat}
    (low : (Nat.repeat shift n r).toNat % 2 ^ n = 0) :
    (Nat.repeat shift n r).toNat = r.toNat * 2 ^ n := by
  induction n with
  | zero => exact (Nat.mul_one _).symm
  | succ n ih =>
    change (shift (Nat.repeat shift n r)).toNat % 2 ^ (n + 1) = 0 at low
    change (shift (Nat.repeat shift n r)).toNat = _
    have hdvd : 2 ^ n * 2 ∣ (shift (Nat.repeat shift n r)).toNat := Nat.dvd_of_mod_eq_zero low
    have heven := Nat.mod_eq_zero_of_dvd (Nat.dvd_trans (Nat.dvd_mul_left 2 (2 ^ n)) hdvd)
    have htwice := shift_of_even heven
    rw [htwice, Nat.mul_comm 2] at hdvd
    have hlow := Nat.mod_eq_zero_of_dvd (Nat.dvd_of_mul_dvd_mul_right Nat.two_pos hdvd)
    rw [htwice, ih hlow, Nat.pow_succ]
    ring

/-- Of the words of the table only the first ends with a zero octet. -/
theorem entry_low_zero {i : Nat} (hi : i < 256) (low : (entry i).toNat % 256 = 0) : i = 0 := by
  have hplaced : (UInt32.ofNat i <<< 24).toNat = i * 0x1000000 := by
    rw [UInt32.toNat_shiftLeft, Nat.shiftLeft_eq, UInt32.toNat_ofNat']
    change i % 0x100000000 * 0x1000000 % 0x100000000 = _
    omega
  have hentry : (entry i).toNat = (UInt32.ofNat i <<< 24).toNat * 2 ^ 8 := shifts_of_low_zero low
  have hlt := (entry i).toNat_lt
  omega

/-- If the register ends with a zero octet, the octet that went in was the one at the top. -/
theorem step_low_zero {r : UInt32} {b : UInt8} (low : (step r b).toNat % 256 = 0) :
    b = top r ∧ step r b = r <<< 8 := by
  have hi : (top r ^^^ b).toNat < 256 := UInt8.toNat_lt _
  have hstep : step r b = (r <<< 8) ^^^ entry (top r ^^^ b).toNat := by
    simp only [step, table, Array.getElem_ofFn, top]
  have hentry : (entry (top r ^^^ b).toNat).toNat % 256 = 0 := by
    have hshifted : (r <<< 8).toNat % 2 ^ 8 = 0 := by
      rw [toNat_shiftLeft_eight]
      omega
    change (step r b).toNat % 2 ^ 8 = 0 at low
    rw [hstep, UInt32.toNat_xor, Nat.xor_mod_two_pow, hshifted, Nat.zero_xor] at low
    exact low
  have hzero := entry_low_zero hi hentry
  have hb : b = top r := (UInt8.xor_eq_zero_iff.mp (UInt8.toNat_inj.mp hzero)).symm
  rw [hb]
  exact ⟨rfl, step_top r⟩

/-- Only the octets of the register move it out. -/
theorem eq_ofUInt32_of_residue {r : UInt32} {a b c d : UInt8}
    (h : step (step (step (step r a) b) c) d = 0) : [a, b, c, d] = Bytes.ofUInt32 r := by
  -- From the last octet to the first: each step leaves eight more zeros than the one after it.
  obtain ⟨rfl, hd⟩ := step_low_zero (by rw [h]; rfl)
  rw [hd] at h
  have hlast := congrArg UInt32.toNat h
  rw [toNat_shiftLeft_eight] at hlast
  change _ = 0 at hlast
  obtain ⟨rfl, hc⟩ := step_low_zero (r := step (step r a) b) (b := c) (by omega)
  rw [hc, toNat_shiftLeft_eight] at hlast
  obtain ⟨rfl, hb⟩ := step_low_zero (r := step r a) (b := b) (by omega)
  rw [hb, toNat_shiftLeft_eight] at hlast
  obtain ⟨rfl, ha⟩ := step_low_zero (r := r) (b := a) (by omega)
  rw [hc, hb, ha, ofUInt32_eq]

/-- Four octets behind others are found right exactly if they are the checksum of these. -/
theorem verify_append_iff {octets crc : Bytes} (hcrc : crc.length = 4) :
    verify (octets ++ crc) = true ↔ crc = Bytes.ofUInt32 (checksum octets) := by
  constructor
  · intro h
    match crc, hcrc with
    | [a, b, c, d], _ =>
      rw [verify, checksum, List.foldl_append, beq_iff_eq] at h
      exact eq_ofUInt32_of_residue h
  · rintro rfl
    exact verify_append_checksum octets

end DvbHost.Crc32
