import DvbHost.Proofs.Crc32

/-!
# The checksum bit by bit

A step of the register is linear: the exclusive or of two registers moves to that of the registers
they move to, if the bits that go in are combined in the same way. So the octet at the top of the
register and the octet that goes in have one word of the table together, and a step of the table is
eight steps of the definition (`step_eq_feed`), whatever the register holds. Octet after octet, the
table gives what the bits give (`checksum_eq_bitSerial`).
-/

namespace DvbHost.Crc32

set_option autoImplicit false

/-- The bits of a byte string, most significant first. -/
def bitsOf (data : Bytes) : List Bool := data.flatMap octetBits

/-- The register after more bits. -/
def feed (r : UInt32) (bits : List Bool) : UInt32 := bits.foldl stepBit r

def zeros (n : Nat) : List Bool := List.replicate n false

/-- The bit that leaves the register next. -/
def topBit (r : UInt32) : Bool := r.toBitVec.msb

/-- What is taken off the register after it has moved up. -/
def reduction (differs : Bool) : UInt32 := if differs then generator else 0

variable {r r' : UInt32} {c c' : Bool} {cs cs' : List Bool} {n : Nat}

/-! ## One bit -/

theorem topBit_eq (r : UInt32) : topBit r = decide (0x80000000 ≤ r.toNat) :=
  BitVec.msb_eq_decide r.toBitVec

theorem stepBit_eq (r : UInt32) (c : Bool) :
    stepBit r c = (r <<< 1) ^^^ reduction (topBit r ^^ c) := by
  rw [stepBit, ← topBit_eq]
  cases topBit r <;> cases c <;> simp [reduction]

theorem shift_eq_stepBit (r : UInt32) : shift r = stepBit r false := by
  rw [shift, stepBit_eq, topBit_eq, Bool.xor_false]
  by_cases h : r.toNat < 0x80000000
  · rw [if_pos h, decide_eq_false (Nat.not_le.mpr h)]
    exact UInt32.xor_zero.symm
  · rw [if_neg h, decide_eq_true (Nat.not_lt.mp h)]
    rfl

theorem reduction_xor (c c' : Bool) : reduction (c ^^ c') = reduction c ^^^ reduction c' := by
  cases c <;> cases c' <;> decide

theorem stepBit_xor (r r' : UInt32) (c c' : Bool) :
    stepBit (r ^^^ r') (c ^^ c') = stepBit r c ^^^ stepBit r' c' := by
  have htop : topBit (r ^^^ r') = (topBit r ^^ topBit r') := BitVec.msb_xor
  have hdiffers : ((topBit r ^^ topBit r') ^^ (c ^^ c')) = ((topBit r ^^ c) ^^ (topBit r' ^^ c')) := by
    rw [Bool.xor_assoc, Bool.xor_assoc, Bool.xor_left_comm (topBit r')]
  simp only [stepBit_eq, htop, hdiffers, reduction_xor, UInt32.shiftLeft_xor]
  ac_rfl

/-! ## Many bits -/

theorem feed_cons (r : UInt32) (c : Bool) (cs : List Bool) :
    feed r (c :: cs) = feed (stepBit r c) cs := rfl

theorem feed_append (r : UInt32) (cs cs' : List Bool) :
    feed r (cs ++ cs') = feed (feed r cs) cs' := List.foldl_append

theorem feed_xor (hlength : cs.length = cs'.length) (r r' : UInt32) :
    feed (r ^^^ r') (List.zipWith (· ^^ ·) cs cs') = feed r cs ^^^ feed r' cs' := by
  induction cs generalizing cs' r r' with
  | nil =>
    obtain rfl := List.eq_nil_of_length_eq_zero hlength.symm
    rfl
  | cons c cs ih =>
    cases cs' with
    | nil => cases hlength
    | cons c' cs' =>
      rw [List.zipWith_cons_cons, feed_cons, feed_cons, feed_cons, stepBit_xor]
      exact ih (Nat.succ.inj hlength) _ _

theorem zipWith_zeros (cs : List Bool) : List.zipWith (· ^^ ·) (zeros cs.length) cs = cs := by
  induction cs with
  | nil => rfl
  | cons c cs ih => exact congrArg₂ List.cons (Bool.false_xor c) ih

/-- What was in the register and what goes in do not meet. -/
theorem feed_eq_xor (r : UInt32) (cs : List Bool) :
    feed r cs = feed r (zeros cs.length) ^^^ feed 0 cs := by
  have hlength : (zeros cs.length).length = cs.length := List.length_replicate
  have h := feed_xor hlength r 0
  rwa [zipWith_zeros, UInt32.xor_zero] at h

theorem feed_zeros_xor (n : Nat) (r r' : UInt32) :
    feed (r ^^^ r') (zeros n) = feed r (zeros n) ^^^ feed r' (zeros n) := by
  have hlength : (zeros n).length = n := List.length_replicate
  have h := feed_xor (rfl : (zeros n).length = (zeros n).length) r r'
  have hzip := zipWith_zeros (zeros n)
  rw [hlength] at hzip
  rwa [hzip] at h

/-- A register with enough room above its number only moves up. -/
theorem feed_zeros_of_lt (h : r.toNat * 2 ^ n < 2 ^ 32) :
    (feed r (zeros n)).toNat = r.toNat * 2 ^ n := by
  induction n generalizing r with
  | zero => exact (Nat.mul_one _).symm
  | succ n ih =>
    have hpow : r.toNat * 2 ^ (n + 1) = 2 * r.toNat * 2 ^ n := by ring
    have hsmall : 2 * r.toNat < 2 ^ 32 :=
      Nat.lt_of_le_of_lt (Nat.le_mul_of_pos_right _ (Nat.two_pow_pos n)) (hpow ▸ h)
    have hstep : (stepBit r false).toNat = 2 * r.toNat := by
      rw [← shift_eq_stepBit, shift, if_pos (by omega), UInt32.toNat_shiftLeft, Nat.shiftLeft_eq]
      change r.toNat * 2 % 2 ^ 32 = _
      omega
    rw [hpow, ← hstep] at h
    rw [hpow, ← hstep]
    exact ih h

/-! ## One octet -/

theorem entry_eq_feed (i : Nat) : entry i = feed (UInt32.ofNat i <<< 24) (zeros 8) := by
  have hrepeat : ∀ (n : Nat) (r : UInt32), Nat.repeat shift n r = feed r (zeros n) := by
    intro n r
    induction n with
    | zero => rfl
    | succ n ih =>
      have hzeros : zeros (n + 1) = zeros n ++ [false] := List.replicate_succ'
      rw [hzeros, feed_append, ← ih]
      exact shift_eq_stepBit _
  exact hrepeat 8 _

theorem entry_xor (a b : UInt8) : entry (a ^^^ b).toNat = entry a.toNat ^^^ entry b.toNat := by
  rw [entry_eq_feed, entry_eq_feed, entry_eq_feed, ← feed_zeros_xor, ← UInt32.shiftLeft_xor,
    UInt8.toNat_xor, UInt32.ofNat_xor]

/-- An octet that goes into an empty register meets its word of the table. -/
theorem feed_octetBits (b : UInt8) : feed 0 (octetBits b) = entry b.toNat := by
  have hall : ∀ i : Fin 256, feed 0 (octetBits (UInt8.ofNat i)) = entry i := by decide +kernel
  have hb := hall ⟨b.toNat, b.toNat_lt⟩
  rwa [UInt8.ofNat_toNat] at hb

/-- The octet at the top, in its place. -/
def topPart (r : UInt32) : UInt32 := r >>> 24 <<< 24

theorem toNat_topPart (r : UInt32) : (topPart r).toNat = r.toNat / 2 ^ 24 * 2 ^ 24 := by
  have hlt := r.toNat_lt
  rw [topPart, UInt32.toNat_shiftLeft, UInt32.toNat_shiftRight, Nat.shiftLeft_eq,
    Nat.shiftRight_eq_div_pow]
  change r.toNat / 2 ^ 24 * 2 ^ 24 % 2 ^ 32 = _
  omega

theorem topPart_eq (r : UInt32) : topPart r = UInt32.ofNat (top r).toNat <<< 24 := by
  have hindex : UInt32.ofNat (top r).toNat = r >>> 24 := by
    apply UInt32.toNat_inj.mp
    have hlt := r.toNat_lt
    rw [top_eq, UInt8.toNat_ofNat', UInt32.toNat_ofNat', UInt32.toNat_shiftRight,
      Nat.shiftRight_eq_div_pow]
    change r.toNat / 0x1000000 % 2 ^ 8 % 2 ^ 32 = r.toNat / 2 ^ 24
    omega
  rw [hindex, topPart]

/-- Without the octet at the top, a register has room for another. -/
theorem xor_topPart_lt (r : UInt32) : (r ^^^ topPart r).toNat < 2 ^ 24 := by
  have hshifted : (r ^^^ topPart r) >>> 24 = 0 := by
    have hpart : topPart r >>> 24 = r >>> 24 := by
      apply UInt32.toNat_inj.mp
      rw [UInt32.toNat_shiftRight, UInt32.toNat_shiftRight, toNat_topPart, Nat.shiftRight_eq_div_pow,
        Nat.shiftRight_eq_div_pow]
      exact Nat.mul_div_cancel _ (Nat.two_pow_pos 24)
    rw [UInt32.shiftRight_xor, hpart, UInt32.xor_self]
  have hnat := congrArg UInt32.toNat hshifted
  rw [UInt32.toNat_shiftRight, Nat.shiftRight_eq_div_pow] at hnat
  exact (Nat.div_eq_zero_iff_lt (Nat.two_pow_pos 24)).mp hnat

theorem xor_topPart_shiftLeft (r : UInt32) : (r ^^^ topPart r) <<< 8 = r <<< 8 := by
  have hpart : topPart r <<< 8 = 0 := by
    apply UInt32.toNat_inj.mp
    rw [toNat_shiftLeft_eight, toNat_topPart]
    change _ = 0
    omega
  rw [UInt32.shiftLeft_xor, hpart, UInt32.xor_zero]

/-- Eight steps move the octet at the top out, which leaves its word of the table. -/
theorem feed_zeros_eight (r : UInt32) :
    feed r (zeros 8) = (r <<< 8) ^^^ entry (top r).toNat := by
  have hlow := xor_topPart_lt r
  have hmoved : feed (r ^^^ topPart r) (zeros 8) = r <<< 8 := by
    rw [← xor_topPart_shiftLeft]
    apply UInt32.toNat_inj.mp
    rw [feed_zeros_of_lt (by omega), toNat_shiftLeft_eight]
    omega
  rw [entry_eq_feed, ← topPart_eq, ← hmoved, ← feed_zeros_xor, UInt32.xor_assoc, UInt32.xor_self,
    UInt32.xor_zero]

/-- A step of the table is eight steps of the definition. -/
theorem step_eq_feed (r : UInt32) (b : UInt8) : step r b = feed r (octetBits b) := by
  have hlength : (octetBits b).length = 8 := rfl
  have hstep : step r b = (r <<< 8) ^^^ entry (top r ^^^ b).toNat := by
    simp only [step, table, Array.getElem_ofFn, top]
  rw [hstep, entry_xor, feed_eq_xor, hlength, feed_zeros_eight, feed_octetBits, UInt32.xor_assoc]

/-- The octets of a byte string move the register as its bits do. -/
theorem foldl_step_eq (data : Bytes) (r : UInt32) : data.foldl step r = feed r (bitsOf data) := by
  have hstep : step = fun r b => feed r (octetBits b) := funext₂ step_eq_feed
  rw [hstep, feed, bitsOf, List.foldl_flatMap]
  rfl

/-- For every byte string, the checksum that is taken from the table octet by octet is the register
of the definition, which starts with all ones and takes the bits one at a time. -/
theorem checksum_eq_bitSerial (data : Bytes) : checksum data = bitSerial data :=
  foldl_step_eq data 0xFFFFFFFF

end DvbHost.Crc32
